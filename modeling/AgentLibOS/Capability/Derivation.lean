import AgentLibOS.Capability.Manager
import AgentLibOS.Capability.Revocation

namespace AgentLibOS.Capability
open Library.Run CapabilityManager

/-! ## Operations on the whole store -/

/-- Finite-use steps and explicit revocation. -/
inductive LeaseOp
  | consume (capId : String) (count : Nat)
  | reserve (capId reservationId : String) (count : Nat)
  | commit (reservationId : String)
  | restore (reservationId : String)
  | revoke (capId : String) (authority : Option (String × String))
  | disable (capId : String)

def LeaseOp.storeOp : LeaseOp → StoreOp
  | .consume capId count => .consume capId count
  | .reserve capId reservationId count => .reserve capId reservationId count
  | .commit reservationId => .commit reservationId
  | .restore reservationId => .restore reservationId
  | .revoke capId authority => .revoke capId authority
  | .disable capId => .disable capId

namespace AuthorityStore
variable {store store' : AuthorityStore}

def lease (store : AuthorityStore) (op : LeaseOp) : Except AuthorityError AuthorityStore :=
  match done : op.storeOp.exec store.rows with
  | .error error => .error (.lease error)
  | .ok rows => .ok
      { store with
        rows := rows
        known := by
          intro capId granted
          obtain ⟨row, stored⟩ := Option.isSome_iff_exists.mp (store.known capId granted)
          obtain ⟨row', stored', -⟩ := CapabilityStore.steps_exec done capId row stored
          exact Option.isSome_of_eq_some stored' }

/-- A one-time decision uses up a capability for the time of a transaction. -/
def reserveDecision (store : AuthorityStore) :
    Option (String × String) → Except AuthorityError AuthorityStore
  | none => .ok store
  | some (capId, reservationId) => store.lease (.reserve capId reservationId 1)

def commitDecision (store : AuthorityStore) :
    Option (String × String) → Except AuthorityError AuthorityStore
  | none => .ok store
  | some (_, reservationId) => store.lease (.commit reservationId)

/-! ## What an operation leaves of the stored capabilities -/

/-- Stores that differ in the status and the finite uses of capabilities only. -/
def SameGrants (store store' : AuthorityStore) : Prop :=
  ∀ capId, (store.getCapability capId = none ∧ store'.getCapability capId = none) ∨
    ∃ cap uses status, store.getCapability capId = some cap ∧
      store'.getCapability capId =
        some { cap with usesRemaining := uses, status := status } ∧
      (uses = none ↔ cap.usesRemaining = none)

theorem SameGrants.refl (store : AuthorityStore) : SameGrants store store := by
  intro capId
  cases stored : store.getCapability capId with
  | none => exact Or.inl ⟨rfl, rfl⟩
  | some cap => exact Or.inr ⟨cap, cap.usesRemaining, cap.status, rfl, rfl, Iff.rfl⟩

theorem lease_sameGrants {op : LeaseOp} (done : store.lease op = .ok store') :
    SameGrants store store' := by
  unfold lease at done
  split at done
  · cases done
  · rename_i rows exec
    cases done
    intro capId
    cases granted : store.grants capId with
    | none =>
        refine Or.inl ⟨?_, ?_⟩ <;> simp only [getCapability, granted]
        · cases store.rows.capabilities capId <;> rfl
        · cases rows.capabilities capId <;> rfl
    | some grant =>
        obtain ⟨row, stored⟩ := Option.isSome_iff_exists.mp
          (store.known capId (Option.isSome_of_eq_some granted))
        obtain ⟨row', stored', step⟩ := CapabilityStore.steps_exec exec capId row stored
        have same := step.sameIdentity
        refine Or.inr ⟨_, row'.usesRemaining, row'.status,
          by simp only [getCapability, stored, granted]; rfl, ?_, same.unlimited⟩
        simp only [getCapability, stored', granted]
        exact congrArg some (by simp [same.subject, same.resource, same.revocable])

theorem reserveDecision_sameGrants {authority : Option (String × String)}
    (done : store.reserveDecision authority = .ok store') : SameGrants store store' := by
  cases authority with
  | none =>
      cases done
      exact .refl store
  | some use => exact lease_sameGrants done

theorem commitDecision_sameGrants {authority : Option (String × String)}
    (done : store.commitDecision authority = .ok store') : SameGrants store store' := by
  cases authority with
  | none =>
      cases done
      exact .refl store
  | some use =>
      obtain ⟨capId, reservationId⟩ := use
      exact @lease_sameGrants _ _ (.commit reservationId) done

end AuthorityStore

/-- The capability a draft is published as. -/
def CapabilityDraft.capability (draft : CapabilityDraft) (capId : String) : Capability where
  capId := capId
  subject := draft.subject
  resource := draft.resource
  rights := draft.grant.rights
  constraints := draft.grant.constraints
  issuedAt := draft.grant.issuedAt
  expiresAt := draft.grant.expiresAt
  delegable := draft.grant.delegable
  revocable := draft.revocable
  effect := draft.grant.effect
  parentCapId := draft.grant.parentCapId
  delegationDepth := draft.grant.delegationDepth
  maxDelegationDepth := draft.grant.maxDelegationDepth
  usesRemaining := draft.usesRemaining
  status := .active

namespace AuthorityStore
variable {store store' : AuthorityStore}

theorem publish_ok {draft : CapabilityDraft} {capId : String}
    (done : store.publish draft capId = .ok store') :
    store.getCapability capId = none ∧ store'.capIds = store.capIds ++ [capId] ∧
      ∀ id, store'.getCapability id =
        if id = capId then some (draft.capability capId) else store.getCapability id := by
  unfold publish at done
  split at done
  · cases done
  · rename_i free
    cases done
    refine ⟨by simp only [getCapability, free]; rfl, rfl, fun id => ?_⟩
    by_cases same : id = capId
    · simp only [getCapability, CapabilityStore.setRow, same, if_true]
      rfl
    · simp only [getCapability, CapabilityStore.setRow, same, if_false]

end AuthorityStore

namespace CapabilityManager

section Issue
variable (engine : Engine) (config : CapabilityConfig)

/-- `issue` under a GRANT decision. The first, advisory check before the transaction is repeated
inside it. -/
def issueByGrant (store : AuthorityStore) (now : Int) (actor subject : String)
    (spec : CapabilitySpec) (capId issuedAt : String) (authority : Option (String × String)) :
    Except AuthorityError AuthorityStore := do
  let reserved ← store.reserveDecision authority
  let parentCap ← findTransferParent engine config reserved now actor spec
  validateTransferParent engine config reserved now spec parentCap
  let draft ← transferDraft engine config subject issuedAt spec parentCap
  let published ← reserved.publish draft capId
  published.commitDecision authority

end Issue

/-! ## Facts that a validated parent has -/

section Facts
variable {engine : Engine} {config : CapabilityConfig} {store : AuthorityStore} {now : Int}
  {spec : CapabilitySpec} {parentCap : Capability}

theorem firstValid_ok {validate : Capability → Except AuthorityError Unit}
    {failure : AuthorityError} {caps : List Capability} {cap : Capability}
    (found : firstValid validate failure caps = .ok cap) :
    cap ∈ caps ∧ validate cap = .ok () := by
  induction caps with
  | nil => cases found
  | cons first rest ih =>
      unfold firstValid at found
      split at found
      · rename_i valid
        cases found
        exact ⟨List.mem_cons_self, valid⟩
      · have further : firstValid validate failure rest = .ok cap := by
          cases tried : firstValid validate failure rest with
          | ok other =>
              rw [tried] at found
              exact found
          | error error =>
              rw [tried] at found
              cases error <;> cases found
        exact ⟨List.mem_cons_of_mem _ (ih further).1, (ih further).2⟩
      · cases found

/-- What both ways of deriving ask of the parent. -/
structure DerivableFrom (config : CapabilityConfig) (parent : Capability) (spec : CapabilitySpec) :
    Prop where
  effect : parent.effect = .allow
  covers : ResourceAuthority.covers parent.resource spec.resource = true
  rights : ∀ right ∈ spec.rights, right ∈ parent.rights
  unlimited : parent.usesRemaining = none
  delegable : spec.delegable = true → parent.delegable = true
  expiry : ∀ limit requested, parent.expiresAt = some limit → spec.expiresAt = some requested →
    requested ≤ limit
  depth : ∀ depth, spec.maxDelegationDepth = some depth → depth ≤ effectiveMaxDepth config parent
  constraints : ∀ entry ∈ parent.constraints,
    parentConstraintError spec.constraints entry.1 entry.2 = none

theorem temporal_ok {action : String}
    (valid : requireTemporalAttenuation now parentCap spec action = .ok ()) :
    spec.expiresAt.any (· ≤ now) = false ∧ ∀ limit requested, parentCap.expiresAt = some limit →
      spec.expiresAt = some requested → requested ≤ limit := by
  unfold requireTemporalAttenuation at valid
  split_ifs at valid with past
  refine ⟨by simpa using past, fun limit requested bounded asked => ?_⟩
  rw [bounded, asked] at valid
  simp only at valid
  split_ifs at valid with beyond
  exact not_lt.mp beyond

theorem attenuation_ok
    (valid : requireConstraintAttenuation engine config parentCap spec = .ok ()) :
    ∀ entry ∈ parentCap.constraints,
      parentConstraintError spec.constraints entry.1 entry.2 = none := by
  obtain ⟨error, checked, done⟩ := bind_eq_ok.mp valid
  cases error with
  | some error => cases done
  | none =>
      obtain ⟨parentError, -, checked⟩ := bind_eq_ok.mp checked
      cases parentError with
      | some error => cases checked
      | none =>
          obtain ⟨ownError, -, checked⟩ := bind_eq_ok.mp checked
          cases ownError with
          | some error => cases checked
          | none =>
              have none_ := Except.ok.inj checked
              rw [Option.or_eq_none_iff, List.findSome?_eq_none_iff] at none_
              exact none_.1

theorem mem_candidates {subject : String} {delegating : Bool}
    (member : parentCap ∈ candidates store now subject spec delegating) :
    parentCap ∈ store.capabilitiesFor subject ∧ store.live now parentCap = true ∧
      parentCap.effect = .allow ∧ (delegating = true → parentCap.delegable = true) ∧
      ResourceAuthority.covers parentCap.resource spec.resource = true ∧
      ∀ right ∈ spec.rights, right ∈ parentCap.rights := by
  rw [candidates, List.mem_insertionSort, List.mem_filter] at member
  obtain ⟨held, meets⟩ := member
  simp only [Bool.and_eq_true, beq_iff_eq, Bool.or_eq_true, Bool.not_eq_true', List.all_eq_true,
    List.contains_eq_mem, decide_eq_true_eq] at meets
  obtain ⟨⟨⟨⟨live, effect⟩, delegable⟩, covers⟩, rights⟩ := meets
  exact ⟨held, live, effect, fun asked => delegable.resolve_left (by simp [asked]), covers, rights⟩

theorem within_of_any {limit : Nat} {asked : Option Nat} (within : ¬ asked.any (limit < ·) = true) :
    ∀ depth, asked = some depth → depth ≤ limit := by
  rintro depth rfl
  simpa using within

theorem delegable_of_guard {asked held : Bool} (guard : ¬ (asked && !held) = true) :
    asked = true → held = true := by
  cases asked <;> cases held <;> simp_all

theorem validateDelegationParent_ok
    (valid : validateDelegationParent engine config store now spec parentCap = .ok ()) :
    parentCap.usesRemaining = none ∧ (spec.delegable = true → parentCap.delegable = true) ∧
      requireTemporalAttenuation now parentCap spec "delegated" = .ok () ∧
      parentCap.delegationDepth < effectiveMaxDepth config parentCap ∧
      (∀ depth, spec.maxDelegationDepth = some depth →
        depth ≤ effectiveMaxDepth config parentCap) ∧
      requireConstraintAttenuation engine config parentCap spec = .ok () := by
  obtain ⟨-, -, valid⟩ := bind_eq_ok.mp valid
  split_ifs at valid with finite undelegable
  obtain ⟨_, temporal, valid⟩ := bind_eq_ok.mp valid
  simp only at valid
  split_ifs at valid with exhausted wider deeper
  exact ⟨by simpa using finite, delegable_of_guard undelegable, temporal, not_le.mp exhausted,
    within_of_any wider, valid⟩

theorem validateTransferParent_ok
    (valid : validateTransferParent engine config store now spec parentCap = .ok ()) :
    parentCap.usesRemaining = none ∧ (spec.delegable = true → parentCap.delegable = true) ∧
      requireTemporalAttenuation now parentCap spec "transferred" = .ok () ∧
      (spec.delegable = true →
        parentCap.delegationDepth + 1 < effectiveMaxDepth config parentCap) ∧
      (∀ depth, spec.maxDelegationDepth = some depth →
        depth ≤ effectiveMaxDepth config parentCap) ∧
      requireConstraintAttenuation engine config parentCap spec = .ok () := by
  obtain ⟨-, -, valid⟩ := bind_eq_ok.mp valid
  split_ifs at valid with restrictive finite undelegable
  obtain ⟨_, temporal, valid⟩ := bind_eq_ok.mp valid
  simp only at valid
  split_ifs at valid with wider deeper
  refine ⟨by simpa using finite, delegable_of_guard undelegable, temporal, fun asked => ?_,
    within_of_any wider, valid⟩
  simpa [asked] using deeper

theorem findDelegationParent_ok {parent : String}
    (found : findDelegationParent engine config store now parent spec = .ok parentCap) :
    parentCap ∈ store.capabilitiesFor parent ∧ store.live now parentCap = true ∧
      parentCap.delegable = true ∧
      parentCap.delegationDepth < effectiveMaxDepth config parentCap ∧
      spec.expiresAt.any (· ≤ now) = false ∧ DerivableFrom config parentCap spec := by
  obtain ⟨-, -, found⟩ := bind_eq_ok.mp found
  obtain ⟨member, valid⟩ := firstValid_ok found
  obtain ⟨held, live, effect, delegable, covers, rights⟩ := mem_candidates member
  obtain ⟨unlimited, onward, temporal, shallow, depth, constraints⟩ :=
    validateDelegationParent_ok valid
  have expiry := temporal_ok temporal
  exact ⟨held, live, delegable rfl, shallow, expiry.1,
    ⟨effect, covers, rights, unlimited, onward, expiry.2, depth, attenuation_ok constraints⟩⟩

theorem findTransferParent_ok {actor : String}
    (found : findTransferParent engine config store now actor spec = .ok parentCap) :
    parentCap ∈ store.capabilitiesFor actor ∧
      (spec.delegable = true →
        parentCap.delegationDepth + 1 < effectiveMaxDepth config parentCap) ∧
      DerivableFrom config parentCap spec := by
  obtain ⟨-, -, found⟩ := bind_eq_ok.mp found
  obtain ⟨member, valid⟩ := firstValid_ok found
  obtain ⟨held, -, effect, -, covers, rights⟩ := mem_candidates member
  obtain ⟨unlimited, onward, temporal, shallow, depth, constraints⟩ :=
    validateTransferParent_ok valid
  exact ⟨held, shallow, ⟨effect, covers, rights, unlimited, onward, (temporal_ok temporal).2, depth,
    attenuation_ok constraints⟩⟩

theorem mem_capabilitiesFor {subject : String} {cap : Capability}
    (member : cap ∈ store.capabilitiesFor subject) :
    store.getCapability cap.capId = some cap ∧ cap.subject = subject := by
  rw [AuthorityStore.capabilitiesFor, List.mem_filter, List.mem_filterMap] at member
  obtain ⟨⟨capId, -, stored⟩, mine⟩ := member
  have named : cap.capId = capId := by
    unfold AuthorityStore.getCapability at stored
    obtain ⟨row, -, stored⟩ := Option.bind_eq_some_iff.mp stored
    obtain ⟨grant, -, stored⟩ := Option.bind_eq_some_iff.mp stored
    cases stored
    rfl
  exact ⟨named ▸ stored, by simpa using mine⟩

theorem normalizeRights_ok {rights normalized : List String}
    (done : normalizeRights engine config rights = .ok normalized) :
    ∀ right, right ∈ normalized ↔ right ∈ rights := by
  unfold normalizeRights at done
  split at done
  · cases done
  · simp only at done
    split_ifs at done
    cases done
    exact fun right => List.mem_dedup

/-- A draft has the values it is asked for; a maximum depth below its depth is refused. -/
structure Drafted (spec : CapabilitySpec) (subject : String) (parentCapId : Option String)
    (depth : Nat) (maxDepth : Option Nat) (expiresAt : Option Int) (draft : CapabilityDraft) :
    Prop where
  owner : draft.subject = subject
  resource : draft.resource = ResourceAuthority.canonical spec.resource
  usesRemaining : draft.usesRemaining = spec.usesRemaining
  rights : ∀ right, right ∈ draft.grant.rights ↔ right ∈ spec.rights
  constraints : draft.grant.constraints = spec.constraints
  expiry : draft.grant.expiresAt = expiresAt
  delegable : draft.grant.delegable = spec.delegable
  effect : draft.grant.effect = spec.effect
  parent : draft.grant.parentCapId = parentCapId
  delegationDepth : draft.grant.delegationDepth = depth
  maxDelegationDepth : draft.grant.maxDelegationDepth = maxDepth
  within : ∀ bound, maxDepth = some bound → depth ≤ bound

theorem capabilityDraft_ok {subject issuedAt : String} {parentCapId : Option String} {depth : Nat}
    {maxDepth : Option Nat} {expiresAt : Option Int} {draft : CapabilityDraft}
    (done : capabilityDraft engine config subject issuedAt spec parentCapId depth maxDepth expiresAt
      = .ok draft) : Drafted spec subject parentCapId depth maxDepth expiresAt draft := by
  unfold capabilityDraft at done
  split at done
  · cases done
  split at done
  · cases done
  · obtain ⟨rights, normalized, done⟩ := bind_eq_ok.mp done
    obtain ⟨error, -, done⟩ := bind_eq_ok.mp done
    cases error with
    | some error => cases done
    | none =>
        simp only at done
        split at done
        · cases done
        split at done
        · cases done
        rename_i shallow
        cases done
        refine ⟨rfl, rfl, rfl, normalizeRights_ok normalized, rfl, rfl, rfl, rfl, rfl, rfl, rfl, ?_⟩
        rintro bound rfl
        simpa using shallow

end Facts
end CapabilityManager
end AgentLibOS.Capability
