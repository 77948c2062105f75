import AgentLibOS.Capability.Derivation
import AgentLibOS.Capability.Coverage
import Mathlib.Logic.Relation

namespace AgentLibOS.Capability
open Library.Run CapabilityManager

/-! ## Interleavings -/

inductive AuthorityOp
  | delegate (now : Int) (parent child : String) (spec : CapabilitySpec) (capId issuedAt : String)
  | deriveAuthority (now : Int) (source target transitionKind : String)
      (requested : List (CapabilitySpec × String × String)) (ceiling : List CapabilitySpec)
  | issueByGrant (now : Int) (actor subject : String) (spec : CapabilitySpec)
      (capId issuedAt : String) (authority : Option (String × String))
  | lease (op : LeaseOp)

def AuthorityOp.exec (engine : Engine) (config : CapabilityConfig) (store : AuthorityStore) :
    AuthorityOp → Except AuthorityError AuthorityStore
  | .delegate now parent child spec capId issuedAt =>
      delegateSelected engine config store now parent child spec capId issuedAt
  | .deriveAuthority now source target transitionKind requested ceiling =>
      CapabilityManager.deriveAuthority engine config store now source target transitionKind requested ceiling
  | .issueByGrant now actor subject spec capId issuedAt authority =>
      CapabilityManager.issueByGrant engine config store now actor subject spec capId issuedAt authority
  | .lease op => store.lease op

/-! ## Chains -/

structure Attenuated (child parent : Capability) : Prop where
  rights : ∀ right ∈ child.rights, right ∈ parent.rights
  covers : ResourceAuthority.covers parent.resource child.resource = true
  effect : parent.effect = .allow
  unlimited : parent.usesRemaining = none
  constraints : ∀ entry ∈ parent.constraints, child.constraints.has entry.1 = true ∧
    if entry.1 = "git_allowed_refs" then subsetOf (child.constraints.get entry.1) entry.2 = true
    else (child.constraints.get entry.1).eq entry.2 = true
  expiry : ∀ limit, parent.expiresAt = some limit →
    ∃ bound, child.expiresAt = some bound ∧ bound ≤ limit
  delegable : child.delegable = true → parent.delegable = true
  depth : child.delegationDepth = parent.delegationDepth + 1

namespace AuthorityStore

def ParentOf (store : AuthorityStore) (child parent : String) : Prop :=
  ∃ cap, store.getCapability child = some cap ∧ cap.parentCapId = some parent

def AncestorOf (store : AuthorityStore) : String → String → Prop :=
  Relation.TransGen store.ParentOf

/-- Every stored capability is attenuated against its parent and within the maximum depth of all
its ancestors. -/
def Chained (config : CapabilityConfig) (store : AuthorityStore) : Prop :=
  ∀ capId cap parentId parent, store.getCapability capId = some cap →
    cap.parentCapId = some parentId → store.getCapability parentId = some parent →
    Attenuated cap parent ∧ ∀ ancestorId ancestor, store.AncestorOf capId ancestorId →
      store.getCapability ancestorId = some ancestor →
      cap.delegationDepth ≤ effectiveMaxDepth config ancestor

/-- What carries the chain through a run: parents exist, and the maximum depth of delegable
capabilities never grows. -/
structure Invariant (config : CapabilityConfig) (store : AuthorityStore) : Prop where
  closed : ∀ capId cap parentId, store.getCapability capId = some cap →
    cap.parentCapId = some parentId → ∃ parent, store.getCapability parentId = some parent
  chained : store.Chained config
  narrowing : ∀ capId cap parentId parent, store.getCapability capId = some cap →
    cap.parentCapId = some parentId → store.getCapability parentId = some parent →
    cap.delegable = true → effectiveMaxDepth config cap ≤ effectiveMaxDepth config parent

variable {config : CapabilityConfig} {store store' : AuthorityStore}

theorem Invariant.of_roots
    (roots : ∀ capId cap, store.getCapability capId = some cap → cap.parentCapId = none) :
    store.Invariant config := by
  refine ⟨fun capId cap parentId stored link => ?_, fun capId cap parentId parent stored link => ?_,
    fun capId cap parentId parent stored link => ?_⟩ <;>
  simp [roots capId cap stored] at link

/-! ## Lifecycle steps -/

theorem SameGrants.back (same : SameGrants store store') {capId : String} {cap' : Capability}
    (stored : store'.getCapability capId = some cap') :
    ∃ cap, store.getCapability capId = some cap ∧
      cap' = { cap with usesRemaining := cap'.usesRemaining, status := cap'.status } ∧
      (cap'.usesRemaining = none ↔ cap.usesRemaining = none) := by
  rcases same capId with ⟨-, gone⟩ | ⟨cap, uses, status, before, after, unlimited⟩
  · rw [gone] at stored
    cases stored
  · rw [after] at stored
    cases stored
    exact ⟨cap, before, rfl, unlimited⟩

theorem SameGrants.parentOf (same : SameGrants store store') {child parent : String}
    (link : store'.ParentOf child parent) : store.ParentOf child parent := by
  obtain ⟨cap', stored, above⟩ := link
  obtain ⟨cap, before, shape, -⟩ := same.back stored
  rw [shape] at above
  exact ⟨cap, before, above⟩

theorem Invariant.sameGrants (invariant : store.Invariant config) (same : SameGrants store store') :
    store'.Invariant config := by
  refine ⟨fun capId cap' parentId stored link => ?_,
    fun capId cap' parentId parent' stored link above => ?_,
    fun capId cap' parentId parent' stored link above => ?_⟩
  · obtain ⟨cap, before, shape, -⟩ := same.back stored
    rw [shape] at link
    obtain ⟨parent, found⟩ := invariant.closed capId cap parentId before link
    rcases same parentId with ⟨gone, -⟩ | ⟨_, _, _, -, after, -⟩
    · rw [gone] at found
      cases found
    · exact ⟨_, after⟩
  · obtain ⟨cap, before, shape, -⟩ := same.back stored
    obtain ⟨parent, found, shape', unlimited⟩ := same.back above
    rw [shape] at link
    obtain ⟨attenuated, bounded⟩ := invariant.chained capId cap parentId parent before link found
    rw [shape, shape']
    refine ⟨⟨attenuated.rights, attenuated.covers, attenuated.effect,
      unlimited.mpr attenuated.unlimited, attenuated.constraints, attenuated.expiry,
      attenuated.delegable, attenuated.depth⟩, fun ancestorId ancestor' chain reached => ?_⟩
    obtain ⟨ancestor, found', shape'', -⟩ := same.back reached
    rw [shape'']
    exact bounded ancestorId ancestor (Relation.TransGen.mono (fun _ _ => same.parentOf) _ _ chain)
      found'
  · obtain ⟨cap, before, shape, -⟩ := same.back stored
    obtain ⟨parent, found, shape', -⟩ := same.back above
    rw [shape] at link ⊢
    rw [shape']
    exact invariant.narrowing capId cap parentId parent before link found

/-! ## New capabilities -/

/-- Ancestors of delegable capabilities are delegable with at least the same maximum depth. -/
theorem Invariant.delegable_ancestor (invariant : store.Invariant config) {capId ancestorId : String}
    (chain : store.AncestorOf capId ancestorId) {cap ancestor : Capability}
    (stored : store.getCapability capId = some cap)
    (reached : store.getCapability ancestorId = some ancestor) (delegable : cap.delegable = true) :
    effectiveMaxDepth config cap ≤ effectiveMaxDepth config ancestor := by
  induction chain using Relation.TransGen.head_induction_on generalizing cap with
  | single link =>
      obtain ⟨found, stored', above⟩ := link
      obtain rfl : found = cap := Option.some.inj (stored'.symm.trans stored)
      exact invariant.narrowing _ _ _ _ stored above reached delegable
  | head link chain ih =>
      obtain ⟨found, stored', above⟩ := link
      obtain rfl : found = cap := Option.some.inj (stored'.symm.trans stored)
      obtain ⟨parent, found'⟩ := invariant.closed _ _ _ stored above
      have onward := (invariant.chained _ _ _ _ stored above found').1.delegable delegable
      exact (invariant.narrowing _ _ _ _ stored above found' delegable).trans (ih found' onward)

/-- The depth of a capability has reached the maximum of itself or of an ancestor. -/
def Exhausted (config : CapabilityConfig) (store : AuthorityStore) (cap : Capability) : Prop :=
  ∃ ancestorId ancestor, (ancestorId = cap.capId ∨ store.AncestorOf cap.capId ancestorId) ∧
    store.getCapability ancestorId = some ancestor ∧
    effectiveMaxDepth config ancestor ≤ cap.delegationDepth

theorem Invariant.publish (invariant : store.Invariant config) {draft : CapabilityDraft}
    {capId : String} (done : store.publish draft capId = .ok store') {parent : Capability}
    (found : store.getCapability parent.capId = some parent)
    (link : draft.grant.parentCapId = some parent.capId)
    (attenuated : Attenuated (draft.capability capId) parent)
    (narrower : draft.grant.delegable = true →
      effectiveMaxDepth config (draft.capability capId) ≤ effectiveMaxDepth config parent)
    (spare : ¬ store.Exhausted config parent) : store'.Invariant config := by
  obtain ⟨fresh, -, get⟩ := publish_ok done
  have elsewhere : ∀ id, (∃ cap, store.getCapability id = some cap) → id ≠ capId := by
    rintro id ⟨cap, stored⟩ rfl
    rw [fresh] at stored
    cases stored
  have kept : ∀ id cap, store.getCapability id = some cap → store'.getCapability id = some cap := by
    intro id cap stored
    rw [get, if_neg (elsewhere id ⟨cap, stored⟩), stored]
  have split : ∀ id cap, store'.getCapability id = some cap →
      (id = capId ∧ cap = draft.capability capId) ∨
        (id ≠ capId ∧ store.getCapability id = some cap) := by
    intro id cap stored
    rw [get] at stored
    split_ifs at stored with same
    · cases stored
      exact Or.inl ⟨same, rfl⟩
    · exact Or.inr ⟨same, stored⟩
  have parents : ∀ id cap parentId above, store.getCapability id = some cap →
      cap.parentCapId = some parentId → store'.getCapability parentId = some above →
      store.getCapability parentId = some above := by
    intro id cap parentId above stored above_ found'
    rw [get, if_neg (elsewhere _ (invariant.closed _ _ _ stored above_))] at found'
    exact found'
  have ancestors : ∀ id ancestorId, id ≠ capId → store'.AncestorOf id ancestorId →
      store.AncestorOf id ancestorId ∧ ancestorId ≠ capId := by
    intro id ancestorId old chain
    induction chain with
    | single step =>
        obtain ⟨cap, stored, above⟩ := step
        rcases split _ _ stored with ⟨same, -⟩ | ⟨-, before⟩
        · exact absurd same old
        · exact ⟨.single ⟨cap, before, above⟩, elsewhere _ (invariant.closed _ _ _ before above)⟩
    | tail chain step ih =>
        obtain ⟨cap, stored, above⟩ := step
        rcases split _ _ stored with ⟨same, -⟩ | ⟨-, before⟩
        · exact absurd same ih.2
        · exact ⟨ih.1.tail ⟨cap, before, above⟩,
            elsewhere _ (invariant.closed _ _ _ before above)⟩
  have own : ∀ parentId above, (draft.capability capId).parentCapId = some parentId →
      store'.getCapability parentId = some above → parentId = parent.capId ∧ above = parent := by
    intro parentId above named found'
    obtain rfl := Option.some.inj (link.symm.trans named)
    exact ⟨rfl, Option.some.inj (found'.symm.trans (kept _ _ found))⟩
  refine ⟨fun id cap parentId stored named => ?_,
    fun id cap parentId above stored named found' => ?_,
    fun id cap parentId above stored named found' => ?_⟩
  · rcases split id cap stored with ⟨rfl, rfl⟩ | ⟨-, before⟩
    · obtain rfl := Option.some.inj (link.symm.trans named)
      exact ⟨parent, kept _ _ found⟩
    · obtain ⟨above, found'⟩ := invariant.closed id cap parentId before named
      exact ⟨above, kept _ _ found'⟩
  · rcases split id cap stored with ⟨rfl, rfl⟩ | ⟨old, before⟩
    · obtain ⟨rfl, rfl⟩ := own parentId above named found'
      refine ⟨attenuated, fun ancestorId ancestor chain reached => ?_⟩
      -- an ancestor of the new capability is its parent or an ancestor of that
      have upward : (ancestorId = above.capId ∨ store.AncestorOf above.capId ancestorId) ∧
          ancestorId ≠ id := by
        rcases Relation.TransGen.head'_iff.mp chain with ⟨next, ⟨cap, stored', named'⟩, onward⟩
        obtain rfl := Option.some.inj (stored'.symm.trans stored)
        obtain rfl := Option.some.inj (named'.symm.trans named)
        have older := elsewhere _ ⟨above, found⟩
        rcases Relation.reflTransGen_iff_eq_or_transGen.mp onward with rfl | onward
        · exact ⟨Or.inl rfl, older⟩
        · obtain ⟨onward, different⟩ := ancestors _ _ older onward
          exact ⟨Or.inr onward, different⟩
      rw [get, if_neg upward.2] at reached
      have room : above.delegationDepth < effectiveMaxDepth config ancestor := by
        by_contra full
        exact spare ⟨ancestorId, ancestor, upward.1, reached, not_lt.mp full⟩
      have deeper := attenuated.depth
      omega
    · obtain ⟨attenuated', bounded⟩ :=
        invariant.chained id cap parentId above before named (parents _ _ _ _ before named found')
      refine ⟨attenuated', fun ancestorId ancestor chain reached => ?_⟩
      obtain ⟨chain', different⟩ := ancestors _ _ old chain
      rw [get, if_neg different] at reached
      exact bounded ancestorId ancestor chain' reached
  · rcases split id cap stored with ⟨rfl, rfl⟩ | ⟨-, before⟩
    · obtain ⟨rfl, rfl⟩ := own parentId above named found'
      exact narrower
    · exact invariant.narrowing id cap parentId above before named
        (parents _ _ _ _ before named found')

end AuthorityStore

/-! ## Derivations -/

/-- Canonicalising the requested resource once settles it. -/
def StableResource (spec : CapabilitySpec) : Prop :=
  ResourceAuthority.canonical (ResourceAuthority.canonical spec.resource) =
    ResourceAuthority.canonical spec.resource

theorem coversText_canonicalText {granted requested : List Char}
    (stable : ResourceAuthority.canonicalText (ResourceAuthority.canonicalText requested) =
      ResourceAuthority.canonicalText requested) :
    ResourceAuthority.coversText granted (ResourceAuthority.canonicalText requested) =
      ResourceAuthority.coversText granted requested := by
  unfold ResourceAuthority.coversText ResourceAuthority.parseText
  simp only [stable]
  split_ifs <;> simp_all

theorem covers_canonical {granted : String} {spec : CapabilitySpec} (stable : StableResource spec)
    (covered : ResourceAuthority.covers granted spec.resource = true) :
    ResourceAuthority.covers granted (ResourceAuthority.canonical spec.resource) = true := by
  unfold StableResource ResourceAuthority.canonical at stable
  rw [String.toList_ofList, String.ofList_inj] at stable
  rw [ResourceAuthority.covers, ResourceAuthority.canonical, String.toList_ofList,
    coversText_canonicalText stable]
  exact covered

section Derive
variable {engine : Engine} {config : CapabilityConfig} {store store' : AuthorityStore} {now : Int}
  {spec : CapabilitySpec} {parentCap : Capability} {draft : CapabilityDraft}

theorem parentConstraintError_none {delegated : Dict} {key : String} {value : Value}
    (fine : parentConstraintError delegated key value = none) :
    delegated.has key = true ∧ if key = "git_allowed_refs" then
      subsetOf (delegated.get key) value = true else (delegated.get key).eq value = true := by
  unfold parentConstraintError at fine
  split_ifs at fine with held refs narrowed same
  · exact ⟨held, by rwa [if_pos refs]⟩
  · exact ⟨held, by rwa [if_neg refs]⟩

/-- A draft made from a spec that the parent admits is attenuated against the parent. -/
theorem draft_attenuated {subject issuedAt capId : String} {maxDepth : Option Nat}
    (derivable : DerivableFrom config parentCap spec) (stable : StableResource spec)
    (drafted : capabilityDraft engine config subject issuedAt spec (some parentCap.capId)
      (parentCap.delegationDepth + 1) maxDepth (spec.expiresAt.or parentCap.expiresAt) =
        .ok draft) :
    Attenuated (draft.capability capId) parentCap := by
  have made := capabilityDraft_ok drafted
  refine ⟨fun right member => ?_, ?_, derivable.effect, derivable.unlimited,
    fun entry member => ?_, fun limit bounded => ?_, fun asked => ?_, made.delegationDepth⟩
  · exact derivable.rights right ((made.rights right).mp member)
  · rw [CapabilityDraft.capability, made.resource]
    exact covers_canonical stable derivable.covers
  · rw [CapabilityDraft.capability, made.constraints]
    exact parentConstraintError_none (derivable.constraints entry member)
  · rw [CapabilityDraft.capability, made.expiry]
    cases requested : spec.expiresAt with
    | none => exact ⟨limit, bounded, le_rfl⟩
    | some bound => exact ⟨bound, rfl, derivable.expiry limit bound bounded requested⟩
  · exact derivable.delegable (made.delegable ▸ asked)

/-- A maximum depth taken from the spec or the parent is at most the parent's. -/
theorem draft_narrower {capId : String}
    (derivable : DerivableFrom config parentCap spec)
    (inherited : draft.grant.maxDelegationDepth =
      some (delegatedMaxDelegationDepth config parentCap spec)) :
    effectiveMaxDepth config (draft.capability capId) ≤ effectiveMaxDepth config parentCap := by
  rw [effectiveMaxDepth, CapabilityDraft.capability, inherited, Option.getD_some,
    delegatedMaxDelegationDepth]
  cases asked : spec.maxDelegationDepth with
  | none => exact le_rfl
  | some depth => exact derivable.depth depth asked

theorem not_exhausted_of_delegable (invariant : store.Invariant config)
    (found : store.getCapability parentCap.capId = some parentCap)
    (delegable : parentCap.delegable = true)
    (shallow : parentCap.delegationDepth < effectiveMaxDepth config parentCap) :
    ¬ store.Exhausted config parentCap := by
  rintro ⟨ancestorId, ancestor, rfl | chain, reached, full⟩
  · obtain rfl := Option.some.inj (reached.symm.trans found)
    exact absurd full (not_le.mpr shallow)
  · have := invariant.delegable_ancestor chain found reached delegable
    omega

theorem delegateSelected_invariant {parent child capId issuedAt : String}
    (invariant : store.Invariant config) (stable : StableResource spec)
    (done : delegateSelected engine config store now parent child spec capId issuedAt =
      .ok store') : store'.Invariant config := by
  obtain ⟨parentCap, found, done⟩ := bind_eq_ok.mp done
  obtain ⟨draft, drafted, published⟩ := bind_eq_ok.mp done
  obtain ⟨held, -, delegable, shallow, -, derivable⟩ := findDelegationParent_ok found
  have stored := (mem_capabilitiesFor held).1
  have made := capabilityDraft_ok drafted
  exact invariant.publish published stored made.parent
    (draft_attenuated derivable stable drafted)
    (fun _ => draft_narrower derivable made.maxDelegationDepth)
    (not_exhausted_of_delegable invariant stored delegable shallow)

theorem delegateAll_invariant {source target : String}
    {requested : List (CapabilitySpec × String × String)} (invariant : store.Invariant config)
    (stable : ∀ entry ∈ requested, StableResource entry.1)
    (done : delegateAll engine config now source target store requested = .ok store') :
    store'.Invariant config := by
  induction requested generalizing store with
  | nil =>
      cases done
      exact invariant
  | cons entry rest ih =>
      obtain ⟨spec, capId, issuedAt⟩ := entry
      obtain ⟨next, here, later⟩ := bind_eq_ok.mp done
      exact ih (delegateSelected_invariant invariant (stable _ List.mem_cons_self) here)
        (fun entry member => stable entry (List.mem_cons_of_mem _ member)) later

theorem issueByGrant_invariant {actor subject capId issuedAt : String}
    {authority : Option (String × String)} (invariant : store.Invariant config)
    (stable : StableResource spec)
    (spare : spec.delegable = false → ∀ reserved parentCap,
      store.reserveDecision authority = .ok reserved →
      findTransferParent engine config reserved now actor spec = .ok parentCap →
      ¬ reserved.Exhausted config parentCap)
    (done : issueByGrant engine config store now actor subject spec capId issuedAt authority =
      .ok store') : store'.Invariant config := by
  obtain ⟨reserved, reserving, done⟩ := bind_eq_ok.mp done
  obtain ⟨parentCap, found, done⟩ := bind_eq_ok.mp done
  obtain ⟨_, -, done⟩ := bind_eq_ok.mp done
  obtain ⟨draft, drafted, done⟩ := bind_eq_ok.mp done
  obtain ⟨issued, published, committed⟩ := bind_eq_ok.mp done
  have before := invariant.sameGrants (AuthorityStore.reserveDecision_sameGrants reserving)
  obtain ⟨held, shallow, derivable⟩ := findTransferParent_ok found
  have stored := (mem_capabilitiesFor held).1
  have made := capabilityDraft_ok drafted
  refine (before.publish published stored made.parent
    (draft_attenuated derivable stable drafted) (fun asked => ?_) ?_).sameGrants
    (AuthorityStore.commitDecision_sameGrants committed)
  · rw [made.delegable] at asked
    exact draft_narrower derivable (by rw [made.maxDelegationDepth, if_pos asked])
  · cases delegable : spec.delegable with
    | false => exact spare delegable reserved parentCap reserving found
    | true =>
        exact not_exhausted_of_delegable before stored (derivable.delegable delegable)
          (Nat.lt_of_succ_lt (shallow delegable))

end Derive

/-! ## Runs -/

namespace AuthorityOp

/-- The requested resources are settled by one canonicalisation, and a GRANT transfer of a
non-delegable spec does not go on from a parent whose depth is exhausted. -/
def Within (engine : Engine) (config : CapabilityConfig) (store : AuthorityStore) :
    AuthorityOp → Prop
  | .delegate _ _ _ spec _ _ => StableResource spec
  | .deriveAuthority _ _ _ _ requested _ => ∀ entry ∈ requested, StableResource entry.1
  | .issueByGrant now actor _ spec _ _ authority =>
      StableResource spec ∧ (spec.delegable = false → ∀ reserved parentCap,
        store.reserveDecision authority = .ok reserved →
        findTransferParent engine config reserved now actor spec = .ok parentCap →
        ¬ reserved.Exhausted config parentCap)
  | .lease _ => True

theorem exec_invariant {engine : Engine} {config : CapabilityConfig} {store store' : AuthorityStore}
    {op : AuthorityOp} (invariant : store.Invariant config) (within : op.Within engine config store)
    (done : op.exec engine config store = .ok store') : store'.Invariant config := by
  cases op with
  | delegate => exact delegateSelected_invariant invariant within done
  | deriveAuthority =>
      obtain ⟨_, -, done⟩ := bind_eq_ok.mp done
      exact delegateAll_invariant invariant within done
  | issueByGrant => exact issueByGrant_invariant invariant within.1 within.2 done
  | lease => exact invariant.sameGrants (AuthorityStore.lease_sameGrants done)

end AuthorityOp

/-- Delegation chains stay attenuated in every run. -/
theorem attenuation_invariant (engine : Engine) (config : CapabilityConfig)
    (store : AuthorityStore)
    (roots : ∀ capId cap, store.getCapability capId = some cap → cap.parentCapId = none)
    (ops : List AuthorityOp)
    (within : Meets (transact (AuthorityOp.exec engine config))
      (fun store op => op.Within engine config store) store ops) :
    (run (transact (AuthorityOp.exec engine config)) store ops).Chained config := by
  refine (invariant_run (I := AuthorityStore.Invariant config) ?_ (.of_roots roots) within).chained
  intro store op invariant within
  rcases transact_cases (AuthorityOp.exec engine config) store op with done | same
  · exact AuthorityOp.exec_invariant invariant within done
  · exact same.symm ▸ invariant

/-! ## A transfer from an exhausted parent -/

/-- A root that its holder may read and grant. -/
def rootStore (maxDelegationDepth : Option Nat) : AuthorityStore where
  rows :=
    { capabilities := fun id => if id = "cap_1" then some
        { subject := "pid_1", resource := "object:report", revocable := true
          usesRemaining := none, status := .active, rollbackToken := none
          positive := fun _ => by simp } else none
      reservations := fun _ => none }
  grants := fun id => if id = "cap_1" then some
    { rights := ["read", "grant"], constraints := [], issuedAt := "2026-01-01T00:00:00+00:00"
      expiresAt := none, delegable := true, effect := .allow, parentCapId := none
      delegationDepth := 0, maxDelegationDepth := maxDelegationDepth } else none
  capIds := ["cap_1"]
  known := by
    intro id granted
    by_cases same : id = "cap_1" <;> simp_all
  listed := by
    intro id
    by_cases same : id = "cap_1" <;> simp [same]

theorem rootStore_roots (maxDelegationDepth : Option Nat) :
    ∀ capId cap, (rootStore maxDelegationDepth).getCapability capId = some cap →
      cap.parentCapId = none := by
  intro capId cap stored
  by_cases same : capId = "cap_1"
  · simp only [AuthorityStore.getCapability, rootStore, same, if_true] at stored
    cases stored
    rfl
  · simp only [AuthorityStore.getCapability, rootStore, same, if_false] at stored
    cases stored

def readSpec (usesRemaining : Option Nat) (constraints : Dict) : CapabilitySpec where
  resource := "object:report"
  rights := ["read"]
  effect := .allow
  constraints := constraints
  expiresAt := none
  usesRemaining := usesRemaining
  delegable := false
  revocable := true
  maxDelegationDepth := none

def transferRead : AuthorityOp :=
  .issueByGrant 0 "pid_1" "pid_2" (readSpec none []) "cap_2" "2026-01-02T00:00:00+00:00" none

/-- A non-delegable transfer goes one step below a parent whose maximum depth is zero. -/
theorem transfer_exceeds_depth :
    (∀ capId cap, (rootStore (some 0)).getCapability capId = some cap → cap.parentCapId = none) ∧
      ¬ (run (transact (AuthorityOp.exec (plainEngine "") {})) (rootStore (some 0))
        [transferRead]).Chained {} := by
  refine ⟨rootStore_roots _, fun chained => ?_⟩
  let final := run (transact (AuthorityOp.exec (plainEngine "") {})) (rootStore (some 0)) [transferRead]
  have child : (final.getCapability "cap_2").map (fun cap => (cap.delegationDepth, cap.parentCapId)) =
      some (1, some "cap_1") := by decide +kernel
  have parent : (final.getCapability "cap_1").map (effectiveMaxDepth {}) = some 0 := by
    decide +kernel
  obtain ⟨cap, stored, shape⟩ := Option.map_eq_some_iff.mp child
  obtain ⟨above, found, bound⟩ := Option.map_eq_some_iff.mp parent
  obtain ⟨depth, link⟩ := Prod.mk.inj shape
  have := (chained "cap_2" cap "cap_1" above stored link found).2 "cap_1" above
    (.single ⟨cap, stored, link⟩) found
  omega

theorem rootStore_spare {cap : Capability}
    (stored : (rootStore none).getCapability cap.capId = some cap) :
    ¬ (rootStore none).Exhausted {} cap := by
  rintro ⟨ancestorId, ancestor, rfl | chain, reached, full⟩
  · obtain rfl := Option.some.inj (reached.symm.trans stored)
    by_cases same : ancestor.capId = "cap_1"
    · simp only [AuthorityStore.getCapability, rootStore, same, if_true] at stored
      cases stored
      exact absurd full (by decide)
    · simp only [AuthorityStore.getCapability, rootStore, same, if_false] at stored
      cases stored
  · obtain ⟨_, ⟨found, stored', link⟩, -⟩ := Relation.TransGen.head'_iff.mp chain
    simp [rootStore_roots none _ _ stored'] at link

theorem attenuation_invariant_transfer :
    (run (transact (AuthorityOp.exec (plainEngine "") {})) (rootStore none)
      [transferRead, .lease (.revoke "cap_1" none)]).Chained {} := by
  refine attenuation_invariant (plainEngine "") {} _ (rootStore_roots none) _
    ⟨⟨by unfold StableResource; decide, fun _ reserved parentCap reserving found => ?_⟩,
      trivial, trivial⟩
  cases reserving
  exact rootStore_spare (mem_capabilitiesFor (findTransferParent_ok found).1).1

end AgentLibOS.Capability
