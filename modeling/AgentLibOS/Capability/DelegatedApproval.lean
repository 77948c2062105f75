import AgentLibOS.Capability.Attenuation
import AgentLibOS.Capability.Decision

namespace AgentLibOS.Capability
open Library.JoinFold Library.Run CapabilityManager CapabilityEvaluator

/-! ## Parent chains after a publication -/

namespace AuthorityStore
variable {store store' : AuthorityStore} {now : Int}

theorem getCapability_listed {capId : String} {cap : Capability}
    (stored : store.getCapability capId = some cap) : capId ∈ store.capIds := by
  obtain ⟨row, -, stored⟩ := Option.bind_eq_some_iff.mp stored
  obtain ⟨grant, granted, -⟩ := Option.bind_eq_some_iff.mp stored
  exact (store.listed capId).mpr (Option.isSome_of_eq_some granted)

/-- Further fuel changes nothing once it exceeds the rows not seen yet. -/
theorem chainActive_enough {fuel : Nat} {seen : List String} {parentId : Option String}
    (enough : (store.capIds.filter (· ∉ seen)).length ≤ fuel) :
    store.chainActive now (fuel + 1) seen parentId = store.chainActive now fuel seen parentId := by
  have fewer : ∀ {id : String} {seen : List String}, id ∈ store.capIds → id ∉ seen →
      (store.capIds.filter (· ∉ id :: seen)).length < (store.capIds.filter (· ∉ seen)).length := by
    intro id seen listed unseen
    have split : store.capIds.filter (· ∉ id :: seen) =
        (store.capIds.filter (· ∉ seen)).filter (· ≠ id) := by
      rw [List.filter_filter]
      exact List.filter_congr fun other _ => by simp
    rw [split]
    refine List.length_filter_lt_length_iff_exists.mpr ⟨id, ?_, by simp⟩
    exact List.mem_filter.mpr ⟨listed, by simpa using unseen⟩
  induction fuel generalizing seen parentId with
  | zero =>
      cases parentId with
      | none => rfl
      | some id =>
          simp only [chainActive]
          split_ifs with seen_
          · rfl
          · cases stored : store.getCapability id with
            | none => rfl
            | some parent =>
                have := fewer (getCapability_listed stored) seen_
                omega
  | succ fuel ih =>
      cases parentId with
      | none => rfl
      | some id =>
          rw [chainActive, chainActive]
          split_ifs with seen_
          · rfl
          · cases stored : store.getCapability id with
            | none => rfl
            | some parent =>
                have less := fewer (getCapability_listed stored) seen_
                simp only
                rw [ih (by omega)]

/-- Chains that never name `capId` are not touched by its publication, nor by having seen it. -/
theorem chainActive_congr {capId : String}
    (get : ∀ id, id ≠ capId → store'.getCapability id = store.getCapability id)
    (fresh : ∀ id cap, store.getCapability id = some cap → cap.parentCapId ≠ some capId)
    {fuel : Nat} {seen seen' : List String} (same : ∀ id, id ≠ capId → (id ∈ seen' ↔ id ∈ seen))
    {parentId : Option String} (other : parentId ≠ some capId) :
    store'.chainActive now fuel seen' parentId = store.chainActive now fuel seen parentId := by
  induction fuel generalizing seen seen' parentId with
  | zero => cases parentId <;> rfl
  | succ fuel ih =>
      cases parentId with
      | none => rfl
      | some id =>
          have different : id ≠ capId := fun named => other (congrArg some named)
          rw [chainActive, chainActive, get id different]
          simp only [same id different]
          split_ifs with seen_
          · rfl
          · cases stored : store.getCapability id with
            | none => rfl
            | some parent =>
                simp only
                rw [@ih (id :: seen) (id :: seen') (fun next apart => by simp [same next apart]) _
                  (fresh id parent stored)]

theorem live_publish {draft : CapabilityDraft} {capId : String}
    (done : store.publish draft capId = .ok store')
    (fresh : ∀ id cap, store.getCapability id = some cap → cap.parentCapId ≠ some capId)
    {cap : Capability} (stored : store.getCapability cap.capId = some cap) :
    store'.live now cap = store.live now cap := by
  obtain ⟨absent, listed, get⟩ := publish_ok done
  have chain : store'.parentChainActive now cap = store.parentChainActive now cap := by
    rw [parentChainActive, parentChainActive, listed, List.length_append]
    rw [chainActive_congr (fun id apart => by rw [get, if_neg apart]) fresh (fun _ _ => Iff.rfl)
      (fresh _ _ stored)]
    exact chainActive_enough ((List.length_filter_le _ _).trans (Nat.le_succ _))
  rw [live, live, chain]

/-- A capability under a live parent is live unless it has expired itself. -/
theorem live_child {draft : CapabilityDraft} {capId : String}
    (done : store.publish draft capId = .ok store')
    (fresh : ∀ id cap, store.getCapability id = some cap → cap.parentCapId ≠ some capId)
    {parent : Capability} (stored : store.getCapability parent.capId = some parent)
    (live : store.live now parent = true) (link : draft.grant.parentCapId = some parent.capId)
    (unexpired : (draft.capability capId).isExpired now = false) :
    store'.live now (draft.capability capId) = true := by
  obtain ⟨absent, listed, get⟩ := publish_ok done
  have apart : parent.capId ≠ capId := by
    intro same
    rw [same, absent] at stored
    cases stored
  simp only [AuthorityStore.live, Bool.and_eq_true, Bool.not_eq_true'] at live ⊢
  obtain ⟨⟨active, fine⟩, chain⟩ := live
  refine ⟨⟨rfl, unexpired⟩, ?_⟩
  rw [parentChainActive, listed, List.length_append]
  have named : (draft.capability capId).parentCapId = some parent.capId := link
  have above : store'.getCapability parent.capId = some parent := by rw [get, if_neg apart, stored]
  rw [named, chainActive, above, if_neg (by simpa [CapabilityDraft.capability] using apart)]
  simp only [active, fine, Bool.not_true, Bool.or_self, Bool.false_eq_true, if_false]
  rw [← chain, parentChainActive, List.length_singleton]
  exact chainActive_congr (fun id other => by rw [get, if_neg other]) fresh
    (fun id other => by simp [CapabilityDraft.capability, other]) (fresh _ _ stored)

/-! ## Matching capabilities after a publication -/

def selects (store : AuthorityStore) (now : Int) (resource right : String) (cap : Capability) :
    Bool :=
  store.live now cap && ResourceAuthority.matches cap.resource resource && cap.rights.contains right

theorem sortMatchingCapabilities_perm (caps : List Capability) :
    (sortMatchingCapabilities caps).Perm caps :=
  ((((List.perm_insertionSort _ _).trans (List.perm_insertionSort _ _)).trans
    (List.perm_insertionSort _ _)).trans (List.perm_insertionSort _ _))

theorem matchingCapabilities_ok {subject resource right : String} {caps : List Capability}
    (matched : store.matchingCapabilities now subject resource right = .ok caps) :
    caps.Perm ((store.capabilitiesFor subject).filter (store.selects now resource right)) ∧
      ∀ other : AuthorityStore, ∃ caps',
        other.matchingCapabilities now subject resource right = .ok caps' ∧
        caps'.Perm ((other.capabilitiesFor subject).filter (other.selects now resource right)) := by
  unfold matchingCapabilities at matched
  split at matched
  · cases matched
  · rename_i parsed
    cases matched
    refine ⟨sortMatchingCapabilities_perm _, fun other => ⟨_, ?_, sortMatchingCapabilities_perm _⟩⟩
    rw [matchingCapabilities, parsed]
    rfl

theorem capabilitiesFor_publish {draft : CapabilityDraft} {capId : String}
    (done : store.publish draft capId = .ok store') :
    store'.capabilitiesFor draft.subject =
      store.capabilitiesFor draft.subject ++ [draft.capability capId] := by
  obtain ⟨absent, listed, get⟩ := publish_ok done
  have kept : store.capIds.filterMap store'.getCapability =
      store.capIds.filterMap store.getCapability := by
    refine List.filterMap_congr fun id member => ?_
    rw [get, if_neg]
    rintro rfl
    obtain ⟨grant, granted⟩ := Option.isSome_iff_exists.mp ((store.listed id).mp member)
    obtain ⟨row, stored⟩ := Option.isSome_iff_exists.mp
      (store.known id (Option.isSome_of_eq_some granted))
    simp [getCapability, granted, stored] at absent
  rw [capabilitiesFor, capabilitiesFor, listed, List.filterMap_append, List.filter_append, kept]
  simp [get, CapabilityDraft.capability]

/-- The new capability joins the matching ones if it is selected itself; the others stay. -/
theorem filter_publish {draft : CapabilityDraft} {capId resource right : String}
    (done : store.publish draft capId = .ok store')
    (fresh : ∀ id cap, store.getCapability id = some cap → cap.parentCapId ≠ some capId) :
    (store'.capabilitiesFor draft.subject).filter (store'.selects now resource right) =
      (store.capabilitiesFor draft.subject).filter (store.selects now resource right) ++
        if store'.selects now resource right (draft.capability capId) = true then
          [draft.capability capId] else [] := by
  have kept : (store.capabilitiesFor draft.subject).filter (store'.selects now resource right) =
      (store.capabilitiesFor draft.subject).filter (store.selects now resource right) := by
    refine List.filter_congr fun cap member => ?_
    rw [selects, selects, live_publish done fresh (mem_capabilitiesFor member).1]
  rw [capabilitiesFor_publish done, List.filter_append, kept]
  congr 1
  split_ifs with chosen <;> simp [chosen]

end AuthorityStore

/-! ## The boundary of a child -/

/-- The delegating process writes a one-shot approval of its own into the spec: a single-use allow
that is about the request and whose constraints, an approval binding among them, all hold. -/
structure ApprovesItself (engine : Engine) (limits : RegexLimits) (spec : CapabilitySpec)
    (request : Request) (context : Dict) : Prop where
  effect : spec.effect = .allow
  once : spec.usesRemaining = some 1
  selects : ResourceAuthority.matches (ResourceAuthority.canonical spec.resource) request.resource =
    true
  right : request.right ∈ spec.rights
  binding : ∃ results, evaluateConstraintDict engine limits spec.constraints context = .ok results ∧
    constraintsOk results = true ∧ constraintEffect results ≠ some .deny ∧
    constraintEffect results ≠ some .ask ∧
    (results.lookup approvalBindingKey).any (·.ok) = true

section Boundary
variable {engine : Engine} {config : CapabilityConfig}

theorem standing_approvedOnce {cap : Capability} {results : ConstraintResults} :
    standing cap results = .approvedOnce ↔
      cap.effect = .allow ∧ cap.usesRemaining = some 1 ∧ constraintsOk results = true ∧
        constraintEffect results ≠ some .deny ∧ constraintEffect results ≠ some .ask ∧
        (results.lookup approvalBindingKey).any (·.ok) = true := by
  unfold standing
  cases effect : cap.effect <;> split_ifs <;> simp_all

/-- Over a question only a one-shot approval prevails, over a denial nothing. -/
theorem permits_over_restriction {one others : Standing}
    (restricted : others = .denied ∨ others = .asked) :
    (one ⊔ others).permits = true ↔ others = .asked ∧ one = .approvedOnce := by
  rcases restricted with rfl | rfl <;> cases one <;> decide

theorem verdict_restricted {one : Standing}
    (restricted : one.verdict.1 = some .deny ∨ one.verdict.1 = some .ask) :
    (one.verdict.1 = some .deny ∧ one = .denied) ∨ (one.verdict.1 = some .ask ∧ one = .asked) := by
  cases one <;> simp_all [Standing.verdict]

theorem allowed_perm {limits : RegexLimits} {request : Request} {context : Dict}
    {chains : String → List String} {caps caps' : List Capability} (perm : caps.Perm caps') :
    Allowed engine limits request context chains caps ↔
      Allowed engine limits request context chains caps' := by
  rw [allowed_iff, allowed_iff, outcome_perm perm]

/-- A delegation publishes a draft of its spec under a live parent. -/
theorem delegateSelected_ok {store store' : AuthorityStore} {now : Int}
    {parent child capId issuedAt : String} {spec : CapabilitySpec}
    (fresh : ∀ id cap, store.getCapability id = some cap → cap.parentCapId ≠ some capId)
    (delegated : delegateSelected engine config store now parent child spec capId issuedAt =
      .ok store') :
    ∃ draft : CapabilityDraft, store.publish draft capId = .ok store' ∧
      store'.live now (draft.capability capId) = true ∧ draft.subject = child ∧
      draft.resource = ResourceAuthority.canonical spec.resource ∧
      draft.usesRemaining = spec.usesRemaining ∧ draft.grant.effect = spec.effect ∧
      draft.grant.constraints = spec.constraints ∧
      ∀ right, right ∈ draft.grant.rights ↔ right ∈ spec.rights := by
  obtain ⟨parentCap, found, delegated⟩ := bind_eq_ok.mp delegated
  obtain ⟨draft, drafted, published⟩ := bind_eq_ok.mp delegated
  obtain ⟨held, live, -, -, future, -⟩ := findDelegationParent_ok found
  have made := capabilityDraft_ok drafted
  have unexpired : (draft.capability capId).isExpired now = false := by
    simp only [AuthorityStore.live, Bool.and_eq_true, Bool.not_eq_true'] at live
    rw [Capability.isExpired, CapabilityDraft.capability, made.expiry]
    cases asked : spec.expiresAt with
    | none => exact live.1.2
    | some bound =>
        rw [asked] at future
        exact future
  exact ⟨draft, published, AuthorityStore.live_child published fresh (mem_capabilitiesFor held).1
    live made.parent unexpired, made.owner, made.resource, made.usesRemaining, made.effect,
    made.constraints, made.rights⟩

/-- After a delegation to `child`, a request that was denied or asked about stays refused unless it
was asked about and the spec approves it itself. -/
theorem delegation_keeps_boundary_iff {store store' : AuthorityStore} {now : Int}
    {parent child capId issuedAt : String} {spec : CapabilitySpec}
    (fresh : ∀ id cap, store.getCapability id = some cap → cap.parentCapId ≠ some capId)
    (delegated : delegateSelected engine config store now parent child spec capId issuedAt =
      .ok store') {resource right : String} {context : Dict} {chains : String → List String}
    {caps : List Capability} {decision : CapabilityDecision}
    (matched : store.matchingCapabilities now child resource right = .ok caps)
    (decided : CapabilityEvaluator.decide engine config.regex ⟨child, resource, right⟩ caps context
      chains = .ok decision)
    (restricted : decision.effect = some .deny ∨ decision.effect = some .ask) :
    ∃ caps', store'.matchingCapabilities now child resource right = .ok caps' ∧
      (¬ Allowed engine config.regex ⟨child, resource, right⟩ context chains caps' ↔
        ¬ (decision.effect = some .ask ∧
          ApprovesItself engine config.regex spec ⟨child, resource, right⟩ context)) := by
  obtain ⟨draft, published, live, rfl, target, uses, effect, constraints, rights⟩ :=
    delegateSelected_ok fresh delegated
  obtain ⟨before, others⟩ := AuthorityStore.matchingCapabilities_ok matched
  obtain ⟨caps', matched', after⟩ := others store'
  refine ⟨caps', matched', not_congr ?_⟩
  obtain ⟨standings, all, verdict⟩ := decide_eq_ok decided
  have shown : decision.effect = (overall standings).verdict.1 := congrArg Prod.fst verdict
  rw [shown] at restricted ⊢
  have restricted' := verdict_restricted restricted
  have asked : overall standings = .asked ↔ (overall standings).verdict.1 = some .ask := by
    rcases restricted' with ⟨-, same⟩ | ⟨-, same⟩ <;> simp [same, Standing.verdict]
  rw [AuthorityStore.filter_publish published fresh] at after
  by_cases chosen : store'.selects now resource right (draft.capability capId) = true
  · rw [if_pos chosen] at after
    have perm : caps'.Perm ([] ++ draft.capability capId :: caps) :=
      (after.trans (before.symm.append_right _)).trans (List.perm_append_singleton _ _)
    rw [allowed_perm perm, allowed_insert, ← asked]
    simp only [AuthorityStore.selects, live, Bool.true_and, Bool.and_eq_true,
      List.contains_eq_mem, decide_eq_true_eq] at chosen
    have overrides := fun one : Standing => @permits_over_restriction one
      (overall standings) (restricted'.imp And.right And.right)
    constructor
    · rintro ⟨results, standings', evaluated, all', permitted⟩
      obtain rfl := Except.ok.inj (all'.symm.trans all)
      obtain ⟨questioned, approved⟩ := (overrides _).mp permitted
      obtain ⟨allow, once, fine, notDenied, notAsked, bound⟩ := standing_approvedOnce.mp approved
      exact ⟨questioned, effect ▸ allow, uses ▸ once, target ▸ chosen.1,
        (rights right).mp chosen.2, results, constraints ▸ evaluated, fine, notDenied, notAsked,
        bound⟩
    · rintro ⟨questioned, approves⟩
      obtain ⟨results, evaluated, fine, notDenied, notAsked, bound⟩ := approves.binding
      refine ⟨results, standings, ?_, all, (overrides _).mpr ⟨questioned,
        standing_approvedOnce.mpr ⟨effect.trans approves.effect, uses.trans approves.once, fine,
          notDenied, notAsked, bound⟩⟩⟩
      rw [evaluateConstraints, CapabilityDraft.capability, constraints]
      exact evaluated
  · rw [if_neg chosen, List.append_nil] at after
    rw [allowed_perm (after.trans before.symm), allowed_overall]
    constructor
    · rintro ⟨standings', all', permitted⟩
      obtain rfl := Except.ok.inj (all'.symm.trans all)
      rcases restricted' with ⟨-, same⟩ | ⟨-, same⟩ <;> simp [same, Standing.permits,
        Standing.verdict] at permitted
    · rintro ⟨-, approves⟩
      refine absurd ?_ chosen
      simp only [AuthorityStore.selects, live, Bool.true_and, Bool.and_eq_true,
        List.contains_eq_mem, decide_eq_true_eq]
      refine ⟨?_, (rights right).mpr approves.right⟩
      rw [CapabilityDraft.capability, target]
      exact approves.selects

end Boundary
/-! ## A child that is asked about reading a report -/

def askDraft : CapabilityDraft where
  subject := "pid_2"
  resource := "object:report"
  revocable := true
  usesRemaining := none
  grant := ⟨["read"], [], "2026-01-01T00:00:00+00:00", none, false, .ask, none, 0, none⟩
  positive := by simp

def askingStore : AuthorityStore :=
  match (rootStore none).publish askDraft "cap_2" with
  | .ok store => store
  | .error _ => rootStore none

/-- The digest of `{"operation": "object.read"}`. -/
def readDigest : String := "62d8319cefa5da1c112af1cc30c6cff7d8afaf32dabb8bc1a60ffd8e98551df4"

def readContext : Dict := [("operation", .str "object.read")]

def readOutcome (store : AuthorityStore) : Option (Option CapabilityEffect × Bool) := do
  let caps ← (store.matchingCapabilities 0 "pid_2" "object:report" "read").toOption
  outcome (plainEngine readDigest) {} ⟨"pid_2", "object:report", "read"⟩ readContext (fun _ => []) caps

def delegateRead (spec : CapabilitySpec) : Except AuthorityError AuthorityStore :=
  delegateSelected (plainEngine readDigest) {} askingStore 0 "pid_1" "pid_2" spec "cap_3"
    "2026-01-02T00:00:00+00:00"

/-- A delegated approval binding turns the question into a permission. -/
theorem delegation_answers_question :
    readOutcome askingStore = some (some .ask, false) ∧
      (delegateRead (readSpec (some 1) [(approvalBindingKey, .dict
        [("effect_id", .str "eff_1"), ("canonical_args_hash", .str readDigest),
          ("target_state_version", .none)])])).toOption.bind readOutcome =
        some (some .allow, true) := by
  decide +kernel

theorem askingStore_roots (capId : String) (cap : Capability)
    (stored : askingStore.getCapability capId = some cap) : cap.parentCapId = none := by
  have published : (rootStore none).publish askDraft "cap_2" = .ok askingStore := rfl
  rw [(AuthorityStore.publish_ok published).2.2] at stored
  split_ifs at stored
  · cases stored
    rfl
  · exact rootStore_roots none capId cap stored

theorem delegation_keeps_boundary_read :
    ∃ store' caps', delegateRead (readSpec none []) = .ok store' ∧
      store'.matchingCapabilities 0 "pid_2" "object:report" "read" = .ok caps' ∧
      (¬ Allowed (plainEngine readDigest) {} ⟨"pid_2", "object:report", "read"⟩ readContext
          (fun _ => []) caps' ↔
        ¬ (some CapabilityEffect.ask = some .ask ∧ ApprovesItself (plainEngine readDigest) {}
          (readSpec none []) ⟨"pid_2", "object:report", "read"⟩ readContext)) := by
  have done : (delegateRead (readSpec none [])).toOption.isSome = true := by decide +kernel
  have asked : readOutcome askingStore = some (some .ask, false) := by decide +kernel
  cases delegated : delegateRead (readSpec none []) with
  | error error => simp [delegated, Except.toOption] at done
  | ok store' =>
      unfold readOutcome at asked
      cases matched : askingStore.matchingCapabilities 0 "pid_2" "object:report" "read" with
      | error denied => simp [matched, Except.toOption] at asked
      | ok caps =>
          simp only [matched, Except.toOption, Option.bind_eq_bind, Option.bind_some, outcome] at asked
          obtain ⟨decision, decided, effect⟩ := Option.map_eq_some_iff.mp asked
          obtain ⟨shown, -⟩ := Prod.mk.inj effect
          cases decided' : CapabilityEvaluator.decide (plainEngine readDigest) {}
              ⟨"pid_2", "object:report", "read"⟩ caps readContext (fun _ => []) with
          | error raised => simp [decided'] at decided
          | ok found =>
              obtain rfl : found = decision := by simpa [decided'] using decided
              obtain ⟨caps', matched', boundary⟩ := @delegation_keeps_boundary_iff _ {} _ _ _ _ _ _ _ _
                (fun id cap stored => by simp [askingStore_roots id cap stored])
                delegated _ _ _ _ _ _ matched decided' (Or.inr shown)
              exact ⟨store', caps', rfl, matched', shown ▸ boundary⟩

end AgentLibOS.Capability
