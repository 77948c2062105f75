import AgentLibOS.Library.JoinFold
import AgentLibOS.Capability.Evaluator
import Mathlib.Order.Basic
import Mathlib.Order.Lattice.Nat

namespace AgentLibOS.Capability
open Library.JoinFold Library.Run

/-- What one capability brings to a decision, by precedence. -/
inductive Standing
  | rejected | allowed | asked | approvedOnce | denied
  deriving DecidableEq, Repr

namespace Standing

def rank : Standing → Nat
  | .rejected => 0
  | .allowed => 1
  | .asked => 2
  | .approvedOnce => 3
  | .denied => 4

theorem rank_injective : Function.Injective rank := by
  intro left right same
  cases left <;> cases right <;> first | rfl | cases same

instance : LinearOrder Standing := LinearOrder.lift' rank rank_injective

theorem le_iff {left right : Standing} : left ≤ right ↔ left.rank ≤ right.rank := Iff.rfl

theorem le_of_lt_next {standing high low : Standing} (next : high.rank = low.rank + 1)
    (below : standing < high) : standing ≤ low := by
  have : standing.rank < high.rank := below
  rw [le_iff]
  omega

@[simp] theorem rejected_le (standing : Standing) : .rejected ≤ standing := Nat.zero_le _

@[simp] theorem le_denied (standing : Standing) : standing ≤ .denied := by
  cases standing <;> decide

/-- Effect and permission of a decision. -/
def verdict : Standing → Option CapabilityEffect × Bool
  | .rejected => (none, false)
  | .allowed => (some .allow, true)
  | .asked => (some .ask, false)
  | .approvedOnce => (some .allow, true)
  | .denied => (some .deny, false)

def permits (standing : Standing) : Bool := standing.verdict.2

end Standing

namespace CapabilityEvaluator

/-! ## The standing of one capability -/

/-- `_decide_match` and the test for a matched one-shot approval, as one standing. -/
def standing (cap : Capability) (results : ConstraintResults) : Standing :=
  if constraintEffect results = some .deny then .denied
  else if constraintsOk results = false then
    if cap.effect ≠ .allow ∧ constraintFailureIsScopedMiss results = false then .denied
    else .rejected
  else if cap.effect = .deny then .denied
  else if cap.effect = .ask ∨ constraintEffect results = some .ask then .asked
  else if cap.usesRemaining = some 1 ∧
      (results.lookup approvalBindingKey).any (·.ok) = true then .approvedOnce
  else .allowed

def Judged.standing (judged : Judged) : Standing :=
  CapabilityEvaluator.standing judged.cap judged.results

def contribution (engine : Engine) (limits : RegexLimits) (context : Dict) (cap : Capability) :
    Except Raised Standing :=
  (evaluateConstraints engine limits cap context).map (standing cap)

section Judge
variable {engine : Engine} {limits : RegexLimits} {request : Request} {matchedIds : List String}
  {context : Dict} {chains : String → List String}

/-- A decision has the effect of the standing and allows exactly what that allows. -/
structure Shows (cap : Capability) (standing : Standing) (decision : CapabilityDecision) : Prop where
  verdict : (decision.effect, decision.allowed) = standing.verdict
  taken : standing ≠ .rejected
  once : isMatchedOneShotApproval cap decision = true ↔ standing = .approvedOnce

theorem approval_of_permission (cap : Capability) (reason : String) (results : ConstraintResults) :
    isMatchedOneShotApproval cap
        (decision request matchedIds context chains cap true (some .allow) reason results) = true ↔
      cap.usesRemaining = some 1 ∧ (results.lookup approvalBindingKey).any (·.ok) = true := by
  cases uses : cap.usesRemaining <;> simp [isMatchedOneShotApproval, decision, uses]

theorem decideMatch_cases (cap : Capability) (results : ConstraintResults) :
    (decideMatch request matchedIds context chains cap results = none ∧
        standing cap results = .rejected) ∨
      ∃ decision, decideMatch request matchedIds context chains cap results = some decision ∧
        Shows cap (standing cap results) decision := by
  unfold decideMatch standing
  by_cases overridden : constraintEffect results = some .deny
  · exact Or.inr ⟨_, by simp [overridden]; rfl, by
      constructor <;> simp [overridden, decision, Standing.verdict, isMatchedOneShotApproval]⟩
  cases fine : constraintsOk results with
  | false =>
      by_cases restrictive : cap.effect ≠ .allow ∧ constraintFailureIsScopedMiss results = false
      · have : (cap.effect == .deny || cap.effect == .ask) = true := by
          cases effect : cap.effect <;> simp_all
        exact Or.inr ⟨_, by simp [this, restrictive.2]; rfl, by
          constructor <;>
            simp [overridden, restrictive, decision, Standing.verdict, isMatchedOneShotApproval]⟩
      · refine Or.inl ⟨?_, by simp only [if_neg overridden, if_true, if_neg restrictive]⟩
        have : ((cap.effect == .deny || cap.effect == .ask) &&
            !constraintFailureIsScopedMiss results) = false := by
          cases effect : cap.effect <;> simp_all
        simp [overridden, this]
  | true =>
      cases effect : cap.effect with
      | deny => exact Or.inr ⟨_, by simp [overridden]; rfl, by
          constructor <;> simp [overridden, decision, Standing.verdict, isMatchedOneShotApproval]⟩
      | ask => exact Or.inr ⟨_, by simp [overridden]; rfl, by
          constructor <;> simp [overridden, decision, Standing.verdict, isMatchedOneShotApproval]⟩
      | allow =>
          by_cases asks : constraintEffect results = some .ask
          · exact Or.inr ⟨_, by simp [asks]; rfl, by
              constructor <;> simp [asks, decision, Standing.verdict, isMatchedOneShotApproval]⟩
          · have approval := @approval_of_permission request matchedIds context chains cap
              "capability allowed operation" results
            refine Or.inr ⟨_, by simp [overridden, asks]; rfl, ?_⟩
            by_cases once : cap.usesRemaining = some 1 ∧
              (results.lookup approvalBindingKey).any (·.ok) = true
            · refine ⟨?_, ?_, approval.trans ?_⟩ <;>
                simp [overridden, asks, once, decision, Standing.verdict]
            · refine ⟨?_, ?_, approval.trans ?_⟩ <;>
                simp [overridden, asks, once, decision, Standing.verdict]

/-! ## The scans -/

/-- Each judgement carries the decision its constraint results lead to. -/
def Sound (request : Request) (matchedIds : List String) (context : Dict)
    (chains : String → List String) (judged : List Judged) : Prop :=
  ∀ one ∈ judged, one.decision = decideMatch request matchedIds context chains one.cap one.results

theorem Sound.cases {judged : List Judged} (sound : Sound request matchedIds context chains judged)
    {one : Judged} (member : one ∈ judged) :
    (one.decision = none ∧ one.standing = .rejected) ∨
      ∃ decision, one.decision = some decision ∧ Shows one.cap one.standing decision := by
  rw [sound one member]
  exact decideMatch_cases one.cap one.results

theorem Sound.hasEffect {judged : List Judged}
    (sound : Sound request matchedIds context chains judged) {one : Judged}
    (member : one ∈ judged) (effect : CapabilityEffect) :
    one.hasEffect effect = true ↔ one.standing.verdict.1 = some effect := by
  rcases sound.cases member with ⟨none_, rejected⟩ | ⟨decision, taken, shows_⟩
  · simp [Judged.hasEffect, none_, rejected, Standing.verdict]
  · have := congrArg Prod.fst shows_.verdict
    simp only at this
    simp [Judged.hasEffect, taken, ← this]

theorem Sound.approvesOnce {judged : List Judged}
    (sound : Sound request matchedIds context chains judged) {one : Judged}
    (member : one ∈ judged) : one.approvesOnce = true ↔ one.standing = .approvedOnce := by
  rcases sound.cases member with ⟨none_, rejected⟩ | ⟨decision, taken, shows_⟩
  · simp [Judged.approvesOnce, none_, rejected]
  · simp [Judged.approvesOnce, taken, shows_.once]

def overall (standings : List Standing) : Standing := joinAll .rejected standings

theorem le_overall {standings : List Standing} {standing : Standing}
    (positive : standing ≠ .rejected) :
    standing ≤ overall standings ↔ ∃ one ∈ standings, standing ≤ one := by
  rw [overall, le_joinAll_iff]
  refine or_iff_right fun below => positive ?_
  exact le_antisymm below (Standing.rejected_le standing)

theorem overall_eq {standings : List Standing} {standing : Standing} (reached : standing ∈ standings)
    (bound : ∀ one ∈ standings, one ≤ standing) : overall standings = standing :=
  le_antisymm (joinAll_le_iff.mpr ⟨Standing.rejected_le _, bound⟩)
    (le_joinAll (List.mem_cons_of_mem _ reached))

/-- A scan for the highest standing that is left either decides with its verdict, or all standings
are lower. -/
theorem Sound.scan {judged : List Judged} (sound : Sound request matchedIds context chains judged)
    (standing : Standing) (positive : standing ≠ .rejected)
    (bound : ∀ one ∈ judged, one.standing ≤ standing) (test : Judged → Bool)
    (spots : ∀ one ∈ judged, test one = true ↔ one.standing = standing) :
    (∃ decision, (judged.find? test).bind (·.decision) = some decision ∧
        (decision.effect, decision.allowed) = (overall (judged.map Judged.standing)).verdict) ∨
      ((judged.find? test).bind (·.decision) = none ∧ ∀ one ∈ judged, one.standing < standing) := by
  cases found : judged.find? test with
  | some one =>
      have member := List.mem_of_find?_eq_some found
      have hit := (spots one member).mp (List.find?_some found)
      rcases sound.cases member with ⟨-, rejected⟩ | ⟨decision, made, shows_⟩
      · exact absurd (hit.symm.trans rejected) positive
      · refine Or.inl ⟨decision, made, shows_.verdict.trans (congrArg Standing.verdict ?_)⟩
        rw [hit, overall_eq]
        · exact hit ▸ List.mem_map_of_mem member
        · simpa using bound
  | none =>
      refine Or.inr ⟨rfl, fun one member => lt_of_le_of_ne (bound one member) fun same => ?_⟩
      exact List.find?_eq_none.mp found one member ((spots one member).mpr same)

/-- The scans in order pick the highest standing. -/
theorem select_verdict {judged : List Judged}
    (sound : Sound request matchedIds context chains judged) :
    ((select request matchedIds context chains judged).effect,
        (select request matchedIds context chains judged).allowed) =
      (overall (judged.map Judged.standing)).verdict := by
  have effects : ∀ one ∈ judged, ∀ effect,
      one.hasEffect effect = true ↔ one.standing.verdict.1 = some effect :=
    fun one member => sound.hasEffect member
  unfold select
  simp only [List.findSome?_cons, List.findSome?_nil]
  rcases sound.scan .denied (by decide) (fun _ _ => Standing.le_denied _) (·.hasEffect .deny)
    (fun one member => by rw [effects one member]; cases one.standing <;> decide)
    with ⟨decision, made, verdict⟩ | ⟨denied, below⟩
  · rwa [made]
  have below := fun one member => @Standing.le_of_lt_next _ _ .approvedOnce rfl (below one member)
  rcases sound.scan .approvedOnce (by decide) below (·.approvesOnce)
    (fun one member => sound.approvesOnce member) with ⟨decision, made, verdict⟩ | ⟨once, below⟩
  · rwa [denied, made]
  have below := fun one member => @Standing.le_of_lt_next _ _ .asked rfl (below one member)
  rcases sound.scan .asked (by decide) below (·.hasEffect .ask)
    (fun one member => by rw [effects one member]; cases one.standing <;> decide)
    with ⟨decision, made, verdict⟩ | ⟨ask, below⟩
  · rwa [denied, once, made]
  have below := fun one member => @Standing.le_of_lt_next _ _ .allowed rfl (below one member)
  -- an approval shows the effect `allow` too, but none is left
  rcases sound.scan .allowed (by decide) below (·.hasEffect .allow)
    (fun one member => by
      have := below one member
      rw [effects one member]
      revert this
      cases one.standing <;> decide) with ⟨decision, made, verdict⟩ | ⟨allow, below⟩
  · rwa [denied, once, ask, made]
  have : overall (judged.map Judged.standing) = .rejected := by
    refine le_antisymm (joinAll_le_iff.mpr ⟨le_rfl, ?_⟩) (Standing.rejected_le _)
    simpa using fun one member => @Standing.le_of_lt_next _ _ .rejected rfl (below one member)
  rw [denied, once, ask, allow, this]
  cases judged.find? (·.decision.isNone) <;> rfl

/-! ## Decisions by standing -/

theorem judge_eq_ok {cap : Capability} {one : Judged}
    (judged : judge request matchedIds context chains engine limits cap = .ok one) :
    contribution engine limits context cap = .ok one.standing ∧
      one.decision = decideMatch request matchedIds context chains one.cap one.results := by
  obtain ⟨results, evaluated, made⟩ := bind_eq_ok.mp judged
  obtain rfl := Except.ok.inj made
  exact ⟨by rw [contribution, evaluated]; rfl, rfl⟩

theorem judge_of_contribution {cap : Capability} {standing : Standing}
    (contributes : contribution engine limits context cap = .ok standing) :
    ∃ one, judge request matchedIds context chains engine limits cap = .ok one := by
  unfold contribution at contributes
  cases evaluated : evaluateConstraints engine limits cap context with
  | error raised =>
      rw [evaluated] at contributes
      cases contributes
  | ok results => exact ⟨_, bind_eq_ok.mpr ⟨results, evaluated, rfl⟩⟩

/-- A decision is the verdict of the highest standing. -/
theorem decide_eq_ok {caps : List Capability} {decision : CapabilityDecision}
    (decided : decide engine limits request caps context chains = .ok decision) :
    ∃ standings, caps.mapM (contribution engine limits context) = .ok standings ∧
      (decision.effect, decision.allowed) = (overall standings).verdict := by
  obtain ⟨judged, all, done⟩ := bind_eq_ok.mp decided
  obtain rfl := Except.ok.inj done
  have each := mapM_eq_ok.mp all
  refine ⟨judged.map Judged.standing, mapM_eq_ok.mpr ?_, select_verdict ?_⟩
  · rw [List.forall₂_map_right_iff]
    exact each.imp fun _ _ made => (judge_eq_ok made).1
  · intro one member
    obtain ⟨cap, -, made⟩ := mapM_result all member
    exact (judge_eq_ok made).2

/-- Effect and permission of the decision, if there is one. -/
def outcome (engine : Engine) (limits : RegexLimits) (request : Request) (context : Dict)
    (chains : String → List String) (caps : List Capability) :
    Option (Option CapabilityEffect × Bool) :=
  (decide engine limits request caps context chains).toOption.map fun decision =>
    (decision.effect, decision.allowed)

theorem outcome_eq (caps : List Capability) :
    outcome engine limits request context chains caps =
      (caps.mapM (contribution engine limits context)).toOption.map fun standings =>
        (overall standings).verdict := by
  unfold outcome
  cases decided : decide engine limits request caps context chains with
  | ok decision =>
      obtain ⟨standings, all, verdict⟩ := decide_eq_ok decided
      rw [all]
      exact congrArg some verdict
  | error raised =>
      cases all : caps.mapM (contribution engine limits context) with
      | error _ => rfl
      | ok standings =>
          obtain ⟨judged, made⟩ := @mapM_of_all _ _ _ (judge request (caps.map (·.capId)) context chains engine limits) caps
            fun cap member => by
              obtain ⟨standing, -, contributes⟩ := mapM_input all member
              exact judge_of_contribution contributes
          rw [decide, made] at decided
          cases decided

/-! ## Order and restriction -/

theorem outcome_perm {caps caps' : List Capability} (perm : caps.Perm caps') :
    outcome engine limits request context chains caps =
      outcome engine limits request context chains caps' := by
  rw [outcome_eq, outcome_eq]
  cases all : caps.mapM (contribution engine limits context) with
  | ok standings =>
      obtain ⟨standings', all', same⟩ := mapM_perm perm all
      rw [all']
      exact congrArg (fun standing => some standing.verdict) (joinAll_perm same).symm
  | error raised =>
      cases all' : caps'.mapM (contribution engine limits context) with
      | error _ => rfl
      | ok standings' =>
          obtain ⟨standings, some_, -⟩ := mapM_perm perm.symm all'
          cases all.symm.trans some_

theorem overall_cons (standing : Standing) (standings : List Standing) :
    overall (standing :: standings) = standing ⊔ overall standings := by
  rw [overall, joinAll_cons, joinAll_sup, sup_comm]
  rfl

/-- A further capability joins its standing to the others, wherever it is listed. -/
theorem outcome_insert (front back : List Capability) (cap : Capability) :
    outcome engine limits request context chains (front ++ cap :: back) =
      (do
        let standing ← (contribution engine limits context cap).toOption
        let standings ← ((front ++ back).mapM (contribution engine limits context)).toOption
        pure (standing ⊔ overall standings).verdict) := by
  rw [outcome_perm List.perm_middle, outcome_eq, List.mapM_cons]
  cases contribution engine limits context cap with
  | error _ => rfl
  | ok standing =>
      cases (front ++ back).mapM (contribution engine limits context) with
      | error _ => rfl
      | ok standings => exact congrArg (fun one => some one.verdict) (overall_cons standing standings)

def Allowed (engine : Engine) (limits : RegexLimits) (request : Request) (context : Dict)
    (chains : String → List String) (caps : List Capability) : Prop :=
  ∃ decision, decide engine limits request caps context chains = .ok decision ∧
    decision.allowed = true

theorem allowed_iff {caps : List Capability} :
    Allowed engine limits request context chains caps ↔
      ∃ effect, outcome engine limits request context chains caps = some (effect, true) := by
  unfold Allowed outcome
  cases decide engine limits request caps context chains with
  | error raised => simp [Except.toOption]
  | ok decision => simp [Except.toOption]

theorem standing_restrictive {cap : Capability} (restrictive : cap.effect ≠ .allow)
    (results : ConstraintResults) : (standing cap results).permits = false := by
  cases effect : cap.effect with
  | allow => exact absurd effect restrictive
  | deny =>
      simp only [standing, effect, if_true]
      split_ifs <;> rfl
  | ask =>
      simp only [standing, effect, true_or, if_true]
      split_ifs <;> rfl

theorem standing_denies {cap : Capability} (denies : cap.effect = .deny)
    {results : ConstraintResults} (inScope : constraintFailureIsScopedMiss results = false) :
    standing cap results = .denied := by
  simp only [standing, denies, inScope]
  split_ifs <;> simp_all

/-- Joining a standing that permits nothing cannot make the result permit. -/
theorem permits_of_sup {restrictive standing : Standing} (denies : restrictive.permits = false)
    (permitted : (restrictive ⊔ standing).permits = true) : standing.permits = true := by
  rcases le_total restrictive standing with le | le
  · rwa [sup_eq_right.mpr le] at permitted
  · rw [sup_eq_left.mpr le, denies] at permitted
    cases permitted

theorem allowed_insert {front back : List Capability} {cap : Capability} :
    Allowed engine limits request context chains (front ++ cap :: back) ↔
      ∃ results standings, evaluateConstraints engine limits cap context = .ok results ∧
        (front ++ back).mapM (contribution engine limits context) = .ok standings ∧
        (standing cap results ⊔ overall standings).permits = true := by
  rw [allowed_iff, outcome_insert, contribution]
  cases evaluateConstraints engine limits cap context with
  | error _ => simp [Except.map, Except.toOption]
  | ok results =>
      cases (front ++ back).mapM (contribution engine limits context) with
      | error _ => simp [Except.map, Except.toOption]
      | ok standings =>
          simp only [Except.map, Except.toOption, Option.bind_eq_bind, Option.bind_some,
            Except.ok.injEq, exists_and_left, exists_eq_left', Standing.permits, Option.pure_def,
            Option.some.injEq]
          constructor
          · rintro ⟨effect, same⟩
            rw [same]
          · exact fun permitted => ⟨_, Prod.ext rfl permitted⟩

theorem allowed_overall {caps : List Capability} :
    Allowed engine limits request context chains caps ↔
      ∃ standings, caps.mapM (contribution engine limits context) = .ok standings ∧
        (overall standings).permits = true := by
  rw [allowed_iff, outcome_eq]
  cases caps.mapM (contribution engine limits context) with
  | error _ => simp [Except.toOption]
  | ok standings =>
      simp only [Except.toOption, Option.map_some, Option.some.injEq, Except.ok.injEq,
        exists_eq_left', Standing.permits]
      constructor
      · rintro ⟨effect, same⟩
        rw [same]
      · exact fun permitted => ⟨_, Prod.ext rfl permitted⟩

end Judge

/-- Restriction is order-free and monotone. -/
theorem restriction_monotone (engine : Engine) (limits : RegexLimits) (request : Request)
    (context : Dict) (chains : String → List String) :
    (∀ caps caps', caps.Perm caps' →
        outcome engine limits request context chains caps =
          outcome engine limits request context chains caps') ∧
      (∀ front back cap, cap.effect = .deny ∨ cap.effect = .ask →
        ¬ Allowed engine limits request context chains (front ++ back) →
        ¬ Allowed engine limits request context chains (front ++ cap :: back)) ∧
      ∀ front back cap, cap.effect = .deny →
        (∀ results, evaluateConstraints engine limits cap context = .ok results →
          constraintFailureIsScopedMiss results = false) →
        ¬ Allowed engine limits request context chains (front ++ cap :: back) := by
  refine ⟨fun caps caps' perm => outcome_perm perm, ?_, ?_⟩
  · intro front back cap restrictive refused allowed
    have notAllow : cap.effect ≠ .allow := by
      rcases restrictive with effect | effect <;> simp [effect]
    obtain ⟨results, standings, -, all, permitted⟩ := allowed_insert.mp allowed
    exact refused (allowed_overall.mpr
      ⟨standings, all, permits_of_sup (standing_restrictive notAllow results) permitted⟩)
  · intro front back cap denies inScope allowed
    obtain ⟨results, standings, evaluated, -, permitted⟩ := allowed_insert.mp allowed
    rw [standing_denies denies (inScope results evaluated),
      sup_eq_left.mpr (Standing.le_denied _)] at permitted
    cases permitted

def readCapability (capId subject : String) (effect : CapabilityEffect) : Capability where
  capId := capId
  subject := subject
  resource := "object:report"
  rights := ["read"]
  constraints := []
  issuedAt := "2026-01-01T00:00:00+00:00"
  expiresAt := none
  delegable := true
  revocable := true
  effect := effect
  parentCapId := none
  delegationDepth := 0
  maxDelegationDepth := none
  usesRemaining := none
  status := .active

theorem restriction_monotone_read :
    outcome (plainEngine "") {} ⟨"pid_1", "object:report", "read"⟩ [] (fun _ => [])
        [readCapability "cap_1" "pid_1" .allow, readCapability "cap_2" "pid_1" .ask] =
      outcome (plainEngine "") {} ⟨"pid_1", "object:report", "read"⟩ [] (fun _ => [])
        [readCapability "cap_2" "pid_1" .ask, readCapability "cap_1" "pid_1" .allow] ∧
      ¬ Allowed (plainEngine "") {} ⟨"pid_1", "object:report", "read"⟩ [] (fun _ => [])
        [readCapability "cap_2" "pid_1" .ask, readCapability "cap_3" "pid_1" .ask] ∧
      ¬ Allowed (plainEngine "") {} ⟨"pid_1", "object:report", "read"⟩ [] (fun _ => [])
        [readCapability "cap_1" "pid_1" .allow, readCapability "cap_4" "pid_1" .deny] := by
  have monotone := restriction_monotone (plainEngine "") {} ⟨"pid_1", "object:report", "read"⟩ []
    (fun _ => [])
  refine ⟨monotone.1 _ _ (.swap _ _ _), ?_, ?_⟩
  · refine monotone.2.1 [] [readCapability "cap_3" "pid_1" .ask] _ (Or.inr rfl) ?_
    rintro ⟨decision, decided, allowed⟩
    obtain rfl := Except.ok.inj decided
    exact Bool.false_ne_true allowed
  · refine monotone.2.2 [readCapability "cap_1" "pid_1" .allow] [] _ rfl fun results evaluated => ?_
    obtain rfl := Except.ok.inj evaluated
    rfl

end CapabilityEvaluator
end AgentLibOS.Capability
