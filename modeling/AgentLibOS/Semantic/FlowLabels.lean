import AgentLibOS.DataFlow.Clearance
import AgentLibOS.Library.JoinFold
import AgentLibOS.Semantic.FlowGraph
import Mathlib.Order.Bounds.Basic

namespace AgentLibOS.Semantic
open Library Memory DataFlow

/-! ## Label vectors -/

def trustRank (value : DataTrustLevel) : Nat := trustOrder.idxOf value

namespace FlowLabelVector

def tighten (vector other : FlowLabelVector) : FlowLabelVector where
  sensitivity :=
    if sensitivityRank vector.sensitivity < sensitivityRank other.sensitivity then other.sensitivity
    else vector.sensitivity
  trustLevel :=
    if trustRank other.trustLevel < trustRank vector.trustLevel then other.trustLevel
    else vector.trustLevel
  integrity :=
    if integrityRank other.integrity < integrityRank vector.integrity then other.integrity
    else vector.integrity

def isTighteningOf (vector baseline : FlowLabelVector) : Bool :=
  sensitivityRank baseline.sensitivity ≤ sensitivityRank vector.sensitivity &&
    integrityRank vector.integrity ≤ integrityRank baseline.integrity &&
    decide (trustRank vector.trustLevel ≤ trustRank baseline.trustLevel)

theorem isTighteningOf_iff {vector baseline : FlowLabelVector} :
    vector.isTighteningOf baseline = true ↔
      sensitivityRank baseline.sensitivity ≤ sensitivityRank vector.sensitivity ∧
        integrityRank vector.integrity ≤ integrityRank baseline.integrity ∧
        trustRank vector.trustLevel ≤ trustRank baseline.trustLevel := by
  simp [isTighteningOf, and_assoc]

end FlowLabelVector

theorem sensitivityRank_inj {left right : DataSensitivity} :
    sensitivityRank left = sensitivityRank right ↔ left = right :=
  List.idxOf_inj (by cases left <;> decide)

theorem trustRank_inj {left right : DataTrustLevel} :
    trustRank left = trustRank right ↔ left = right :=
  List.idxOf_inj (by cases left <;> decide)

theorem integrityRank_inj {left right : DataIntegrity} :
    integrityRank left = integrityRank right ↔ left = right :=
  List.idxOf_inj (by cases left <;> decide)

/-- Tighter vectors are greater, and `tighten` is the join. -/
instance : SemilatticeSup FlowLabelVector where
  le baseline vector := vector.isTighteningOf baseline = true
  sup := FlowLabelVector.tighten
  le_refl vector := by simp [FlowLabelVector.isTighteningOf_iff]
  le_trans a b c first second := by
    rw [FlowLabelVector.isTighteningOf_iff] at first second ⊢
    omega
  le_antisymm a b first second := by
    rw [FlowLabelVector.isTighteningOf_iff] at first second
    have sensitivity := sensitivityRank_inj.mp (le_antisymm first.1 second.1)
    have integrity := integrityRank_inj.mp (le_antisymm second.2.1 first.2.1)
    have trust := trustRank_inj.mp (le_antisymm second.2.2 first.2.2)
    cases a
    cases b
    simp only [FlowLabelVector.mk.injEq]
    exact ⟨sensitivity, trust, integrity⟩
  le_sup_left a b := by
    rw [FlowLabelVector.isTighteningOf_iff]
    unfold FlowLabelVector.tighten
    refine ⟨?_, ?_, ?_⟩ <;> dsimp only <;> split_ifs <;> omega
  le_sup_right a b := by
    rw [FlowLabelVector.isTighteningOf_iff]
    unfold FlowLabelVector.tighten
    refine ⟨?_, ?_, ?_⟩ <;> dsimp only <;> split_ifs <;> omega
  sup_le a b c first second := by
    rw [FlowLabelVector.isTighteningOf_iff] at first second ⊢
    unfold FlowLabelVector.tighten
    refine ⟨?_, ?_, ?_⟩ <;> dsimp only <;> split_ifs <;> omega

theorem FlowLabelVector.le_iff {baseline vector : FlowLabelVector} : baseline ≤ vector ↔
    sensitivityRank baseline.sensitivity ≤ sensitivityRank vector.sensitivity ∧
      integrityRank vector.integrity ≤ integrityRank baseline.integrity ∧
      trustRank vector.trustLevel ≤ trustRank baseline.trustLevel :=
  FlowLabelVector.isTighteningOf_iff

/-- The highest sensitivity, the lowest trust and the lowest integrity of the vectors. -/
structure FlowLabelVector.TightestOf (labels : FlowLabelVector) (vectors : Set FlowLabelVector) :
    Prop where
  sensitivity : (∃ vector ∈ vectors, vector.sensitivity = labels.sensitivity) ∧
    ∀ vector ∈ vectors, sensitivityRank vector.sensitivity ≤ sensitivityRank labels.sensitivity
  trust : (∃ vector ∈ vectors, vector.trustLevel = labels.trustLevel) ∧
    ∀ vector ∈ vectors, trustRank labels.trustLevel ≤ trustRank vector.trustLevel
  integrity : (∃ vector ∈ vectors, vector.integrity = labels.integrity) ∧
    ∀ vector ∈ vectors, integrityRank labels.integrity ≤ integrityRank vector.integrity

/-- In a product of chains the least upper bound is the best value of each component. -/
theorem FlowLabelVector.tightestOf_of_isLUB {labels : FlowLabelVector}
    {vectors : Set FlowLabelVector} (nonempty : vectors.Nonempty) (lub : IsLUB vectors labels) :
    labels.TightestOf vectors := by
  have above : ∀ vector ∈ vectors, _ := fun vector inside => le_iff.mp (lub.1 inside)
  refine ⟨⟨?_, fun vector inside => (above vector inside).1⟩,
    ⟨?_, fun vector inside => (above vector inside).2.2⟩,
    ⟨?_, fun vector inside => (above vector inside).2.1⟩⟩
  · have bounded : BddAbove ((fun v => sensitivityRank v.sensitivity) '' vectors) :=
      ⟨sensitivityRank labels.sensitivity, by
        rintro _ ⟨vector, inside, rfl⟩
        exact (above vector inside).1⟩
    obtain ⟨best, inside, greatest⟩ := Nat.sSup_mem (nonempty.image _) bounded
    refine ⟨best, inside, sensitivityRank_inj.mp (le_antisymm (above best inside).1 ?_)⟩
    have bound : labels ≤ { labels with sensitivity := best.sensitivity } := lub.2 fun v member => by
      refine le_iff.mpr ⟨?_, (above v member).2⟩
      dsimp only at greatest ⊢
      rw [greatest]
      exact le_csSup bounded ⟨v, member, rfl⟩
    exact (le_iff.mp bound).1
  · obtain ⟨best, inside, least⟩ :=
      Nat.sInf_mem (nonempty.image fun v : FlowLabelVector => trustRank v.trustLevel)
    refine ⟨best, inside, trustRank_inj.mp (le_antisymm ?_ (above best inside).2.2)⟩
    have bound : labels ≤ { labels with trustLevel := best.trustLevel } := lub.2 fun v member => by
      refine le_iff.mpr ⟨(above v member).1, (above v member).2.1, ?_⟩
      dsimp only at least ⊢
      rw [least]
      exact Nat.sInf_le ⟨v, member, rfl⟩
    exact (le_iff.mp bound).2.2
  · obtain ⟨best, inside, least⟩ :=
      Nat.sInf_mem (nonempty.image fun v : FlowLabelVector => integrityRank v.integrity)
    refine ⟨best, inside, integrityRank_inj.mp (le_antisymm ?_ (above best inside).2.1)⟩
    have bound : labels ≤ { labels with integrity := best.integrity } := lub.2 fun v member => by
      refine le_iff.mpr ⟨(above v member).1, ?_, (above v member).2.2⟩
      dsimp only at least ⊢
      rw [least]
      exact Nat.sInf_le ⟨v, member, rfl⟩
    exact (le_iff.mp bound).2.1

/-! ## Coverage -/

def coveragePrecedence : FlowCoverageStatus → Nat
  | .complete => 0
  | .partial_ => 1
  | .unknown => 2
  | .stale => 3
  | .conflict => 4

def worseCoverage (left right : FlowCoverageStatus) : FlowCoverageStatus :=
  if coveragePrecedence left < coveragePrecedence right then right else left

@[simp] theorem worseCoverage_complete {left right : FlowCoverageStatus} :
    worseCoverage left right = .complete ↔ left = .complete ∧ right = .complete := by
  cases left <;> cases right <;> decide

/-! ## The labels of one entity -/

def sensitivityOf : String → Except ValidationError DataSensitivity
  | "public" => .ok .«public»
  | "normal" => .ok .normal
  | "confidential" => .ok .confidential
  | "restricted" => .ok .restricted
  | "secret" => .ok .secret
  | _ => .error "flow sensitivity is invalid"

def trustLevelOf : String → Except ValidationError DataTrustLevel
  | "untrusted" => .ok .untrusted
  | "unknown" => .ok .unknown
  | "user_asserted" => .ok .userAsserted
  | "verified" => .ok .verified
  | "trusted" => .ok .trusted
  | _ => .error "flow trust level is invalid"

def integrityOf : String → Except ValidationError DataIntegrity
  | "untrusted" => .ok .untrusted
  | "unknown" => .ok .unknown
  | "checked" => .ok .checked
  | "verified" => .ok .verified
  | _ => .error "flow integrity is invalid"

def SemanticFlowLabelAssertionRecord.suggestion (assertion : SemanticFlowLabelAssertionRecord) :
    Except ValidationError FlowLabelVector := do
  let sensitivity ← sensitivityOf assertion.sensitivityFloor
  let trustLevel ← trustLevelOf assertion.trustCeiling
  let integrity ← integrityOf assertion.integrityCeiling
  .ok { sensitivity, trustLevel, integrity }

structure FlowEffectiveLabels where
  labels : FlowLabelVector
  coverage : FlowCoverageStatus
  assertionCount : Nat
  conflictCount : Nat
  deriving DecidableEq

/-- One round of the loop: a suggestion that would weaken the baseline is counted as a conflict. -/
def applyAssertion (baseline : FlowLabelVector) (effective : FlowEffectiveLabels)
    (assertion : SemanticFlowLabelAssertionRecord) : Except ValidationError FlowEffectiveLabels := do
  let suggestion ← assertion.suggestion
  let tightens := suggestion.isTighteningOf baseline
  .ok { labels := if tightens then effective.labels.tighten suggestion else effective.labels
        coverage := worseCoverage effective.coverage assertion.coverage
        assertionCount := effective.assertionCount + 1
        conflictCount := if tightens then effective.conflictCount else effective.conflictCount + 1 }

def computeEffectiveLabels (baseline : FlowLabelVector)
    (assertions : List SemanticFlowLabelAssertionRecord) (initialCoverage : FlowCoverageStatus) :
    Except ValidationError FlowEffectiveLabels := do
  let effective ← assertions.foldlM (applyAssertion baseline) ⟨baseline, initialCoverage, 0, 0⟩
  .ok { effective with
    coverage := if effective.conflictCount = 0 then effective.coverage else .conflict }

/-- An assertion that is complete and does not weaken the baseline. -/
def SemanticFlowLabelAssertionRecord.Sound (assertion : SemanticFlowLabelAssertionRecord)
    (baseline : FlowLabelVector) : Prop :=
  assertion.coverage = .complete ∧ ∃ vector, assertion.suggestion = .ok vector ∧ baseline ≤ vector

/-- What the loop answers when it ends without a conflict and with complete coverage. -/
structure Combined (baseline : FlowLabelVector)
    (assertions : List SemanticFlowLabelAssertionRecord) (start last : FlowEffectiveLabels) :
    Prop where
  conflictFree : start.conflictCount = 0
  complete : start.coverage = .complete
  sound : ∀ assertion ∈ assertions, assertion.Sound baseline
  le_iff : ∀ bound, last.labels ≤ bound ↔ start.labels ≤ bound ∧
    ∀ assertion ∈ assertions, ∀ vector, assertion.suggestion = .ok vector → vector ≤ bound

theorem applyAssertion_combined {baseline : FlowLabelVector}
    {assertions : List SemanticFlowLabelAssertionRecord} {start last : FlowEffectiveLabels}
    (done : assertions.foldlM (applyAssertion baseline) start = .ok last)
    (conflictFree : last.conflictCount = 0) (complete : last.coverage = .complete) :
    Combined baseline assertions start last := by
  induction assertions generalizing start with
  | nil =>
      cases done
      exact ⟨conflictFree, complete, by simp, by simp⟩
  | cons assertion assertions ih =>
      rw [List.foldlM_cons, Run.bind_eq_ok] at done
      obtain ⟨next, here, later⟩ := done
      obtain ⟨suggestion, read, made⟩ := Run.bind_eq_ok.mp here
      have rest := ih later
      cases tightens : suggestion.isTighteningOf baseline with
      | false =>
          simp only [tightens] at made
          cases made
          exact absurd rest.conflictFree (Nat.succ_ne_zero _)
      | true =>
          simp only [tightens, if_true] at made
          cases made
          obtain ⟨started, own⟩ := worseCoverage_complete.mp rest.complete
          refine ⟨rest.conflictFree, started, ?_, fun bound => ?_⟩
          · refine List.forall_mem_cons.mpr ⟨⟨own, suggestion, read, tightens⟩, rest.sound⟩
          · rw [rest.le_iff, List.forall_mem_cons]
            change start.labels ⊔ suggestion ≤ bound ∧ _ ↔ _
            rw [sup_le_iff, and_assoc]
            refine and_congr_right fun _ => and_congr_left fun _ => ⟨fun below vector same => ?_, fun all =>
              all suggestion read⟩
            rw [read] at same
            cases same
            exact below

/-- Complete effective labels combine the baseline and every assertion. -/
theorem computeEffectiveLabels_complete {baseline : FlowLabelVector}
    {assertions : List SemanticFlowLabelAssertionRecord} {initialCoverage : FlowCoverageStatus}
    {effective : FlowEffectiveLabels}
    (done : computeEffectiveLabels baseline assertions initialCoverage = .ok effective)
    (complete : effective.coverage = .complete) :
    initialCoverage = .complete ∧ (∀ assertion ∈ assertions, assertion.Sound baseline) ∧
      ∀ bound, effective.labels ≤ bound ↔ baseline ≤ bound ∧
        ∀ assertion ∈ assertions, ∀ vector, assertion.suggestion = .ok vector → vector ≤ bound := by
  obtain ⟨last, ran, made⟩ := Run.bind_eq_ok.mp done
  cases made
  by_cases conflictFree : last.conflictCount = 0
  · rw [if_pos conflictFree] at complete
    have combined := applyAssertion_combined ran conflictFree complete
    exact ⟨combined.complete, combined.sound, combined.le_iff⟩
  · rw [if_neg conflictFree] at complete
    cases complete

end AgentLibOS.Semantic
