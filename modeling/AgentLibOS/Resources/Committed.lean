import AgentLibOS.Resources.Forest
import Mathlib.Algebra.BigOperators.Ring.Finset
import Mathlib.Tactic.Ring

namespace AgentLibOS.Resources
open Library ProcessForest

theorem ResourceUsage.total_nonneg (usage : ResourceUsage) (field : BudgetField) :
    0 ≤ usage.total field :=
  List.sum_nonneg (by simp [usage.nonneg])

@[simp] theorem ResourceUsage.total_zero (field : BudgetField) :
    ResourceUsage.zero.total field = 0 := by
  cases field <;> simp [ResourceUsage.total, ResourceUsage.zero, budgetUsageMap]

/-- Counters of a reservable field add up. -/
theorem ResourceUsage.total_merge {field : BudgetField} (cumulative : reservable field = true)
    (current delta : ResourceUsage) :
    (current.merge delta).total field = current.total field + delta.total field := by
  cases field <;> simp [reservable, ResourceUsage.total, budgetUsageMap, ResourceUsage.merge]
      at cumulative ⊢ <;> ring

theorem ResourceUsage.touches_iff (delta : ResourceUsage) (field : BudgetField) :
    delta.touches field = false ↔ delta.total field = 0 := by
  have pair : ∀ a b, delta.value a + delta.value b = 0 ↔ delta.value a = 0 ∧ delta.value b = 0 :=
    fun a b => add_eq_zero_iff_of_nonneg (delta.nonneg a) (delta.nonneg b)
  cases field <;> simp [ResourceUsage.touches, ResourceUsage.total, budgetUsageMap, pair]

namespace Accounts

variable {forest : ProcessForest} {accounts : Accounts}

theorem reserved_nonneg (accounts : Accounts) (parentPid childPid : String) (field : BudgetField) :
    0 ≤ accounts.reserved parentPid childPid field := by
  unfold reserved Table.at_
  cases accounts.reservations.get (parentPid, childPid) with
  | none => exact le_rfl
  | some row => exact row.nonneg field

/-! ## Active usage -/

/-- Active usage of a process and its descendants. -/
def envelope (forest : ProcessForest) (accounts : Accounts) (pid : String) (field : BudgetField) :
    ℚ :=
  accounts.usageReservations.sum fun _ row =>
    if row.status = .active ∧ pid ∈ forest.chain row.pid then row.usage.total field else 0

/-- Active usage of a process itself. -/
def ownEnvelope (accounts : Accounts) (pid : String) (field : BudgetField) : ℚ :=
  accounts.usageReservations.sum fun _ row =>
    if row.status = .active ∧ row.pid = pid then row.usage.total field else 0

/-- A process that is gone has no parent, so its chain says the same as the source's special
case. -/
theorem position_eq (owner pid : String) :
    (if pid ∈ forest.pids then belowOwner owner none (forest.chain pid)
      else if pid = owner then some none else none) = belowOwner owner none (forest.chain pid) := by
  by_cases known : pid ∈ forest.pids
  · rw [if_pos known]
  · have root : forest.parent pid = none := by
      cases above : forest.parent pid with
      | none => rfl
      | some parent => exact absurd (forest.linked pid parent above).1 known
    rw [if_neg known, chain_root root]
    rfl

theorem activeUsage_own (owner : String) (field : BudgetField) :
    accounts.activeUsage forest owner field (fun below => below = none) =
      accounts.ownEnvelope owner field := by
  refine Table.sum_congr fun id row _ => ?_
  have own := @belowOwner_self forest owner row.pid
  simp only [position_eq]
  by_cases active : row.status = .active
  · cases found : belowOwner owner none (forest.chain row.pid) with
    | none => simp [active, ← own, found]
    | some below => cases below <;> simp [active, ← own, found]
  · simp [active]

theorem activeUsage_child {owner child : String} (field : BudgetField)
    (link : forest.parent child = some owner) :
    accounts.activeUsage forest owner field (fun below => below = some child) =
      accounts.envelope forest child field := by
  refine Table.sum_congr fun id row _ => ?_
  have direct := @belowOwner_direct forest owner row.pid child
  simp only [link, true_and] at direct
  simp only [position_eq]
  by_cases active : row.status = .active
  · cases found : belowOwner owner none (forest.chain row.pid) with
    | none => simp [active, ← direct, found]
    | some below => cases below <;> simp [active, ← direct, found]
  · simp [active]

theorem activeUsage_stranger {owner child : String} (field : BudgetField)
    (link : forest.parent child ≠ some owner) :
    accounts.activeUsage forest owner field (fun below => below = some child) = 0 := by
  refine Eq.trans (Table.sum_congr fun id row _ => ?_) (Table.sum_zero _)
  have direct := @belowOwner_direct forest owner row.pid child
  simp only [link, false_and, iff_false] at direct
  simp only [position_eq]
  cases found : belowOwner owner none (forest.chain row.pid) with
  | none => simp
  | some below =>
      have : below ≠ some child := fun same => direct (by rw [found, same])
      simp [this]

/-- A process's active usage is its own and that of its children's trees. -/
theorem envelope_eq (pid : String) (field : BudgetField) :
    accounts.envelope forest pid field = accounts.ownEnvelope pid field +
      ∑ child ∈ forest.pids,
        accounts.activeUsage forest pid field (fun below => below = some child) := by
  rw [← @activeUsage_own forest]
  unfold envelope activeUsage
  rw [← Table.sum_finset, ← Table.sum_add]
  refine Table.sum_congr fun id row _ => ?_
  have on_chain := @belowOwner_isSome forest pid row.pid none
  simp only [position_eq]
  by_cases active : row.status = .active
  · cases found : belowOwner pid none (forest.chain row.pid) with
    | none => simp [active, ← on_chain, found]
    | some below =>
        cases below with
        | none => simp [active, ← on_chain, found]
        | some child =>
            have known : child ∈ forest.pids :=
              (forest.linked child pid (belowOwner_direct.mp found).1).1
            simp [active, ← on_chain, found, known]
  · simp [active]

theorem envelope_nonneg (pid : String) (field : BudgetField) :
    0 ≤ accounts.envelope forest pid field := by
  refine Table.sum_nonneg fun id row _ => ?_
  split_ifs
  · exact row.usage.total_nonneg field
  · exact le_rfl

theorem ownEnvelope_nonneg (pid : String) (field : BudgetField) :
    0 ≤ accounts.ownEnvelope pid field := by
  refine Table.sum_nonneg fun id row _ => ?_
  split_ifs
  · exact row.usage.total_nonneg field
  · exact le_rfl

/-! ## Held budgets -/

/-- Only known children have budget held back for them. -/
def Scoped (forest : ProcessForest) (accounts : Accounts) : Prop :=
  ∀ parentPid childPid field, accounts.reserved parentPid childPid field ≠ 0 →
    forest.parent childPid = some parentPid

def heldAfter (accounts : Accounts) (parentPid childPid : String) (field : BudgetField)
    (consuming : Option (String × ResourceUsage)) : ℚ :=
  accounts.reservations.at_ (fun key row => rowHeld field consuming key.2 row) (parentPid, childPid)

@[simp] theorem heldAfter_none (parentPid childPid : String) (field : BudgetField) :
    accounts.heldAfter parentPid childPid field none =
      accounts.reserved parentPid childPid field := rfl

theorem heldAfter_some (parentPid childPid child : String) (field : BudgetField)
    (usage : ResourceUsage) : accounts.heldAfter parentPid childPid field (some (child, usage)) =
      if childPid = child then max 0 (accounts.reserved parentPid childPid field - usage.total field)
      else accounts.reserved parentPid childPid field := by
  have := usage.total_nonneg field
  unfold heldAfter reserved Table.at_ rowHeld
  cases accounts.reservations.get (parentPid, childPid) <;> simp [this]

theorem heldAfter_of_zero {parentPid childPid : String} {field : BudgetField}
    (consuming : Option (String × ResourceUsage))
    (nothing : accounts.reserved parentPid childPid field = 0) :
    accounts.heldAfter parentPid childPid field consuming = 0 := by
  cases consuming with
  | none => exact nothing
  | some pair =>
      obtain ⟨child, usage⟩ := pair
      simp [heldAfter_some, nothing, usage.total_nonneg field]

theorem heldAfter_at (owner parentPid child : String) (field : BudgetField)
    (consuming : Option (String × ResourceUsage)) :
    accounts.reservations.at_
        (fun key row => if key.1 = parentPid then rowHeld field consuming key.2 row else 0)
        (owner, child) =
      if owner = parentPid then accounts.heldAfter parentPid child field consuming else 0 := by
  by_cases same : owner = parentPid
  · subst same
    simp [heldAfter, Table.at_]
  · cases stored : accounts.reservations.get (owner, child) <;> simp [Table.at_, stored, same]

theorem reservedBudgetValue_eq (known : accounts.Scoped forest) (parentPid : String)
    (field : BudgetField) (consuming : Option (String × ResourceUsage)) :
    accounts.reservedBudgetValue parentPid field consuming =
      ∑ child ∈ forest.pids, accounts.heldAfter parentPid child field consuming := by
  classical
  have inject : Set.InjOn (fun child => (parentPid, child)) (forest.pids : Set String) :=
    fun _ _ _ _ same => congrArg Prod.snd same
  have keys : accounts.reservations.keys ⊆ accounts.reservations.keys ∪
      forest.pids.image fun child => (parentPid, child) := Finset.subset_union_left
  rw [reservedBudgetValue, Table.sum_eq_of_subset _ _ keys, ← Finset.sum_subset Finset.subset_union_right, Finset.sum_image inject]
  · exact Finset.sum_congr rfl fun child _ => by rw [heldAfter_at, if_pos rfl]
  · rintro ⟨owner, child⟩ _ outside
    rw [heldAfter_at]
    split_ifs with same
    · refine heldAfter_of_zero consuming (by_contra fun held => outside ?_)
      have link := forest.linked child parentPid (known parentPid child field held)
      exact Finset.mem_image.mpr ⟨child, link.1, by rw [same]⟩
    · rfl

/-! ## What a process has committed -/

/-- Usage, budgets held for children and active usage beyond these: what the source compares with
the limit. -/
def committed (forest : ProcessForest) (accounts : Accounts) (pid : String)
    (field : BudgetField) : ℚ :=
  (accounts.usage pid).total field + accounts.reservedBudgetValue pid field none +
    accounts.reservedUsageValue forest pid field

/-- A child costs its parent the larger of its reservation and its active usage. -/
def childCost (forest : ProcessForest) (accounts : Accounts) (pid child : String)
    (field : BudgetField) : ℚ :=
  max (accounts.reserved pid child field)
    (accounts.activeUsage forest pid field (fun below => below = some child))

theorem committed_eq (known : accounts.Scoped forest) (pid : String) (field : BudgetField) :
    accounts.committed forest pid field = (accounts.usage pid).total field +
      accounts.ownEnvelope pid field + ∑ child ∈ forest.pids, accounts.childCost forest pid child field := by
  have split : ∀ child, accounts.childCost forest pid child field =
      accounts.reserved pid child field + max 0
        (accounts.activeUsage forest pid field (fun below => below = some child) -
          accounts.reserved pid child field) := by
    intro child
    rw [childCost, ← max_add_add_left]
    simp
  rw [committed, reservedBudgetValue_eq known, reservedUsageValue, activeUsage_own]
  simp only [heldAfter_none, split, Finset.sum_add_distrib]
  ring

/-- Own usage and the active usage of the whole tree below are committed. -/
theorem usage_add_envelope_le (known : accounts.Scoped forest) (pid : String)
    (field : BudgetField) :
    (accounts.usage pid).total field + accounts.envelope forest pid field ≤
      accounts.committed forest pid field := by
  have children : ∑ child ∈ forest.pids,
      accounts.activeUsage forest pid field (fun below => below = some child) ≤
        ∑ child ∈ forest.pids, accounts.childCost forest pid child field :=
    Finset.sum_le_sum fun child _ => le_max_right _ _
  rw [committed_eq known, envelope_eq]
  linarith

end Accounts
end AgentLibOS.Resources
