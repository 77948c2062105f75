import Mathlib.Algebra.Order.BigOperators.Group.Finset

namespace AgentLibOS.Library

/-- A finite keyed table. -/
structure Table (κ ν : Type*) where
  keys : Finset κ
  get : κ → Option ν
  mem : ∀ k, k ∈ keys ↔ (get k).isSome = true

namespace Table
variable {κ ν M : Type*}

def empty : Table κ ν := ⟨∅, fun _ => none, by simp⟩

def restrict (table : Table κ ν) (keep : κ → Bool) : Table κ ν where
  keys := table.keys.filter fun k => keep k
  get := fun k => if keep k then table.get k else none
  mem := by
    intro k
    by_cases kept : keep k = true <;> simp [kept, table.mem]

def set [DecidableEq κ] (table : Table κ ν) (k : κ) (v : ν) : Table κ ν where
  keys := insert k table.keys
  get := fun k' => if k' = k then some v else table.get k'
  mem := by
    intro k'
    by_cases same : k' = k <;> simp [same, table.mem]

@[simp] theorem empty_get (k : κ) : (empty : Table κ ν).get k = none := rfl

@[simp] theorem restrict_get (table : Table κ ν) (keep : κ → Bool) (k : κ) :
    (table.restrict keep).get k = if keep k then table.get k else none := rfl

@[simp] theorem set_get [DecidableEq κ] (table : Table κ ν) (k k' : κ) (v : ν) :
    (table.set k v).get k' = if k' = k then some v else table.get k' := rfl

/-! ## Weights -/

section Sum
variable [AddCommMonoid M]

def at_ (table : Table κ ν) (weight : κ → ν → M) (k : κ) : M := (table.get k).elim 0 (weight k)

/-- The weight of all entries. -/
def sum (table : Table κ ν) (weight : κ → ν → M) : M := ∑ k ∈ table.keys, table.at_ weight k

@[simp] theorem empty_sum (weight : κ → ν → M) : (empty : Table κ ν).sum weight = 0 := rfl

theorem at_of_not_mem {table : Table κ ν} {weight : κ → ν → M} {k : κ} (absent : k ∉ table.keys) :
    table.at_ weight k = 0 := by
  have : table.get k = none := by simpa [table.mem] using absent
  simp [at_, this]

theorem sum_eq_of_subset (table : Table κ ν) (weight : κ → ν → M) {keys : Finset κ}
    (covers : table.keys ⊆ keys) : table.sum weight = ∑ k ∈ keys, table.at_ weight k :=
  Finset.sum_subset covers fun _ _ absent => at_of_not_mem absent

theorem at_add (table : Table κ ν) (left right : κ → ν → M) (k : κ) :
    table.at_ (fun k v => left k v + right k v) k = table.at_ left k + table.at_ right k := by
  unfold at_
  cases table.get k <;> simp

theorem sum_add (table : Table κ ν) (left right : κ → ν → M) :
    table.sum (fun k v => left k v + right k v) = table.sum left + table.sum right := by
  simp only [sum, at_add, Finset.sum_add_distrib]

theorem sum_finset {ι : Type*} (table : Table κ ν) (indices : Finset ι) (weight : ι → κ → ν → M) :
    table.sum (fun k v => ∑ i ∈ indices, weight i k v) = ∑ i ∈ indices, table.sum (weight i) := by
  simp only [sum]
  rw [Finset.sum_comm]
  refine Finset.sum_congr rfl fun k _ => ?_
  unfold at_
  cases table.get k <;> simp

@[simp] theorem sum_zero (table : Table κ ν) : table.sum (fun _ _ => (0 : M)) = 0 := by
  refine Finset.sum_eq_zero fun k _ => ?_
  unfold at_
  cases table.get k <;> rfl

theorem sum_congr {table : Table κ ν} {left right : κ → ν → M}
    (same : ∀ k v, table.get k = some v → left k v = right k v) :
    table.sum left = table.sum right := by
  refine Finset.sum_congr rfl fun k _ => ?_
  unfold at_
  cases entry : table.get k with
  | none => rfl
  | some v => exact same k v entry

variable [DecidableEq κ]

/-- Weights that differ at one key only. -/
theorem sum_change (table : Table κ ν) (left right : κ → ν → M) (k : κ)
    (same : ∀ k' v, k' ≠ k → left k' v = right k' v) :
    table.sum left + table.at_ right k = table.sum right + table.at_ left k := by
  have member : k ∈ insert k table.keys := Finset.mem_insert_self k table.keys
  have others : ∑ k' ∈ (insert k table.keys).erase k, table.at_ left k' =
      ∑ k' ∈ (insert k table.keys).erase k, table.at_ right k' := by
    refine Finset.sum_congr rfl fun k' inside => ?_
    unfold at_
    cases table.get k' with
    | none => rfl
    | some v => exact same k' v (Finset.ne_of_mem_erase inside)
  rw [sum_eq_of_subset table left (Finset.subset_insert k table.keys),
    sum_eq_of_subset table right (Finset.subset_insert k table.keys),
    ← Finset.add_sum_erase _ _ member, others,
    ← Finset.add_sum_erase _ (fun k' => table.at_ right k') member, add_right_comm,
    add_comm (table.at_ left k), add_right_comm]

theorem sum_ext {left right : Table κ ν} {weight : κ → ν → M}
    (same : ∀ k, left.at_ weight k = right.at_ weight k) : left.sum weight = right.sum weight := by
  have inLeft : left.keys ⊆ left.keys ∪ right.keys := Finset.subset_union_left
  have inRight : right.keys ⊆ left.keys ∪ right.keys := Finset.subset_union_right
  rw [sum_eq_of_subset left weight inLeft, sum_eq_of_subset right weight inRight]
  exact Finset.sum_congr rfl fun k _ => same k

theorem at_set (table : Table κ ν) (weight : κ → ν → M) (k k' : κ) (v : ν) :
    (table.set k v).at_ weight k' = if k' = k then weight k v else table.at_ weight k' := by
  by_cases same : k' = k
  · subst same
    simp [at_]
  · simp [at_, same]

/-- Writing one entry exchanges its weight. -/
theorem sum_set (table : Table κ ν) (weight : κ → ν → M) (k : κ) (v : ν) :
    (table.set k v).sum weight + table.at_ weight k = table.sum weight + weight k v := by
  have member : k ∈ insert k table.keys := Finset.mem_insert_self k table.keys
  have others : ∑ k' ∈ (insert k table.keys).erase k, (table.set k v).at_ weight k' =
      ∑ k' ∈ (insert k table.keys).erase k, table.at_ weight k' := by
    refine Finset.sum_congr rfl fun k' inside => ?_
    rw [at_set, if_neg (Finset.ne_of_mem_erase inside)]
  rw [sum_eq_of_subset table weight (Finset.subset_insert k table.keys),
    sum_eq_of_subset (table.set k v) weight (Finset.Subset.refl (insert k table.keys)),
    ← Finset.add_sum_erase _ _ member, others,
    ← Finset.add_sum_erase _ (fun k' => table.at_ weight k') member, at_set, if_pos rfl]
  rw [add_right_comm, add_right_comm _ _ (weight k v), add_comm (weight k v)]

end Sum

theorem sum_nonneg [AddCommMonoid M] [PartialOrder M] [IsOrderedAddMonoid M] {table : Table κ ν}
    {weight : κ → ν → M} (nonneg : ∀ k v, table.get k = some v → 0 ≤ weight k v) :
    0 ≤ table.sum weight := by
  refine Finset.sum_nonneg fun k _ => ?_
  unfold at_
  cases entry : table.get k with
  | none => exact le_rfl
  | some v => exact nonneg k v entry

end Table
end AgentLibOS.Library
