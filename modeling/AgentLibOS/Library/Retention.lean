import Mathlib.Data.List.Basic
import Mathlib.Data.List.Nodup

namespace AgentLibOS.Library

/-- A dictionary whose entries stand in the order of their last use. -/
structure Retention (κ ν : Type*) where
  entries : List (κ × ν)
  distinct : (entries.map Prod.fst).Nodup

namespace Retention
variable {κ ν : Type*}

def empty : Retention κ ν := ⟨[], List.nodup_nil⟩

/-- Only the newest `limit` entries stay. -/
def evict (table : Retention κ ν) (limit : Nat) : Retention κ ν where
  entries := table.entries.drop (table.entries.length - limit)
  distinct := by
    rw [List.map_drop]
    exact table.distinct.sublist (List.drop_sublist _ _)

variable [DecidableEq κ]

def get (table : Retention κ ν) (k : κ) : Option ν := table.entries.lookup k

/-- The entry of `k` becomes the newest one. -/
def put (table : Retention κ ν) (k : κ) (v : ν) : Retention κ ν where
  entries := table.entries.filter (fun entry => entry.1 ≠ k) ++ [(k, v)]
  distinct := by
    rw [List.map_append, List.nodup_append]
    refine ⟨table.distinct.sublist (List.filter_sublist.map _), by simp, ?_⟩
    intro k' member other here
    obtain ⟨entry, kept, rfl⟩ := List.mem_map.mp member
    have apart := (List.mem_filter.mp kept).2
    obtain rfl : other = k := by simpa using here
    simpa using apart

/-- A use of `k`. -/
def touch (table : Retention κ ν) (k : κ) : Retention κ ν :=
  match table.get k with
  | none => table
  | some v => table.put k v

theorem lookup_iff {entries : List (κ × ν)} (distinct : (entries.map Prod.fst).Nodup) {k : κ}
    {v : ν} : entries.lookup k = some v ↔ (k, v) ∈ entries := by
  induction entries with
  | nil => simp
  | cons entry entries ih =>
      obtain ⟨key, value⟩ := entry
      rw [List.map_cons, List.nodup_cons] at distinct
      rw [List.lookup_cons, List.mem_cons]
      by_cases same : k = key
      · subst same
        simp only [beq_self_eq_true]
        constructor
        · rintro ⟨⟩
          exact Or.inl rfl
        · rintro (here | later)
          · cases here
            rfl
          · exact absurd (List.mem_map.mpr ⟨_, later, rfl⟩) distinct.1
      · have apart : (k == key) = false := by simpa using same
        simp only [apart, ih distinct.2]
        constructor
        · exact Or.inr
        · rintro (here | later)
          · cases here
            exact absurd rfl same
          · exact later

theorem get_iff (table : Retention κ ν) {k : κ} {v : ν} :
    table.get k = some v ↔ (k, v) ∈ table.entries :=
  lookup_iff table.distinct

@[simp] theorem get_empty (k : κ) : (empty : Retention κ ν).get k = none := rfl

@[simp] theorem get_put (table : Retention κ ν) (k k' : κ) (v : ν) :
    (table.put k v).get k' = if k' = k then some v else table.get k' := by
  apply Option.ext
  intro v'
  rw [get_iff]
  by_cases same : k' = k
  · subst same
    simp [put, eq_comm]
  · rw [if_neg same, get_iff]
    simp [put, same]

@[simp] theorem get_touch (table : Retention κ ν) (k k' : κ) :
    (table.touch k).get k' = table.get k' := by
  unfold touch
  split
  · rfl
  · rename_i found
    rw [get_put]
    split_ifs with same
    · rw [same, found]
    · rfl

/-- What is left after an eviction was there before it. -/
theorem get_evict {table : Retention κ ν} {limit : Nat} {k : κ} {v : ν}
    (found : (table.evict limit).get k = some v) : table.get k = some v := by
  rw [get_iff] at found ⊢
  exact List.mem_of_mem_drop found

/-- The newest entry survives an eviction. -/
theorem get_put_evict (table : Retention κ ν) (k : κ) (v : ν) {limit : Nat} (positive : 0 < limit) :
    ((table.put k v).evict limit).get k = some v := by
  rw [get_iff]
  have shape : ((table.put k v).evict limit).entries =
      ((table.entries.filter fun entry => entry.1 ≠ k) ++ [(k, v)]).drop
        ((table.entries.filter fun entry => entry.1 ≠ k).length + 1 - limit) := by
    simp [evict, put]
  rw [shape, List.drop_append_of_le_length (by omega)]
  simp

end Retention
end AgentLibOS.Library
