import Mathlib.Data.List.Nodup
import Mathlib.Data.List.Perm.Basic
import Mathlib.Tactic.Common

namespace AgentLibOS.Library.Assoc
variable {κ ν : Type*} [DecidableEq κ]

/-! Dictionaries as lists of entries. -/

/-- `entries[key] = value`. -/
def put (entries : List (κ × ν)) (key : κ) (value : ν) : List (κ × ν) :=
  match entries with
  | [] => [(key, value)]
  | entry :: entries =>
      if entry.1 = key then (key, value) :: entries else entry :: put entries key value

/-- `entries.get(key)`. -/
def get (entries : List (κ × ν)) (key : κ) : Option ν := entries.lookup key

def keys (entries : List (κ × ν)) : List κ := entries.map Prod.fst

theorem get_cons (entry : κ × ν) (entries : List (κ × ν)) (key : κ) :
    get (entry :: entries) key = if entry.1 = key then some entry.2 else get entries key := by
  rw [get, List.lookup_cons]
  by_cases here : key = entry.1
  · rw [beq_iff_eq.mpr here, if_pos here.symm]
  · rw [beq_eq_false_iff_ne.mpr here, if_neg (Ne.symm here)]
    rfl

theorem get_put (entries : List (κ × ν)) (key other : κ) (value : ν) :
    get (put entries key value) other = if key = other then some value else get entries other := by
  induction entries with
  | nil => rw [put, get_cons]
  | cons entry entries ih =>
      rw [put]
      by_cases here : entry.1 = key
      · rw [if_pos here, get_cons, get_cons, here]
        by_cases same : key = other
        · rw [if_pos same, if_pos same]
        · rw [if_neg same, if_neg same, if_neg same]
      · rw [if_neg here, get_cons, get_cons, ih]
        by_cases same : entry.1 = other
        · have different : key ≠ other := fun equal => here (same.trans equal.symm)
          rw [if_pos same, if_neg different, if_pos same]
        · rw [if_neg same, if_neg same]

theorem get_put_self (entries : List (κ × ν)) (key : κ) (value : ν) :
    get (put entries key value) key = some value := by
  rw [get_put, if_pos rfl]

theorem put_put (entries : List (κ × ν)) (key : κ) (value value' : ν) :
    put (put entries key value) key value' = put entries key value' := by
  induction entries with
  | nil => simp only [put, if_true]
  | cons entry entries ih =>
      rw [put]
      split_ifs with here
      · rw [put, put, if_pos rfl, if_pos here]
      · rw [put, put, if_neg here, if_neg here, ih]

theorem mem_keys_put {entries : List (κ × ν)} {key other : κ} {value : ν} :
    other ∈ keys (put entries key value) ↔ other = key ∨ other ∈ keys entries := by
  unfold keys
  induction entries with
  | nil => simp [put]
  | cons entry entries ih =>
      rw [put]
      split_ifs with here
      · simp [here]
      · rw [List.map_cons, List.mem_cons, ih, List.map_cons, List.mem_cons]
        tauto

theorem put_distinct {entries : List (κ × ν)} (distinct : (keys entries).Nodup) (key : κ) (value : ν) :
    (keys (put entries key value)).Nodup := by
  induction entries with
  | nil => exact List.nodup_singleton key
  | cons entry entries ih =>
      have apart := List.nodup_cons.mp distinct
      rw [put]
      split_ifs with here
      · change (key :: keys entries).Nodup
        rw [← here]
        exact distinct
      · change (entry.1 :: keys (put entries key value)).Nodup
        rw [List.nodup_cons, mem_keys_put]
        refine ⟨?_, ih apart.2⟩
        rintro (same | inside)
        · exact here same
        · exact apart.1 inside

theorem get_of_mem {entries : List (κ × ν)} (distinct : (keys entries).Nodup) {entry : κ × ν}
    (inside : entry ∈ entries) : get entries entry.1 = some entry.2 := by
  induction entries with
  | nil => cases inside
  | cons first entries ih =>
      have apart := List.nodup_cons.mp distinct
      rw [get_cons]
      rcases List.mem_cons.mp inside with rfl | later
      · exact if_pos rfl
      · have other : first.1 ≠ entry.1 := fun same => apart.1 (same ▸ List.mem_map_of_mem later)
        rw [if_neg other, ih apart.2 later]

theorem get_absent {entries : List (κ × ν)} {key : κ} (absent : key ∉ keys entries) :
    get entries key = none := by
  rw [get, List.lookup_eq_none_iff]
  intro entry inside
  have other : key ≠ entry.1 := fun same => absent (same ▸ List.mem_map_of_mem inside)
  simpa using other

/-- With distinct keys the order of the entries does not matter. -/
theorem get_perm {entries entries' : List (κ × ν)} (same : entries.Perm entries')
    (distinct : (keys entries).Nodup) (key : κ) : get entries key = get entries' key := by
  have distinct' : (keys entries').Nodup := (same.map Prod.fst).nodup_iff.mp distinct
  by_cases listed : key ∈ keys entries
  · obtain ⟨entry, inside, rfl⟩ := List.mem_map.mp listed
    rw [get_of_mem distinct inside, get_of_mem distinct' (same.mem_iff.mp inside)]
  · have unlisted : key ∉ keys entries' := fun inside =>
      listed ((same.map Prod.fst).mem_iff.mpr inside)
    rw [get_absent listed, get_absent unlisted]

/-- Entries whose values depend on their keys. -/
theorem get_fold (value : κ → ν) (listed : List κ) (entries : List (κ × ν)) (key : κ) :
    get (listed.foldl (fun entries key => put entries key (value key)) entries) key =
      if key ∈ listed then some (value key) else get entries key := by
  induction listed generalizing entries with
  | nil => rfl
  | cons first listed ih =>
      rw [List.foldl_cons, ih, get_put]
      by_cases later : key ∈ listed
      · rw [if_pos later, if_pos (List.mem_cons_of_mem _ later)]
      · rw [if_neg later]
        by_cases here : first = key
        · rw [if_pos here, if_pos (List.mem_cons.mpr (.inl here.symm)), here]
        · rw [if_neg here, if_neg (by simp [Ne.symm here, later])]

theorem fold_distinct (value : κ → ν) (listed : List κ) {entries : List (κ × ν)}
    (distinct : (keys entries).Nodup) :
    (keys (listed.foldl (fun entries key => put entries key (value key)) entries)).Nodup := by
  induction listed generalizing entries with
  | nil => exact distinct
  | cons first listed ih => exact ih (put_distinct distinct first (value first))

end AgentLibOS.Library.Assoc
