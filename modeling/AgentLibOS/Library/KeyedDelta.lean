import Mathlib.Data.List.Dedup
import Mathlib.Data.List.Sort

namespace AgentLibOS.Library.KeyedDelta
variable {ι κ : Type*} [LE κ] [DecidableLE κ] [DecidableEq κ] (key : ι → κ)

/-- What a list holds under a key; a later item takes the place of an earlier one. -/
def latest (items : List ι) (k : κ) : Option ι := items.reverse.find? fun item => key item = k

/-- The items that are new or changed, and the keys that are gone. -/
structure Delta (ι κ : Type*) where
  upserted : List ι
  removed : List κ

variable [DecidableEq ι]

def delta (previous current : List ι) : Delta ι κ where
  upserted := current.filter fun item => latest key previous (key item) ≠ some item
  removed := ((previous.map key).filter fun k => k ∉ current.map key).dedup.insertionSort (· ≤ ·)

/-- What is known by key after a delta. -/
def applied (known : κ → Option ι) (change : Delta ι κ) (k : κ) : Option ι :=
  if k ∈ change.removed then none
  else match latest key change.upserted k with
    | some item => some item
    | none => known k

variable {key}

omit [DecidableEq ι] in
theorem latest_none {items : List ι} {k : κ} : latest key items k = none ↔ k ∉ items.map key := by
  simp only [latest, List.find?_eq_none, List.mem_reverse, decide_eq_true_eq, List.mem_map, not_exists,
    not_and]

omit [DecidableEq ι] in
theorem latest_some {items : List ι} {k : κ} {item : ι} (found : latest key items k = some item) :
    item ∈ items ∧ key item = k := by
  have known := List.find?_some found
  exact ⟨List.mem_reverse.mp (List.mem_of_find?_eq_some found), of_decide_eq_true known⟩

omit [DecidableEq ι] in
/-- Among distinct keys the item itself is found. -/
theorem latest_of_mem {items : List ι} (distinct : (items.map key).Nodup) {item : ι}
    (inside : item ∈ items) : latest key items (key item) = some item := by
  cases found : latest key items (key item) with
  | none => exact absurd (List.mem_map_of_mem inside) (latest_none.mp found)
  | some other =>
      obtain ⟨there, same⟩ := latest_some found
      rw [List.inj_on_of_nodup_map distinct there inside same]

theorem mem_removed {previous current : List ι} {k : κ} :
    k ∈ (delta key previous current).removed ↔ k ∈ previous.map key ∧ k ∉ current.map key := by
  simp only [delta, List.mem_insertionSort, List.mem_dedup, List.mem_filter, decide_eq_true_eq]

theorem mem_upserted {previous current : List ι} {item : ι} :
    item ∈ (delta key previous current).upserted ↔
      item ∈ current ∧ latest key previous (key item) ≠ some item := by
  simp only [delta, List.mem_filter, decide_eq_true_eq]

/-- A delta takes what is known of the old list to what the new one holds. -/
theorem applied_delta {previous current : List ι} (distinct : (current.map key).Nodup)
    {known : κ → Option ι} (exact : known = latest key previous) :
    applied key known (delta key previous current) = latest key current := by
  funext k
  have distinct' : ((delta key previous current).upserted.map key).Nodup :=
    distinct.sublist (List.filter_sublist.map key)
  rw [applied]
  split_ifs with gone
  · exact (latest_none.mpr (mem_removed.mp gone).2).symm
  · cases fresh : latest key (delta key previous current).upserted k with
    | some item =>
        obtain ⟨inside, rfl⟩ := latest_some fresh
        exact (latest_of_mem distinct (mem_upserted.mp inside).1).symm
    | none =>
        have unlisted := latest_none.mp fresh
        cases held : latest key current k with
        | none =>
            have absent : k ∉ previous.map key := fun before =>
              gone (mem_removed.mpr ⟨before, latest_none.mp held⟩)
            rw [exact, latest_none.mpr absent]
        | some item =>
            obtain ⟨inside, rfl⟩ := latest_some held
            rw [exact]
            by_contra changed
            exact unlisted (List.mem_map_of_mem (mem_upserted.mpr ⟨inside, changed⟩))

/-- Of the keys alone, a delta takes the old ones to the new ones. -/
theorem applied_keys {previous current : List ι} (k : κ) :
    (k ∈ previous.map key ∨ k ∈ (delta key previous current).upserted.map key) ∧
      k ∉ (delta key previous current).removed ↔ k ∈ current.map key := by
  constructor
  · rintro ⟨before | fresh, stays⟩
    · by_contra gone
      exact stays (mem_removed.mpr ⟨before, gone⟩)
    · obtain ⟨item, inside, rfl⟩ := List.mem_map.mp fresh
      exact List.mem_map_of_mem (mem_upserted.mp inside).1
  · intro now
    refine ⟨?_, fun gone => (mem_removed.mp gone).2 now⟩
    by_cases before : k ∈ previous.map key
    · exact .inl before
    · obtain ⟨item, inside, rfl⟩ := List.mem_map.mp now
      right
      refine List.mem_map_of_mem (mem_upserted.mpr ⟨inside, ?_⟩)
      rw [latest_none.mpr before]
      exact Option.some_ne_none item |>.symm

end AgentLibOS.Library.KeyedDelta
