import AgentLibOS.Library.JsonWriter
import Mathlib.Data.List.Sort

namespace AgentLibOS.Library.Json

/-- The order of texts by code points. -/
def textLe : Text → Text → Bool
  | [], _ => true
  | _ :: _, [] => false
  | a :: left, b :: right => a < b || (a == b && textLe left right)

theorem textLe_total (left right : Text) : textLe left right = true ∨ textLe right left = true := by
  induction left generalizing right with
  | nil => exact .inl rfl
  | cons a left ih =>
      cases right with
      | nil => exact .inr rfl
      | cons b right =>
          simp only [textLe, Bool.or_eq_true, Bool.and_eq_true, beq_iff_eq, decide_eq_true_iff]
          rcases Nat.lt_trichotomy a b with less | rfl | more
          · exact .inl (.inl less)
          · exact (ih right).imp (fun le => .inr ⟨rfl, le⟩) fun le => .inr ⟨rfl, le⟩
          · exact .inr (.inl more)

theorem textLe_trans {left middle right : Text} (first : textLe left middle = true)
    (second : textLe middle right = true) : textLe left right = true := by
  induction left generalizing middle right with
  | nil => rfl
  | cons a left ih =>
      cases middle with
      | nil => cases first
      | cons b middle =>
          cases right with
          | nil => cases second
          | cons c right =>
              simp only [textLe, Bool.or_eq_true, Bool.and_eq_true, beq_iff_eq,
                decide_eq_true_iff] at first second ⊢
              rcases first with less | ⟨rfl, le⟩
              · rcases second with less' | ⟨rfl, -⟩
                · exact .inl (less.trans less')
                · exact .inl less
              · exact second.imp id fun later => ⟨later.1, ih le later.2⟩

theorem textLe_refl (text : Text) : textLe text text = true :=
  (textLe_total text text).elim id id

theorem textLe_antisymm {left right : Text} (first : textLe left right = true)
    (second : textLe right left = true) : left = right := by
  induction left generalizing right with
  | nil =>
      cases right with
      | nil => rfl
      | cons b right => cases second
  | cons a left ih =>
      cases right with
      | nil => cases first
      | cons b right =>
          simp only [textLe, Bool.or_eq_true, Bool.and_eq_true, beq_iff_eq,
            decide_eq_true_iff] at first second
          rcases first with less | ⟨rfl, le⟩
          · rcases second with more | ⟨same, -⟩
            · exact absurd (less.trans more) (lt_irrefl a)
            · exact absurd same less.ne'
          · rcases second with more | ⟨-, ge⟩
            · exact absurd more (lt_irrefl a)
            · rw [ih le ge]

/-- Entries stand in the order of their keys. -/
def keyLe {α : Type} (left right : Text × α) : Prop := textLe left.1 right.1 = true

instance {α : Type} : DecidableRel (keyLe (α := α)) := fun left right =>
  inferInstanceAs (Decidable (textLe left.1 right.1 = true))

instance {α : Type} : Std.Total (keyLe (α := α)) := ⟨fun left right => textLe_total left.1 right.1⟩

instance {α : Type} : IsTrans (Text × α) keyLe := ⟨fun _ _ _ => textLe_trans⟩

namespace JsonTree
variable {α : Type}

mutual

/-- The value with the keys of every object in order. -/
def sorted : JsonTree α → JsonTree α
  | .leaf value => .leaf value
  | .list items => .list (sortedItems items)
  | .dict entries => .dict ((sortedEntries entries).insertionSort keyLe)

def sortedItems : List (JsonTree α) → List (JsonTree α)
  | [] => []
  | item :: items => item.sorted :: sortedItems items

def sortedEntries : List (Text × JsonTree α) → List (Text × JsonTree α)
  | [] => []
  | (key, value) :: entries => (key, value.sorted) :: sortedEntries entries

end

theorem sortedItems_eq (items : List (JsonTree α)) : sortedItems items = items.map sorted := by
  induction items with
  | nil => rfl
  | cons item items ih => rw [sortedItems, ih, List.map_cons]

def sortEntry (entry : Text × JsonTree α) : Text × JsonTree α := (entry.1, entry.2.sorted)

theorem sortedEntries_eq (entries : List (Text × JsonTree α)) :
    sortedEntries entries = entries.map sortEntry := by
  induction entries with
  | nil => rfl
  | cons entry entries ih => rw [sortedEntries, ih, List.map_cons, sortEntry]

/-- The entries of a sorted object. -/
theorem sorted_perm (entries : List (Text × JsonTree α)) :
    ((sortedEntries entries).insertionSort keyLe).Perm (entries.map sortEntry) := by
  rw [← sortedEntries_eq]
  exact List.perm_insertionSort _ _

theorem forall_sorted {entries : List (Text × JsonTree α)} {P : Text × JsonTree α → Prop} :
    (∀ entry ∈ (sortedEntries entries).insertionSort keyLe, P entry) ↔
      ∀ entry ∈ entries, P (sortEntry entry) := by
  have same : (∀ entry ∈ (sortedEntries entries).insertionSort keyLe, P entry) ↔
      ∀ entry ∈ entries.map sortEntry, P entry :=
    forall_congr' fun entry => by rw [(sorted_perm entries).mem_iff]
  rw [same, List.forall_mem_map]

theorem sorted_sorted (tree : JsonTree α) : tree.sorted.sorted = tree.sorted := by
  induction tree using induct with
  | leaf value => rfl
  | list items ih =>
      rw [sorted, sorted, sortedItems_eq, sortedItems_eq, List.map_map]
      congr 1
      exact List.map_congr_left ih
  | dict entries ih =>
      have again : (entries.map sortEntry).map sortEntry = entries.map sortEntry := by
        rw [List.map_map]
        apply List.map_congr_left
        intro entry inside
        change (entry.1, entry.2.sorted.sorted) = (entry.1, entry.2.sorted)
        rw [ih entry inside]
      rw [sorted, sorted, sortedEntries_eq, sortedEntries_eq]
      congr 1
      rw [List.map_insertionSort keyLe keyLe sortEntry _ fun _ _ _ _ => Iff.rfl, again]
      exact (List.pairwise_insertionSort keyLe _).insertionSort_eq

theorem sorted_all {leaf : α → Prop} {key : Text → Prop} {tree : JsonTree α} :
    tree.sorted.All leaf key ↔ tree.All leaf key := by
  induction tree using induct with
  | leaf value => exact Iff.rfl
  | list items ih =>
      rw [sorted, All, All, allItems_iff, allItems_iff, sortedItems_eq, List.forall_mem_map]
      exact forall₂_congr ih
  | dict entries ih =>
      rw [sorted, All, All, allEntries_iff, allEntries_iff, forall_sorted]
      exact forall₂_congr fun entry inside => and_congr_right fun _ => ih entry inside

theorem sorted_distinct {tree : JsonTree α} : tree.sorted.distinct = tree.distinct := by
  induction tree using induct with
  | leaf value => rfl
  | list items ih =>
      rw [sorted, distinct, distinct, Bool.eq_iff_iff, itemsDistinct_iff, itemsDistinct_iff,
        sortedItems_eq, List.forall_mem_map]
      exact forall₂_congr fun item inside => by rw [ih item inside]
  | dict entries ih =>
      have keys : (((sortedEntries entries).insertionSort keyLe).map Prod.fst).Perm
          (entries.map Prod.fst) := by
        have mapped := (sorted_perm entries).map Prod.fst
        rwa [List.map_map] at mapped
      have values : (∀ entry ∈ (sortedEntries entries).insertionSort keyLe,
          entry.2.distinct = true) ↔ ∀ entry ∈ entries, entry.2.distinct = true := by
        rw [forall_sorted]
        exact forall₂_congr fun entry inside => by rw [sortEntry, ih entry inside]
      rw [sorted, distinct, distinct, Bool.eq_iff_iff, Bool.and_eq_true, Bool.and_eq_true,
        entriesDistinct_iff, entriesDistinct_iff, decide_eq_true_iff, decide_eq_true_iff,
        keys.nodup_iff, values]

end JsonTree

/-- `json.dumps` with `sort_keys`. -/
def dumps {φ : Type} (repr : φ → Text) (style : Style) (value : JsonTree (Scalar φ)) : Text :=
  write repr style 0 value.sorted

theorem document_dumps {φ : Type} {repr : φ → Text} {style : Style} (ascii : style.ascii = true)
    {tree : JsonTree (Scalar φ)} (writable : Writable repr tree) :
    document (dumps repr style tree) = some (tree.sorted.map (Scalar.token repr)) :=
  document_write ascii (JsonTree.sorted_all.mpr writable) 0

end AgentLibOS.Library.Json
