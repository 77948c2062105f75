import AgentLibOS.Library.Run
import AgentLibOS.Library.Text
import Mathlib.Data.List.Nodup

namespace AgentLibOS.Library.Json

/-! ## Trees -/

/-- The code points of a text, with surrogates. -/
abbrev Text := List Nat

instance Text.lawfulBEq : @LawfulBEq Text List.instBEq := inferInstance

def codes (text : String) : Text := text.toList.map Char.toNat

/-- `str.isspace` of a code point. -/
def isSpacePoint (c : Nat) : Bool :=
  (0x9 ≤ c && c ≤ 0xd) || (0x1c ≤ c && c ≤ 0x20) || c == 0x85 || c == 0xa0 || c == 0x1680 ||
    (0x2000 ≤ c && c ≤ 0x200a) || c == 0x2028 || c == 0x2029 || c == 0x202f || c == 0x205f ||
    c == 0x3000

def stripText (text : Text) : Text := Text.strip isSpacePoint text

inductive JsonTree (α : Type)
  | leaf (value : α)
  | list (items : List (JsonTree α))
  | dict (entries : List (Text × JsonTree α))

namespace JsonTree
variable {α β : Type}

theorem induct {motive : JsonTree α → Prop} (leaf : ∀ value, motive (.leaf value))
    (list : ∀ items, (∀ item ∈ items, motive item) → motive (.list items))
    (dict : ∀ entries, (∀ entry ∈ entries, motive entry.2) → motive (.dict entries)) :
    ∀ tree, motive tree := by
  intro tree
  apply JsonTree.rec (motive_1 := motive) (motive_2 := fun items => ∀ item ∈ items, motive item)
    (motive_3 := fun entries => ∀ entry ∈ entries, motive entry.2)
    (motive_4 := fun entry => motive entry.2)
  · exact leaf
  · exact list
  · exact dict
  · simp
  · intro item items here later
    simpa using ⟨here, later⟩
  · simp
  · intro entry entries here later
    simpa using ⟨here, fun key value inside => later (key, value) inside⟩
  · intro key value here
    exact here

mutual

/-- How deep the containers nest. -/
def depth : JsonTree α → Nat
  | .leaf _ => 0
  | .list items => 1 + itemsDepth items
  | .dict entries => 1 + entriesDepth entries

def itemsDepth : List (JsonTree α) → Nat
  | [] => 0
  | item :: items => max item.depth (itemsDepth items)

def entriesDepth : List (Text × JsonTree α) → Nat
  | [] => 0
  | (_, value) :: entries => max value.depth (entriesDepth entries)

end

theorem itemsDepth_le {items : List (JsonTree α)} {bound : Nat} :
    itemsDepth items ≤ bound ↔ ∀ item ∈ items, item.depth ≤ bound := by
  induction items with
  | nil => simp [itemsDepth]
  | cons item items ih => rw [itemsDepth, Nat.max_le, ih, List.forall_mem_cons]

theorem entriesDepth_eq (entries : List (Text × JsonTree α)) :
    entriesDepth entries = itemsDepth (entries.map Prod.snd) := by
  induction entries with
  | nil => rfl
  | cons entry entries ih => rw [List.map_cons, itemsDepth, ← ih, entriesDepth]

mutual

/-- The number of values, keys apart. -/
def size : JsonTree α → Nat
  | .leaf _ => 1
  | .list items => 1 + itemsSize items
  | .dict entries => 1 + entriesSize entries

def itemsSize : List (JsonTree α) → Nat
  | [] => 0
  | item :: items => item.size + itemsSize items

def entriesSize : List (Text × JsonTree α) → Nat
  | [] => 0
  | (_, value) :: entries => value.size + entriesSize entries

end

theorem size_pos (tree : JsonTree α) : 0 < tree.size := by
  cases tree <;> (rw [size]; omega)

theorem entriesSize_eq (entries : List (Text × JsonTree α)) :
    entriesSize entries = itemsSize (entries.map Prod.snd) := by
  induction entries with
  | nil => rfl
  | cons entry entries ih => rw [List.map_cons, itemsSize, ← ih, entriesSize]

theorem itemsSize_append (left right : List (JsonTree α)) :
    itemsSize (left ++ right) = itemsSize left + itemsSize right := by
  induction left with
  | nil => simp [itemsSize]
  | cons item left ih => rw [List.cons_append, itemsSize, itemsSize, ih, Nat.add_assoc]

theorem itemsSize_reverse (items : List (JsonTree α)) : itemsSize items.reverse = itemsSize items := by
  induction items with
  | nil => rfl
  | cons item items ih =>
      rw [List.reverse_cons, itemsSize_append, ih, itemsSize, itemsSize, itemsSize]
      omega

mutual

/-- No object names a key twice. -/
def distinct : JsonTree α → Bool
  | .leaf _ => true
  | .list items => itemsDistinct items
  | .dict entries => decide (entries.map Prod.fst).Nodup && entriesDistinct entries

def itemsDistinct : List (JsonTree α) → Bool
  | [] => true
  | item :: items => item.distinct && itemsDistinct items

def entriesDistinct : List (Text × JsonTree α) → Bool
  | [] => true
  | (_, value) :: entries => value.distinct && entriesDistinct entries

end

theorem itemsDistinct_iff {items : List (JsonTree α)} :
    itemsDistinct items = true ↔ ∀ item ∈ items, item.distinct = true := by
  induction items with
  | nil => simp [itemsDistinct]
  | cons item items ih => simp [itemsDistinct, ih]

theorem entriesDistinct_iff {entries : List (Text × JsonTree α)} :
    entriesDistinct entries = true ↔ ∀ entry ∈ entries, entry.2.distinct = true := by
  induction entries with
  | nil => simp [entriesDistinct]
  | cons entry entries ih =>
      rw [entriesDistinct, Bool.and_eq_true, ih, List.forall_mem_cons]

mutual

def map (f : α → β) : JsonTree α → JsonTree β
  | .leaf value => .leaf (f value)
  | .list items => .list (mapItems f items)
  | .dict entries => .dict (mapEntries f entries)

def mapItems (f : α → β) : List (JsonTree α) → List (JsonTree β)
  | [] => []
  | item :: items => item.map f :: mapItems f items

def mapEntries (f : α → β) : List (Text × JsonTree α) → List (Text × JsonTree β)
  | [] => []
  | (key, value) :: entries => (key, value.map f) :: mapEntries f entries

end

section
variable (leaf : α → Prop) (key : Text → Prop)

mutual

/-- Every leaf and every key of the tree is so. -/
def All : JsonTree α → Prop
  | .leaf value => leaf value
  | .list items => AllItems items
  | .dict entries => AllEntries entries

def AllItems : List (JsonTree α) → Prop
  | [] => True
  | item :: items => All item ∧ AllItems items

def AllEntries : List (Text × JsonTree α) → Prop
  | [] => True
  | (name, value) :: entries => key name ∧ All value ∧ AllEntries entries

end

variable {leaf key}

theorem allItems_iff {items : List (JsonTree α)} :
    AllItems leaf key items ↔ ∀ item ∈ items, item.All leaf key := by
  induction items with
  | nil => simp [AllItems]
  | cons item items ih => rw [AllItems, ih, List.forall_mem_cons]

theorem allEntries_iff {entries : List (Text × JsonTree α)} :
    AllEntries leaf key entries ↔ ∀ entry ∈ entries, key entry.1 ∧ entry.2.All leaf key := by
  induction entries with
  | nil => simp [AllEntries]
  | cons entry entries ih => rw [AllEntries, ih, List.forall_mem_cons, and_assoc]

theorem All.both {leaf' leaf'' : α → Prop} {key' key'' : Text → Prop} {tree : JsonTree α}
    (first : tree.All leaf key) (second : tree.All leaf' key')
    (leaves : ∀ value, leaf value → leaf' value → leaf'' value)
    (keys : ∀ name, key name → key' name → key'' name) : tree.All leaf'' key'' := by
  induction tree using JsonTree.induct with
  | leaf value => exact leaves value first second
  | list items ih =>
      rw [All, allItems_iff] at first second ⊢
      exact fun item inside => ih item inside (first item inside) (second item inside)
  | dict entries ih =>
      rw [All, allEntries_iff] at first second ⊢
      exact fun entry inside => ⟨keys _ (first entry inside).1 (second entry inside).1,
        ih entry inside (first entry inside).2 (second entry inside).2⟩

end

section
variable {ε : Type} (leaf : α → Except ε β) (object : List (Text × JsonTree β) → Except ε (JsonTree β))

mutual

/-- The value that hooks for the leaves and the objects of a tree make of it, inner ones first. -/
def build : JsonTree α → Except ε (JsonTree β)
  | .leaf value => (leaf value).map .leaf
  | .list items => (buildItems items).map .list
  | .dict entries => buildEntries entries >>= object

def buildItems : List (JsonTree α) → Except ε (List (JsonTree β))
  | [] => .ok []
  | item :: items => do
      let built ← build item
      let rest ← buildItems items
      .ok (built :: rest)

def buildEntries : List (Text × JsonTree α) → Except ε (List (Text × JsonTree β))
  | [] => .ok []
  | (key, value) :: entries => do
      let built ← build value
      let rest ← buildEntries entries
      .ok ((key, built) :: rest)

end

variable {leaf object}

theorem forall₂_left {γ δ : Type} {R : γ → δ → Prop} {inputs : List γ} {results : List δ}
    (related : List.Forall₂ R inputs results) : ∀ a ∈ inputs, ∃ b ∈ results, R a b := by
  induction related with
  | nil => simp
  | cons here later ih =>
      rw [List.forall_mem_cons]
      refine ⟨⟨_, List.mem_cons_self, here⟩, fun a inside => ?_⟩
      obtain ⟨b, listed, related⟩ := ih a inside
      exact ⟨b, List.mem_cons_of_mem _ listed, related⟩

theorem buildItems_ok {items : List (JsonTree α)} {results : List (JsonTree β)} :
    buildItems leaf object items = .ok results ↔
      List.Forall₂ (fun item result => build leaf object item = .ok result) items results := by
  induction items generalizing results with
  | nil =>
      rw [buildItems, List.forall₂_nil_left_iff, Except.ok.injEq]
      exact eq_comm
  | cons item items ih =>
      rw [buildItems, List.forall₂_cons_left_iff]
      simp only [Run.bind_eq_ok, Except.ok.injEq, ih]
      constructor
      · rintro ⟨built, here, rest, later, rfl⟩
        exact ⟨built, rest, here, later, rfl⟩
      · rintro ⟨built, rest, here, later, rfl⟩
        exact ⟨built, here, rest, later, rfl⟩

theorem buildEntries_ok {entries : List (Text × JsonTree α)} {results : List (Text × JsonTree β)} :
    buildEntries leaf object entries = .ok results ↔
      List.Forall₂ (fun entry result => entry.1 = result.1 ∧
        build leaf object entry.2 = .ok result.2) entries results := by
  induction entries generalizing results with
  | nil =>
      rw [buildEntries, List.forall₂_nil_left_iff, Except.ok.injEq]
      exact eq_comm
  | cons entry entries ih =>
      obtain ⟨key, value⟩ := entry
      rw [buildEntries, List.forall₂_cons_left_iff]
      simp only [Run.bind_eq_ok, Except.ok.injEq, ih]
      constructor
      · rintro ⟨built, here, rest, later, rfl⟩
        exact ⟨(key, built), rest, ⟨rfl, here⟩, later, rfl⟩
      · rintro ⟨⟨key', built⟩, rest, ⟨same, here⟩, later, rfl⟩
        cases same
        exact ⟨built, here, rest, later, rfl⟩

end

section
variable {ε : Type} {leaf : α → Except ε β} {object : List (Text × JsonTree β) → Except ε (JsonTree β)}

theorem buildItems_shape {items : List (JsonTree α)}
    (each : ∀ item ∈ items, ∀ result, build leaf object item = .ok result →
      result.depth = item.depth ∧ result.distinct = true)
    {results : List (JsonTree β)} (built : buildItems leaf object items = .ok results) :
    itemsDepth results = itemsDepth items ∧ itemsDistinct results = true := by
  induction items generalizing results with
  | nil =>
      cases built
      exact ⟨rfl, rfl⟩
  | cons item items ih =>
      rw [buildItems] at built
      simp only [Run.bind_eq_ok, Except.ok.injEq] at built
      obtain ⟨result, here, rest, later, rfl⟩ := built
      rw [List.forall_mem_cons] at each
      obtain ⟨depth, distinct⟩ := each.1 result here
      obtain ⟨depths, distincts⟩ := ih each.2 later
      rw [itemsDepth, itemsDepth, itemsDistinct, depth, depths, distinct, distincts]
      exact ⟨rfl, rfl⟩

theorem buildEntries_shape {entries : List (Text × JsonTree α)}
    (each : ∀ entry ∈ entries, ∀ result, build leaf object entry.2 = .ok result →
      result.depth = entry.2.depth ∧ result.distinct = true)
    {results : List (Text × JsonTree β)} (built : buildEntries leaf object entries = .ok results) :
    results.map Prod.fst = entries.map Prod.fst ∧
      entriesDepth results = entriesDepth entries ∧ entriesDistinct results = true := by
  induction entries generalizing results with
  | nil =>
      cases built
      exact ⟨rfl, rfl, rfl⟩
  | cons entry entries ih =>
      obtain ⟨key, value⟩ := entry
      rw [buildEntries] at built
      simp only [Run.bind_eq_ok, Except.ok.injEq] at built
      obtain ⟨result, here, rest, later, rfl⟩ := built
      rw [List.forall_mem_cons] at each
      obtain ⟨depth, distinct⟩ := each.1 result here
      obtain ⟨keys, depths, distincts⟩ := ih each.2 later
      rw [entriesDepth, entriesDepth, entriesDistinct, List.map_cons, List.map_cons, keys, depth,
        depths, distinct, distincts]
      exact ⟨rfl, rfl, rfl⟩

/-- Hooks that keep an object without a repeated key keep the shape of a tree of such objects. -/
theorem build_shape
    (keeps : ∀ pairs result, (pairs.map Prod.fst).Nodup → object pairs = .ok result →
      result = .dict pairs)
    {tree : JsonTree α} (distinct : tree.distinct = true) {result : JsonTree β}
    (built : build leaf object tree = .ok result) :
    result.depth = tree.depth ∧ result.distinct = true := by
  induction tree using induct generalizing result with
  | leaf value =>
      obtain ⟨read, -, rfl⟩ := Run.map_eq_ok.mp built
      exact ⟨rfl, rfl⟩
  | list items ih =>
      obtain ⟨results, read, rfl⟩ := Run.map_eq_ok.mp built
      rw [JsonTree.distinct, itemsDistinct_iff] at distinct
      obtain ⟨depths, distincts⟩ :=
        buildItems_shape (fun item inside _ => ih item inside (distinct item inside)) read
      rw [depth, depth, depths, JsonTree.distinct]
      exact ⟨rfl, distincts⟩
  | dict entries ih =>
      rw [build, Run.bind_eq_ok] at built
      obtain ⟨results, read, hooked⟩ := built
      rw [JsonTree.distinct, Bool.and_eq_true, decide_eq_true_iff, entriesDistinct_iff] at distinct
      obtain ⟨keys, depths, distincts⟩ :=
        buildEntries_shape (fun entry inside _ => ih entry inside (distinct.2 entry inside)) read
      rw [← keys] at distinct
      rw [keeps results result distinct.1 hooked, depth, depth, depths, JsonTree.distinct, distincts,
        Bool.and_true, decide_eq_true_iff]
      exact ⟨rfl, distinct.1⟩

theorem build_total (leaves : ∀ value, ∃ result, leaf value = .ok result)
    (objects : ∀ pairs, ∃ result, object pairs = .ok result) (tree : JsonTree α) :
    ∃ result, build leaf object tree = .ok result := by
  induction tree using induct with
  | leaf value =>
      obtain ⟨result, read⟩ := leaves value
      exact ⟨.leaf result, Run.map_eq_ok.mpr ⟨result, read, rfl⟩⟩
  | list items ih =>
      have all : ∃ results, buildItems leaf object items = .ok results := by
        induction items with
        | nil => exact ⟨[], rfl⟩
        | cons item items rest =>
            rw [List.forall_mem_cons] at ih
            obtain ⟨result, here⟩ := ih.1
            obtain ⟨results, later⟩ := rest ih.2
            exact ⟨result :: results, by simp [buildItems, Run.bind_eq_ok, here, later]⟩
      obtain ⟨results, read⟩ := all
      exact ⟨.list results, Run.map_eq_ok.mpr ⟨results, read, rfl⟩⟩
  | dict entries ih =>
      have all : ∃ results, buildEntries leaf object entries = .ok results := by
        induction entries with
        | nil => exact ⟨[], rfl⟩
        | cons entry entries rest =>
            rw [List.forall_mem_cons] at ih
            obtain ⟨result, here⟩ := ih.1
            obtain ⟨results, later⟩ := rest ih.2
            exact ⟨(entry.1, result) :: results, by simp [buildEntries, Run.bind_eq_ok, here, later]⟩
      obtain ⟨results, read⟩ := all
      obtain ⟨result, hooked⟩ := objects results
      exact ⟨result, Run.bind_eq_ok.mpr ⟨results, read, hooked⟩⟩

end

/-- `dict(pairs)`: a key keeps its first place and its last value. -/
def lastWins (pairs : List (Text × JsonTree α)) : List (Text × JsonTree α) :=
  pairs.foldl (fun selected pair =>
    if (selected.map Prod.fst).contains pair.1 then
      selected.map fun entry => if entry.1 = pair.1 then pair else entry
    else selected ++ [pair]) []

theorem lastWins_of_nodup {pairs : List (Text × JsonTree α)} (distinct : (pairs.map Prod.fst).Nodup) :
    lastWins pairs = pairs := by
  suffices grown : ∀ selected : List (Text × JsonTree α), ((selected ++ pairs).map Prod.fst).Nodup →
      pairs.foldl (fun selected pair =>
        if (selected.map Prod.fst).contains pair.1 then
          selected.map fun entry => if entry.1 = pair.1 then pair else entry
        else selected ++ [pair]) selected = selected ++ pairs by
    exact grown [] distinct
  clear distinct
  intro selected distinct
  induction pairs generalizing selected with
  | nil => simp
  | cons pair pairs ih =>
      have fresh : (selected.map Prod.fst).contains pair.1 = false := by
        rw [List.map_append, List.map_cons, List.nodup_append] at distinct
        rw [← Bool.not_eq_true, List.contains_iff_mem]
        exact fun inside => distinct.2.2 pair.1 inside pair.1 List.mem_cons_self rfl
      rw [List.foldl_cons, fresh, if_neg Bool.false_ne_true, ih, List.append_assoc]
      · rfl
      · rw [List.append_assoc]
        exact distinct

end JsonTree
end AgentLibOS.Library.Json
