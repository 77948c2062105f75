import AgentLibOS.Capability.Value

namespace AgentLibOS.Schemas
open Capability

/-! ## Distinct keys -/

mutual

/-- No object in the value has two entries of one key. -/
def distinctKeys : Value → Bool
  | .dict entries => decide (entries.map Prod.fst).Nodup && distinctValues entries
  | .list items => distinctItems items
  | _ => true

def distinctValues : Dict → Bool
  | [] => true
  | (_, value) :: rest => distinctKeys value && distinctValues rest

def distinctItems : List Value → Bool
  | [] => true
  | item :: rest => distinctKeys item && distinctItems rest

end

theorem distinctValues_iff (entries : Dict) :
    distinctValues entries = true ↔ ∀ entry ∈ entries, distinctKeys entry.2 = true := by
  induction entries with
  | nil => simp [distinctValues]
  | cons entry rest ih =>
      obtain ⟨name, value⟩ := entry
      simp [distinctValues, ih]

theorem distinctItems_iff (items : List Value) :
    distinctItems items = true ↔ ∀ item ∈ items, distinctKeys item = true := by
  induction items with
  | nil => simp [distinctItems]
  | cons item rest ih => simp [distinctItems, ih]

theorem distinctKeys_dict (entries : Dict) :
    distinctKeys (.dict entries) = true ↔
      (entries.map Prod.fst).Nodup ∧ ∀ entry ∈ entries, distinctKeys entry.2 = true := by
  rw [distinctKeys, Bool.and_eq_true, decide_eq_true_iff, distinctValues_iff]

theorem distinctKeys_cons (name : String) (value : Value) (rest : Dict) :
    distinctKeys (.dict ((name, value) :: rest)) = true ↔
      name ∉ rest.map Prod.fst ∧ distinctKeys value = true ∧ distinctKeys (.dict rest) = true := by
  rw [distinctKeys_dict, distinctKeys_dict, List.map_cons, List.nodup_cons, List.forall_mem_cons]
  exact ⟨fun ⟨⟨fresh, apart⟩, head, tail⟩ => ⟨fresh, head, apart, tail⟩,
    fun ⟨fresh, head, apart, tail⟩ => ⟨⟨fresh, apart⟩, head, tail⟩⟩

/-- A JSON object. -/
structure JsonObject where
  entries : Dict
  distinct : distinctKeys (.dict entries) = true

/-! ## Schemas inside a schema -/

/-- Keywords whose value is a schema, a mapping to schemas, or a list of schemas. -/
structure Keywords where
  singles : List String
  mappings : List String
  lists : List String
  apart : ∀ key ∈ singles, key ∉ mappings

/-- A schema directly inside another. A single schema counts only as an object. -/
inductive Child (keywords : Keywords) (entries : Dict) : Value → Prop
  | single {key : String} {schema : Dict} (known : key ∈ keywords.singles)
      (inside : (key, .dict schema) ∈ entries) : Child keywords entries (.dict schema)
  | mapping {key name : String} {schemas : Dict} {schema : Value} (known : key ∈ keywords.mappings)
      (inside : (key, .dict schemas) ∈ entries) (named : (name, schema) ∈ schemas) :
      Child keywords entries schema
  | list {key : String} {schemas : List Value} {schema : Value} (known : key ∈ keywords.lists)
      (inside : (key, .list schemas) ∈ entries) (listed : schema ∈ schemas) :
      Child keywords entries schema

inductive Subschema (keywords : Keywords) : Value → Value → Prop
  | here (schema : Value) : Subschema keywords schema schema
  | inside {entries : Dict} {child schema : Value} (step : Child keywords entries child)
      (rest : Subschema keywords child schema) : Subschema keywords (.dict entries) schema

theorem sizeOf_named {schemas : Dict} {name : String} {schema : Value}
    (named : (name, schema) ∈ schemas) : sizeOf schema < sizeOf schemas := by
  have smaller := List.sizeOf_lt_of_mem named
  simp only [Prod.mk.sizeOf_spec] at smaller
  omega

theorem Child.smaller {keywords : Keywords} {entries : Dict} {child : Value}
    (direct : Child keywords entries child) : sizeOf child < sizeOf (Value.dict entries) := by
  rw [Value.dict.sizeOf_spec]
  cases direct with
  | single _ inside =>
      have smaller := sizeOf_named inside
      omega
  | mapping _ inside named =>
      have outer := sizeOf_named inside
      have inner := sizeOf_named named
      rw [Value.dict.sizeOf_spec] at outer
      omega
  | list _ inside listed =>
      have outer := sizeOf_named inside
      have inner := List.sizeOf_lt_of_mem listed
      rw [Value.list.sizeOf_spec] at outer
      omega

theorem Child.distinct {keywords : Keywords} {entries : Dict} {child : Value}
    (whole : distinctKeys (.dict entries) = true) (direct : Child keywords entries child) :
    distinctKeys child = true := by
  have values := ((distinctKeys_dict entries).mp whole).2
  cases direct with
  | single _ inside => exact values _ inside
  | mapping _ inside named => exact ((distinctKeys_dict _).mp (values _ inside)).2 _ named
  | list _ inside listed =>
      have items := values _ inside
      rw [distinctKeys, distinctItems_iff] at items
      exact items _ listed

/-- Induction over the schemas inside a schema. -/
theorem schema_induction (keywords : Keywords) {motive : Value → Prop}
    (atom : ∀ schema, (∀ entries, schema ≠ .dict entries) → motive schema)
    (dict : ∀ entries, (∀ child, Child keywords entries child → motive child) →
      motive (.dict entries)) (schema : Value) : motive schema := by
  cases schema with
  | dict entries =>
      exact dict entries fun child direct => schema_induction keywords atom dict child
  | none | bool _ | int _ | float _ | str _ | list _ => exact atom _ nofun
termination_by sizeOf schema
decreasing_by
  have smaller := direct.smaller
  rwa [Value.dict.sizeOf_spec] at smaller ⊢

theorem forall_subschema {keywords : Keywords} {holds : Value → Prop} {entries : Dict} :
    (∀ inner, Subschema keywords (.dict entries) inner → holds inner) ↔
      holds (.dict entries) ∧ ∀ child, Child keywords entries child →
        ∀ inner, Subschema keywords child inner → holds inner := by
  constructor
  · intro all
    exact ⟨all _ (.here _), fun child step inner rest => all inner (.inside step rest)⟩
  · rintro ⟨here, below⟩ inner path
    cases path with
    | here => exact here
    | inside step rest => exact below _ step inner rest

theorem subschema_atom {keywords : Keywords} {schema inner : Value}
    (atom : ∀ entries, schema ≠ .dict entries) (path : Subschema keywords schema inner) :
    inner = schema := by
  cases path with
  | here => rfl
  | inside step rest => exact absurd rfl (atom _)

/-! ## Rewriting -/

mutual

/-- A schema whose inner schemas are rewritten first and its own entries last. -/
def rewrite (keywords : Keywords) (finish : Dict → Dict) : Value → Value
  | .dict entries => .dict (finish (rewriteEntries keywords finish entries))
  | other => other

def rewriteEntries (keywords : Keywords) (finish : Dict → Dict) : Dict → Dict
  | [] => []
  | (key, value) :: rest =>
      (key, rewriteEntry keywords finish key value) :: rewriteEntries keywords finish rest

def rewriteEntry (keywords : Keywords) (finish : Dict → Dict) (key : String) : Value → Value
  | .dict entries =>
      if key ∈ keywords.mappings then .dict (rewriteValues keywords finish entries)
      else if key ∈ keywords.singles then .dict (finish (rewriteEntries keywords finish entries))
      else .dict entries
  | .list items =>
      if key ∈ keywords.lists then .list (rewriteItems keywords finish items) else .list items
  | other => other

def rewriteValues (keywords : Keywords) (finish : Dict → Dict) : Dict → Dict
  | [] => []
  | (name, value) :: rest =>
      (name, rewrite keywords finish value) :: rewriteValues keywords finish rest

def rewriteItems (keywords : Keywords) (finish : Dict → Dict) : List Value → List Value
  | [] => []
  | item :: rest => rewrite keywords finish item :: rewriteItems keywords finish rest

end

mutual

/-- Whether a schema and all schemas inside it are objects with a property. -/
def every (keywords : Keywords) (holds : Dict → Bool) : Value → Bool
  | .dict entries => holds entries && everyEntry keywords holds entries
  | _ => false

def everyEntry (keywords : Keywords) (holds : Dict → Bool) : Dict → Bool
  | [] => true
  | (key, value) :: rest =>
      everyIn keywords holds key value && everyEntry keywords holds rest

def everyIn (keywords : Keywords) (holds : Dict → Bool) (key : String) : Value → Bool
  | .dict entries =>
      if key ∈ keywords.mappings then everyValue keywords holds entries
      else if key ∈ keywords.singles then holds entries && everyEntry keywords holds entries
      else true
  | .list items => if key ∈ keywords.lists then everyItem keywords holds items else true
  | _ => true

def everyValue (keywords : Keywords) (holds : Dict → Bool) : Dict → Bool
  | [] => true
  | (_, value) :: rest => every keywords holds value && everyValue keywords holds rest

def everyItem (keywords : Keywords) (holds : Dict → Bool) : List Value → Bool
  | [] => true
  | item :: rest => every keywords holds item && everyItem keywords holds rest

end

section
variable {keywords : Keywords} {finish : Dict → Dict} {holds : Dict → Bool}

theorem rewriteEntries_map (entries : Dict) :
    rewriteEntries keywords finish entries =
      entries.map fun entry => (entry.1, rewriteEntry keywords finish entry.1 entry.2) := by
  induction entries with
  | nil => rfl
  | cons entry rest ih =>
      obtain ⟨key, value⟩ := entry
      rw [rewriteEntries, ih, List.map_cons]

theorem rewriteValues_map (entries : Dict) :
    rewriteValues keywords finish entries =
      entries.map fun entry => (entry.1, rewrite keywords finish entry.2) := by
  induction entries with
  | nil => rfl
  | cons entry rest ih =>
      obtain ⟨name, value⟩ := entry
      rw [rewriteValues, ih, List.map_cons]

theorem rewriteItems_map (items : List Value) :
    rewriteItems keywords finish items = items.map (rewrite keywords finish) := by
  induction items with
  | nil => rfl
  | cons item rest ih => rw [rewriteItems, ih, List.map_cons]

theorem rewriteEntries_keys (entries : Dict) :
    (rewriteEntries keywords finish entries).map Prod.fst = entries.map Prod.fst := by
  rw [rewriteEntries_map, List.map_map]
  rfl

theorem rewriteValues_keys (entries : Dict) :
    (rewriteValues keywords finish entries).map Prod.fst = entries.map Prod.fst := by
  rw [rewriteValues_map, List.map_map]
  rfl

theorem everyEntry_iff (entries : Dict) :
    everyEntry keywords holds entries = true ↔
      ∀ entry ∈ entries, everyIn keywords holds entry.1 entry.2 = true := by
  induction entries with
  | nil => simp [everyEntry]
  | cons entry rest ih =>
      obtain ⟨key, value⟩ := entry
      simp [everyEntry, ih]

theorem everyValue_iff (entries : Dict) :
    everyValue keywords holds entries = true ↔
      ∀ entry ∈ entries, every keywords holds entry.2 = true := by
  induction entries with
  | nil => simp [everyValue]
  | cons entry rest ih =>
      obtain ⟨name, value⟩ := entry
      simp [everyValue, ih]

theorem everyItem_iff (items : List Value) :
    everyItem keywords holds items = true ↔ ∀ item ∈ items, every keywords holds item = true := by
  induction items with
  | nil => simp [everyItem]
  | cons item rest ih => simp [everyItem, ih]

theorem every_dict (entries : Dict) :
    every keywords holds (.dict entries) = true ↔
      holds entries = true ∧ everyEntry keywords holds entries = true := by
  rw [every, Bool.and_eq_true]

theorem every_child {entries : Dict} :
    every keywords holds (.dict entries) = true ↔
      holds entries = true ∧ ∀ child, Child keywords entries child →
        every keywords holds child = true := by
  rw [every_dict, everyEntry_iff]
  refine and_congr_right fun _ => ⟨fun all child direct => ?_, fun all entry inside => ?_⟩
  · cases direct with
    | @single key schema known inside =>
        have here := all _ inside
        rw [everyIn, if_neg (keywords.apart key known), if_pos known] at here
        rwa [every]
    | mapping known inside named =>
        have here := all _ inside
        rw [everyIn, if_pos known] at here
        exact (everyValue_iff _).mp here _ named
    | list known inside listed =>
        have here := all _ inside
        rw [everyIn, if_pos known] at here
        exact (everyItem_iff _).mp here _ listed
  · obtain ⟨key, value⟩ := entry
    cases value with
    | dict schemas =>
        rw [everyIn]
        split
        · rename_i known
          exact (everyValue_iff schemas).mpr fun entry named =>
            all entry.2 (.mapping known inside named)
        · split
          · rename_i known
            have here := all (.dict schemas) (.single known inside)
            rwa [every] at here
          · rfl
    | list schemas =>
        rw [everyIn]
        split
        · rename_i known
          exact (everyItem_iff schemas).mpr fun item listed => all item (.list known inside listed)
        · rfl
    | none | bool _ | int _ | float _ | str _ => rfl

theorem every_iff {schema : Value} :
    every keywords holds schema = true ↔ ∀ inner, Subschema keywords schema inner →
      ∃ entries, inner = .dict entries ∧ holds entries = true := by
  induction schema using schema_induction keywords with
  | atom schema other =>
      constructor
      · intro all
        cases schema with
        | dict entries => exact absurd rfl (other entries)
        | none | bool _ | int _ | float _ | str _ | list _ => cases all
      · intro all
        obtain ⟨entries, same, _⟩ := all schema (.here schema)
        exact absurd same (other entries)
  | dict entries ih =>
      rw [every_child, forall_subschema, forall₂_congr ih]
      refine and_congr_left fun _ => ⟨fun here => ⟨entries, rfl, here⟩, ?_⟩
      rintro ⟨entries', same, here⟩
      cases same
      exact here

theorem rewriteEntries_lookup (entries : Dict) (key : String) :
    (rewriteEntries keywords finish entries).lookup key =
      (entries.lookup key).map (rewriteEntry keywords finish key) := by
  induction entries with
  | nil => rfl
  | cons entry rest ih =>
      obtain ⟨name, value⟩ := entry
      rw [rewriteEntries, List.lookup_cons, List.lookup_cons]
      by_cases same : key = name
      · subst same
        rw [beq_self_eq_true]
        rfl
      · rw [beq_eq_false_iff_ne.mpr same]
        exact ih

theorem mem_rewriteEntries {entries : Dict} {key : String} {value : Value} :
    (key, value) ∈ rewriteEntries keywords finish entries ↔
      ∃ source, (key, source) ∈ entries ∧ value = rewriteEntry keywords finish key source := by
  rw [rewriteEntries_map, List.mem_map]
  constructor
  · rintro ⟨⟨name, source⟩, inside, same⟩
    cases same
    exact ⟨source, inside, rfl⟩
  · rintro ⟨source, inside, rfl⟩
    exact ⟨(key, source), inside, rfl⟩

theorem rewriteEntries_mem (keywords : Keywords) (finish : Dict → Dict) {entries : Dict}
    {key : String} {source : Value} (inside : (key, source) ∈ entries) :
    (key, rewriteEntry keywords finish key source) ∈ rewriteEntries keywords finish entries :=
  mem_rewriteEntries.mpr ⟨source, inside, rfl⟩

theorem get_rewriteEntries (entries : Dict) (key : String) :
    Dict.get (rewriteEntries keywords finish entries) key =
      rewriteEntry keywords finish key (entries.get key) := by
  rw [Dict.get, Dict.get, rewriteEntries_lookup]
  cases entries.lookup key with
  | none => rfl
  | some value => rfl

theorem has_rewriteEntries (entries : Dict) (key : String) :
    Dict.has (rewriteEntries keywords finish entries) key = entries.has key := by
  rw [Dict.has, Dict.has, rewriteEntries_lookup, Option.isSome_map]

theorem rewriteEntry_other {key : String} (value : Value)
    (outside : key ∉ keywords.singles ∧ key ∉ keywords.mappings ∧ key ∉ keywords.lists) :
    rewriteEntry keywords finish key value = value := by
  cases value with
  | dict entries => rw [rewriteEntry, if_neg outside.2.1, if_neg outside.1]
  | list items => rw [rewriteEntry, if_neg outside.2.2]
  | none | bool _ | int _ | float _ | str _ => rfl

/-- An entry is rewritten to an object only if it is one. -/
theorem rewriteEntry_dict {key : String} {source : Value} {schema : Dict}
    (same : .dict schema = rewriteEntry keywords finish key source) :
    ∃ original, source = .dict original := by
  cases source with
  | dict original => exact ⟨original, rfl⟩
  | list items =>
      rw [rewriteEntry] at same
      split at same <;> cases same
  | none | bool _ | int _ | float _ | str _ => cases same

theorem rewriteEntry_list {key : String} {source : Value} {schemas : List Value}
    (same : .list schemas = rewriteEntry keywords finish key source) :
    ∃ original, source = .list original := by
  cases source with
  | list original => exact ⟨original, rfl⟩
  | dict entries =>
      rw [rewriteEntry] at same
      split at same
      · cases same
      · split at same <;> cases same
  | none | bool _ | int _ | float _ | str _ => cases same

end

section
variable {keywords : Keywords} {finish : Dict → Dict}
  (keeps : ∀ entries, distinctKeys (.dict entries) = true → distinctKeys (.dict (finish entries)) = true)

include keeps

mutual

theorem rewrite_distinct : ∀ schema, distinctKeys schema = true →
    distinctKeys (rewrite keywords finish schema) = true
  | .dict entries, whole => keeps _ (rewriteEntries_distinct entries whole)
  | .none, whole | .bool _, whole | .int _, whole | .float _, whole | .str _, whole
  | .list _, whole => whole

theorem rewriteEntries_distinct : ∀ entries, distinctKeys (.dict entries) = true →
    distinctKeys (.dict (rewriteEntries keywords finish entries)) = true
  | [], whole => whole
  | (key, value) :: rest, whole => by
      obtain ⟨fresh, head, tail⟩ := (distinctKeys_cons key value rest).mp whole
      rw [rewriteEntries, distinctKeys_cons, rewriteEntries_keys]
      exact ⟨fresh, rewriteEntry_distinct key value head, rewriteEntries_distinct rest tail⟩

theorem rewriteEntry_distinct : ∀ key value, distinctKeys value = true →
    distinctKeys (rewriteEntry keywords finish key value) = true
  | key, .dict entries, whole => by
      rw [rewriteEntry]
      split
      · exact rewriteValues_distinct entries whole
      · split
        · exact keeps _ (rewriteEntries_distinct entries whole)
        · exact whole
  | key, .list items, whole => by
      rw [rewriteEntry]
      split
      · rw [distinctKeys] at whole ⊢
        exact rewriteItems_distinct items whole
      · exact whole
  | _, .none, whole | _, .bool _, whole | _, .int _, whole | _, .float _, whole
  | _, .str _, whole => whole

theorem rewriteValues_distinct : ∀ entries, distinctKeys (.dict entries) = true →
    distinctKeys (.dict (rewriteValues keywords finish entries)) = true
  | [], whole => whole
  | (name, value) :: rest, whole => by
      obtain ⟨fresh, head, tail⟩ := (distinctKeys_cons name value rest).mp whole
      rw [rewriteValues, distinctKeys_cons, rewriteValues_keys]
      exact ⟨fresh, rewrite_distinct value head, rewriteValues_distinct rest tail⟩

theorem rewriteItems_distinct : ∀ items, distinctItems items = true →
    distinctItems (rewriteItems keywords finish items) = true
  | [], whole => whole
  | item :: rest, whole => by
      rw [distinctItems, Bool.and_eq_true] at whole
      rw [rewriteItems, distinctItems, Bool.and_eq_true]
      exact ⟨rewrite_distinct item whole.1, rewriteItems_distinct rest whole.2⟩

end

end

/-- Every keyword of one kind is one of the same kind. -/
structure Keywords.Within (part all : Keywords) : Prop where
  singles : part.singles ⊆ all.singles
  mappings : part.mappings ⊆ all.mappings
  lists : part.lists ⊆ all.lists

theorem Child.within {part all : Keywords} {entries : Dict} {child : Value}
    (direct : Child part entries child) (within : part.Within all) : Child all entries child := by
  cases direct with
  | single known inside => exact .single (within.singles known) inside
  | mapping known inside named => exact .mapping (within.mappings known) inside named
  | list known inside listed => exact .list (within.lists known) inside listed

/-- No value of some keywords is read under others. -/
structure Keywords.Beside (part others : Keywords) : Prop where
  singles : ∀ key ∈ part.singles, key ∉ others.singles ∧ key ∉ others.mappings
  mappings : ∀ key ∈ part.mappings, key ∉ others.singles ∧ key ∉ others.mappings
  lists : ∀ key ∈ part.lists, key ∉ others.lists

theorem child_rewritten {part all : Keywords} {finish : Dict → Dict} (within : part.Within all)
    {entries : Dict} {child : Value} :
    Child part (rewriteEntries all finish entries) child ↔
      ∃ source, Child part entries source ∧ child = rewrite all finish source := by
  constructor
  · intro direct
    cases direct with
    | @single key schema known inside =>
        obtain ⟨source, original, same⟩ := mem_rewriteEntries.mp inside
        obtain ⟨entries', rfl⟩ := rewriteEntry_dict same
        have here := within.singles known
        rw [rewriteEntry, if_neg (all.apart key here), if_pos here] at same
        exact ⟨_, .single known original, by rw [same, rewrite]⟩
    | @mapping key name schemas schema known inside named =>
        obtain ⟨source, original, same⟩ := mem_rewriteEntries.mp inside
        obtain ⟨entries', rfl⟩ := rewriteEntry_dict same
        rw [rewriteEntry, if_pos (within.mappings known), rewriteValues_map] at same
        rw [Value.dict.inj same] at named
        obtain ⟨⟨name', source⟩, old, here⟩ := List.mem_map.mp named
        cases here
        exact ⟨source, .mapping known original old, rfl⟩
    | @list key schemas schema known inside listed =>
        obtain ⟨source, original, same⟩ := mem_rewriteEntries.mp inside
        obtain ⟨items, rfl⟩ := rewriteEntry_list same
        rw [rewriteEntry, if_pos (within.lists known), rewriteItems_map] at same
        rw [Value.list.inj same] at listed
        obtain ⟨source, old, here⟩ := List.mem_map.mp listed
        exact ⟨source, .list known original old, here.symm⟩
  · rintro ⟨source, direct, rfl⟩
    cases direct with
    | @single key schema known inside =>
        have here := within.singles known
        have written := rewriteEntries_mem all finish inside
        rw [rewriteEntry, if_neg (all.apart key here), if_pos here] at written
        rw [rewrite]
        exact .single known written
    | @mapping key name schemas schema known inside named =>
        have written := rewriteEntries_mem all finish inside
        rw [rewriteEntry, if_pos (within.mappings known), rewriteValues_map] at written
        exact .mapping known written (List.mem_map_of_mem named)
    | @list key schemas schema known inside listed =>
        have written := rewriteEntries_mem all finish inside
        rw [rewriteEntry, if_pos (within.lists known), rewriteItems_map] at written
        exact .list known written (List.mem_map_of_mem listed)

/-- What is not read under the rewritten keywords stays. -/
theorem child_beside {part others : Keywords} {finish : Dict → Dict} (beside : part.Beside others)
    {entries : Dict} {child : Value} :
    Child part (rewriteEntries others finish entries) child ↔ Child part entries child := by
  have dicts {key : String} {schema : Dict} (out : key ∉ others.singles ∧ key ∉ others.mappings) :
      (key, .dict schema) ∈ rewriteEntries others finish entries ↔
        (key, .dict schema) ∈ entries := by
    rw [mem_rewriteEntries]
    constructor
    · rintro ⟨source, inside, same⟩
      obtain ⟨original, rfl⟩ := rewriteEntry_dict same
      rw [rewriteEntry, if_neg out.2, if_neg out.1] at same
      rwa [same]
    · intro inside
      exact ⟨.dict schema, inside, by rw [rewriteEntry, if_neg out.2, if_neg out.1]⟩
  have lists {key : String} {schemas : List Value} (out : key ∉ others.lists) :
      (key, .list schemas) ∈ rewriteEntries others finish entries ↔
        (key, .list schemas) ∈ entries := by
    rw [mem_rewriteEntries]
    constructor
    · rintro ⟨source, inside, same⟩
      obtain ⟨original, rfl⟩ := rewriteEntry_list same
      rw [rewriteEntry, if_neg out] at same
      rwa [same]
    · intro inside
      exact ⟨.list schemas, inside, by rw [rewriteEntry, if_neg out]⟩
  constructor
  · intro direct
    cases direct with
    | single known inside => exact .single known ((dicts (beside.singles _ known)).mp inside)
    | mapping known inside named =>
        exact .mapping known ((dicts (beside.mappings _ known)).mp inside) named
    | list known inside listed => exact .list known ((lists (beside.lists _ known)).mp inside) listed
  · intro direct
    cases direct with
    | single known inside => exact .single known ((dicts (beside.singles _ known)).mpr inside)
    | mapping known inside named =>
        exact .mapping known ((dicts (beside.mappings _ known)).mpr inside) named
    | list known inside listed => exact .list known ((lists (beside.lists _ known)).mpr inside) listed

end AgentLibOS.Schemas
