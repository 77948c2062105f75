import AgentLibOS.Library.Retention
import AgentLibOS.Schemas.StrictMode

namespace AgentLibOS.Schemas
open Capability
open Snapshots (setEntry setEntry_lookup setEntry_keys)

/-! ## Certificates -/

def typeListsObject (entries : Dict) : Prop :=
  ∃ types, entries.get "type" = .list types ∧ ∃ name ∈ types, name.eq (.str "object") = true

/-- The schema accepts objects: by its type, alone or in a list, or by its keywords for objects. -/
def AdmitsObjects (entries : Dict) : Prop := isObject entries = true ∨ typeListsObject entries

/-- An object schema without other properties than the declared, which are all required. -/
def Closed (entries : Dict) : Prop :=
  entries.get "additionalProperties" = .bool false ∧
    ∃ names, entries.get "required" = .list (names.map .str) ∧
      ((entries.get "properties").isNone = true ∧ names = [] ∨
        ∃ properties, entries.get "properties" = .dict properties ∧
          ∀ name, name ∈ names ↔ name ∈ properties.map Prod.fst)

def ObjectClosed : Value → Prop
  | .dict entries => AdmitsObjects entries → Closed entries
  | _ => True

/-- Every schema inside a schema, in any position, is closed if it accepts objects. -/
def Certified (schema : Value) : Prop :=
  ∀ inner, Subschema annotatedKeywords schema inner → ObjectClosed inner

/-! ## Schemas without titles -/

mutual

/-- The second schema is the first without the titles of its schemas. -/
inductive Untitled : Value → Value → Prop
  | atom {value : Value} (other : ∀ entries, value ≠ .dict entries) : Untitled value value
  | object {entries entries' : Dict} (kept : UntitledEntries entries entries') :
      Untitled (.dict entries) (.dict entries')

inductive UntitledEntries : Dict → Dict → Prop
  | nil : UntitledEntries [] []
  | title {value : Value} {rest rest' : Dict} (kept : UntitledEntries rest rest') :
      UntitledEntries (("title", value) :: rest) rest'
  | same {key : String} {value : Value} {rest rest' : Dict} (other : key ≠ "title")
      (kept : UntitledEntries rest rest') :
      UntitledEntries ((key, value) :: rest) ((key, value) :: rest')
  | single {key : String} {schema schema' : Value} {rest rest' : Dict}
      (known : key ∈ annotatedKeywords.singles) (inner : Untitled schema schema')
      (kept : UntitledEntries rest rest') :
      UntitledEntries ((key, schema) :: rest) ((key, schema') :: rest')
  | mapping {key : String} {schemas schemas' rest rest' : Dict}
      (known : key ∈ annotatedKeywords.mappings) (inner : UntitledValues schemas schemas')
      (kept : UntitledEntries rest rest') :
      UntitledEntries ((key, .dict schemas) :: rest) ((key, .dict schemas') :: rest')
  | list {key : String} {schemas schemas' : List Value} {rest rest' : Dict}
      (known : key ∈ annotatedKeywords.lists) (inner : UntitledItems schemas schemas')
      (kept : UntitledEntries rest rest') :
      UntitledEntries ((key, .list schemas) :: rest) ((key, .list schemas') :: rest')

inductive UntitledValues : Dict → Dict → Prop
  | nil : UntitledValues [] []
  | cons {name : String} {schema schema' : Value} {rest rest' : Dict}
      (inner : Untitled schema schema') (kept : UntitledValues rest rest') :
      UntitledValues ((name, schema) :: rest) ((name, schema') :: rest')

inductive UntitledItems : List Value → List Value → Prop
  | nil : UntitledItems [] []
  | cons {schema schema' : Value} {rest rest' : List Value} (inner : Untitled schema schema')
      (kept : UntitledItems rest rest') : UntitledItems (schema :: rest) (schema' :: rest')

end

mutual

theorem strip_untitled : ∀ schema, Untitled schema (rewrite annotatedKeywords dropTitle schema)
  | .dict entries => .object (strip_entries entries)
  | .none => .atom nofun
  | .bool _ => .atom nofun
  | .int _ => .atom nofun
  | .float _ => .atom nofun
  | .str _ => .atom nofun
  | .list _ => .atom nofun

theorem strip_entries : ∀ entries,
    UntitledEntries entries (dropTitle (rewriteEntries annotatedKeywords dropTitle entries))
  | [] => .nil
  | (key, value) :: rest => by
      have kept := strip_entries rest
      by_cases title : key = "title"
      · subst title
        rw [rewriteEntries, dropTitle, List.filter_cons_of_neg (by simp)]
        exact .title kept
      · rw [rewriteEntries, dropTitle, List.filter_cons_of_pos (by simpa using title)]
        cases value with
        | dict schemas =>
            rw [rewriteEntry]
            split
            · rename_i known
              exact .mapping known (strip_values schemas) kept
            · split
              · rename_i known
                exact .single known (.object (strip_entries schemas)) kept
              · exact .same title kept
        | list schemas =>
            rw [rewriteEntry]
            split
            · rename_i known
              exact .list known (strip_items schemas) kept
            · exact .same title kept
        | none | bool _ | int _ | float _ | str _ => exact .same title kept

theorem strip_values : ∀ schemas,
    UntitledValues schemas (rewriteValues annotatedKeywords dropTitle schemas)
  | [] => .nil
  | (_, schema) :: rest => .cons (strip_untitled schema) (strip_values rest)

theorem strip_items : ∀ schemas,
    UntitledItems schemas (rewriteItems annotatedKeywords dropTitle schemas)
  | [] => .nil
  | schema :: rest => .cons (strip_untitled schema) (strip_items rest)

end

/-! ## Schemas that read alike -/

/-- One value of a keyword that is rewritten: a schema stays a schema. -/
def SameKind (value value' : Value) : Prop :=
  value' = value ∨ ∃ entries entries', value = .dict entries ∧ value' = .dict entries'

/-- Schemas with the same declarations, as far as strict mode looks at them. -/
structure Alike (entries entries' : Dict) : Prop where
  type : entries'.get "type" = entries.get "type"
  required : entries'.get "required" = entries.get "required"
  has : ∀ key, key ≠ "title" → entries'.has key = entries.has key
  additional : SameKind (entries.get "additionalProperties") (entries'.get "additionalProperties")
  unevaluated : SameKind (entries.get "unevaluatedProperties") (entries'.get "unevaluatedProperties")
  properties : entries'.get "properties" = entries.get "properties" ∨
    ∃ properties properties', entries.get "properties" = .dict properties ∧
      entries'.get "properties" = .dict properties' ∧
      properties'.map Prod.fst = properties.map Prod.fst

namespace Alike

variable {entries entries' : Dict} (alike : Alike entries entries')

include alike

theorem isObject : isObject entries' = isObject entries := by
  rw [Schemas.isObject, Schemas.isObject, alike.type, alike.has _ (by decide),
    alike.has _ (by decide)]

theorem openAdditional : openAdditional entries' = openAdditional entries := by
  unfold Schemas.openAdditional
  rcases alike.additional with same | ⟨schema, schema', old, new⟩
  · rw [same]
  · rw [old, new]

theorem mappedProperties : mappedProperties entries' = mappedProperties entries := by
  unfold Schemas.mappedProperties
  rcases alike.properties with same | ⟨properties, properties', old, new, _⟩
  · rw [same]
  · rw [old, new]

theorem convertible : convertible entries' = convertible entries := by
  have dynamic : dynamicKeys.all (fun key => !entries'.has key) =
      dynamicKeys.all (fun key => !entries.has key) := by
    have other : ∀ key ∈ dynamicKeys, key ≠ "title" := by decide
    rw [Bool.eq_iff_iff, List.all_eq_true, List.all_eq_true]
    refine forall₂_congr fun key inside => ?_
    rw [alike.has key (other key inside)]
  have unevaluated : ((entries'.get "unevaluatedProperties").isNone ||
      (entries'.get "unevaluatedProperties").eq (.bool false)) =
      ((entries.get "unevaluatedProperties").isNone ||
        (entries.get "unevaluatedProperties").eq (.bool false)) := by
    rcases alike.unevaluated with same | ⟨schema, schema', old, new⟩
    · rw [same]
    · rw [old, new]
      rfl
  rw [Schemas.convertible, Schemas.convertible, dynamic, unevaluated, alike.isObject,
    alike.openAdditional, alike.mappedProperties]

theorem typeListsObject : typeListsObject entries' ↔ typeListsObject entries := by
  rw [Schemas.typeListsObject, Schemas.typeListsObject, alike.type]

theorem admitsObjects : AdmitsObjects entries' ↔ AdmitsObjects entries := by
  rw [AdmitsObjects, AdmitsObjects, alike.isObject, alike.typeListsObject]

theorem closed : Closed entries' ↔ Closed entries := by
  have additional : entries'.get "additionalProperties" = .bool false ↔
      entries.get "additionalProperties" = .bool false := by
    rcases alike.additional with same | ⟨schema, schema', old, new⟩
    · rw [same]
    · rw [old, new]
      exact ⟨nofun, nofun⟩
  have properties (names : List String) :
      ((entries'.get "properties").isNone = true ∧ names = [] ∨
        ∃ properties, entries'.get "properties" = .dict properties ∧
          ∀ name, name ∈ names ↔ name ∈ properties.map Prod.fst) ↔
      ((entries.get "properties").isNone = true ∧ names = [] ∨
        ∃ properties, entries.get "properties" = .dict properties ∧
          ∀ name, name ∈ names ↔ name ∈ properties.map Prod.fst) := by
    rcases alike.properties with same | ⟨properties, properties', old, new, names'⟩
    · rw [same]
    · rw [old, new]
      simp only [Value.isNone, Bool.false_eq_true, false_and, false_or, Value.dict.injEq,
        exists_eq_left', names']
  rw [Closed, Closed, additional, alike.required]
  exact and_congr_right fun _ => exists_congr fun names => and_congr_right fun _ => properties names

end Alike

theorem rewritten_kind {keywords : Keywords} {finish : Dict → Dict} {entries : Dict} {key : String}
    (single : key ∉ keywords.lists) :
    SameKind (entries.get key) (Dict.get (rewriteEntries keywords finish entries) key) := by
  rw [get_rewriteEntries]
  cases entries.get key with
  | dict schema =>
      rw [rewriteEntry]
      split
      · exact .inr ⟨_, _, rfl, rfl⟩
      · split
        · exact .inr ⟨_, _, rfl, rfl⟩
        · exact .inl rfl
  | list items => exact .inl (by rw [rewriteEntry, if_neg single])
  | none | bool _ | int _ | float _ | str _ => exact .inl rfl

theorem rewritten_alike {keywords : Keywords} {finish : Dict → Dict} (entries : Dict)
    (declared : "properties" ∈ keywords.mappings)
    (others : ∀ key ∈ ["type", "required"],
      key ∉ keywords.singles ∧ key ∉ keywords.mappings ∧ key ∉ keywords.lists)
    (single : ∀ key ∈ ["additionalProperties", "unevaluatedProperties", "properties"],
      key ∉ keywords.lists) :
    Alike entries (rewriteEntries keywords finish entries) where
  type := by rw [get_rewriteEntries, rewriteEntry_other _ (others _ (by decide))]
  required := by rw [get_rewriteEntries, rewriteEntry_other _ (others _ (by decide))]
  has key _ := has_rewriteEntries entries key
  additional := rewritten_kind (single _ (by decide))
  unevaluated := rewritten_kind (single _ (by decide))
  properties := by
    rw [get_rewriteEntries]
    cases entries.get "properties" with
    | dict properties =>
        refine .inr ⟨properties, rewriteValues keywords finish properties, rfl, ?_, ?_⟩
        · rw [rewriteEntry, if_pos declared]
        · exact rewriteValues_keys properties
    | list items => exact .inl (by rw [rewriteEntry, if_neg (single _ (by decide))])
    | none | bool _ | int _ | float _ | str _ => exact .inl rfl

theorem dropTitle_lookup (entries : Dict) {key : String} (other : key ≠ "title") :
    (dropTitle entries).lookup key = entries.lookup key := by
  induction entries with
  | nil => rfl
  | cons entry rest ih =>
      obtain ⟨name, value⟩ := entry
      by_cases title : name = "title"
      · subst title
        rw [dropTitle, List.filter_cons_of_neg (by simp), List.lookup_cons,
          beq_eq_false_iff_ne.mpr other]
        exact ih
      · rw [dropTitle, List.filter_cons_of_pos (by simpa using title), List.lookup_cons,
          List.lookup_cons]
        cases key == name with
        | true => rfl
        | false => exact ih

theorem dropTitle_alike (entries : Dict) : Alike entries (dropTitle entries) := by
  have same {key : String} (other : key ≠ "title") :
      (dropTitle entries).get key = entries.get key := by
    rw [Dict.get, Dict.get, dropTitle_lookup entries other]
  refine ⟨same (by decide), same (by decide), fun key other => ?_, .inl (same (by decide)),
    .inl (same (by decide)), .inl (same (by decide))⟩
  rw [Dict.has, Dict.has, dropTitle_lookup entries other]

/-! ## Titles change no certificate -/

theorem child_dropTitle {keywords : Keywords}
    (untitled : "title" ∉ keywords.singles ∧ "title" ∉ keywords.mappings ∧ "title" ∉ keywords.lists)
    {entries : Dict} {child : Value} :
    Child keywords (dropTitle entries) child ↔ Child keywords entries child := by
  have kept {key : String} {value : Value} (other : key ≠ "title") :
      (key, value) ∈ dropTitle entries ↔ (key, value) ∈ entries := by
    simp [dropTitle, other]
  constructor
  · intro direct
    cases direct with
    | single known inside => exact .single known (List.mem_of_mem_filter inside)
    | mapping known inside named => exact .mapping known (List.mem_of_mem_filter inside) named
    | list known inside listed => exact .list known (List.mem_of_mem_filter inside) listed
  · intro direct
    cases direct with
    | single known inside =>
        exact .single known ((kept fun same => untitled.1 (same ▸ known)).mpr inside)
    | mapping known inside named =>
        exact .mapping known ((kept fun same => untitled.2.1 (same ▸ known)).mpr inside) named
    | list known inside listed =>
        exact .list known ((kept fun same => untitled.2.2 (same ▸ known)).mpr inside) listed

/-- The entries of a schema without its titles. -/
def stripped (entries : Dict) : Dict :=
  dropTitle (rewriteEntries annotatedKeywords dropTitle entries)

/-- What holds of the children of a stripped schema. -/
theorem forall_child_stripped {keywords : Keywords} (within : keywords.Within annotatedKeywords)
    (untitled : "title" ∉ keywords.singles ∧ "title" ∉ keywords.mappings ∧ "title" ∉ keywords.lists)
    {entries : Dict} {holds : Value → Prop} :
    (∀ child, Child keywords (stripped entries) child → holds child) ↔
      ∀ child, Child keywords entries child → holds (stripModelAnnotationTitles child) := by
  have rewritten {child : Value} : Child keywords (stripped entries) child ↔
      ∃ source, Child keywords entries source ∧ child = stripModelAnnotationTitles source := by
    rw [stripped, child_dropTitle untitled, child_rewritten within]
    rfl
  constructor
  · intro all child direct
    exact all _ (rewritten.mpr ⟨child, direct, rfl⟩)
  · intro all child direct
    obtain ⟨source, inside, rfl⟩ := rewritten.mp direct
    exact all source inside

theorem strip_dict (entries : Dict) :
    stripModelAnnotationTitles (.dict entries) = .dict (stripped entries) := rfl

theorem strip_atom {schema : Value} (atom : ∀ entries, schema ≠ .dict entries) :
    stripModelAnnotationTitles schema = schema := by
  cases schema with
  | dict entries => exact absurd rfl (atom entries)
  | none | bool _ | int _ | float _ | str _ | list _ => rfl

theorem annotated_alike (entries : Dict) :
    Alike entries (rewriteEntries annotatedKeywords dropTitle entries) :=
  rewritten_alike entries (by decide) (by decide) (by decide)

theorem stripped_convertible (entries : Dict) :
    convertible (stripped entries) = convertible entries := by
  rw [stripped, (dropTitle_alike _).convertible, (annotated_alike entries).convertible]

theorem stripped_closed (entries : Dict) :
    ObjectClosed (.dict (stripped entries)) ↔ ObjectClosed (.dict entries) := by
  rw [ObjectClosed, ObjectClosed, stripped, (dropTitle_alike _).admitsObjects,
    (annotated_alike entries).admitsObjects, (dropTitle_alike _).closed,
    (annotated_alike entries).closed]

theorem annotated_within : annotatedKeywords.Within annotatedKeywords :=
  ⟨List.Subset.refl _, List.Subset.refl _, List.Subset.refl _⟩

theorem normalized_within : normalizedKeywords.Within annotatedKeywords :=
  ⟨by decide, by decide, by decide⟩

theorem certified_dict (entries : Dict) :
    Certified (.dict entries) ↔ ObjectClosed (.dict entries) ∧
      ∀ child, Child annotatedKeywords entries child → Certified child :=
  forall_subschema

theorem certified_atom {schema : Value} (atom : ∀ entries, schema ≠ .dict entries) :
    Certified schema := by
  intro inner path
  rw [subschema_atom atom path]
  cases schema with
  | dict entries => exact absurd rfl (atom entries)
  | none | bool _ | int _ | float _ | str _ | list _ => trivial

theorem strip_certified (schema : Value) :
    Certified (stripModelAnnotationTitles schema) ↔ Certified schema := by
  induction schema using schema_induction annotatedKeywords with
  | atom schema other => rw [strip_atom other]
  | dict entries ih =>
      rw [strip_dict, certified_dict, certified_dict, stripped_closed]
      rw [forall_child_stripped annotated_within (by decide)]
      exact and_congr_right fun _ => forall₂_congr ih

/-! ## What strict mode has to find -/

/-- The positions that `_normalize_schema` leaves alone. -/
def otherKeywords : Keywords where
  singles := ["additionalItems", "additionalProperties", "contains", "contentSchema", "else", "if",
    "not", "propertyNames", "then", "unevaluatedItems", "unevaluatedProperties"]
  mappings := ["dependencies", "dependentSchemas", "patternProperties"]
  lists := ["allOf", "items", "oneOf"]
  apart := by decide

/-- Every schema that strict mode descends to is an object that it can convert. -/
def Convertible (schema : Value) : Prop :=
  ∀ inner, Subschema normalizedKeywords schema inner →
    ∃ entries, inner = .dict entries ∧ convertible entries = true

/-- A schema with objects among its types has keywords for objects, and the schemas in positions
that strict mode leaves alone are closed already. -/
def Covered : Value → Prop
  | .dict entries => (typeListsObject entries → isObject entries = true) ∧
      ∀ child, Child otherKeywords entries child → Certified child
  | _ => True

def Coverable (schema : Value) : Prop :=
  ∀ inner, Subschema normalizedKeywords schema inner → Covered inner

theorem convertible_dict (entries : Dict) :
    Convertible (.dict entries) ↔ convertible entries = true ∧
      ∀ child, Child normalizedKeywords entries child → Convertible child := by
  rw [Convertible, forall_subschema]
  refine and_congr_left fun _ => ⟨fun ⟨entries', same, holds⟩ => ?_, fun holds => ⟨_, rfl, holds⟩⟩
  cases same
  exact holds

theorem coverable_dict (entries : Dict) :
    Coverable (.dict entries) ↔ Covered (.dict entries) ∧
      ∀ child, Child normalizedKeywords entries child → Coverable child :=
  forall_subschema

theorem every_convertible (schema : Value) :
    every normalizedKeywords convertible schema = true ↔ Convertible schema :=
  every_iff

theorem strip_convertible (schema : Value) :
    Convertible (stripModelAnnotationTitles schema) ↔ Convertible schema := by
  induction schema using schema_induction normalizedKeywords with
  | atom schema other => rw [strip_atom other]
  | dict entries ih =>
      rw [strip_dict, convertible_dict, convertible_dict, stripped_convertible]
      rw [forall_child_stripped normalized_within (by decide)]
      exact and_congr_right fun _ => forall₂_congr ih

theorem other_within : otherKeywords.Within annotatedKeywords :=
  ⟨by decide, by decide, by decide⟩

theorem strip_covered (entries : Dict) :
    Covered (.dict (stripped entries)) ↔ Covered (.dict entries) := by
  rw [Covered, Covered, stripped, (dropTitle_alike _).typeListsObject,
    (annotated_alike entries).typeListsObject, (dropTitle_alike _).isObject,
    (annotated_alike entries).isObject]
  rw [← stripped, forall_child_stripped other_within (by decide)]
  exact and_congr_right fun _ => forall₂_congr fun child _ => strip_certified child

theorem strip_coverable (schema : Value) :
    Coverable (stripModelAnnotationTitles schema) ↔ Coverable schema := by
  induction schema using schema_induction normalizedKeywords with
  | atom schema other => rw [strip_atom other]
  | dict entries ih =>
      rw [strip_dict, coverable_dict, coverable_dict, strip_covered]
      rw [forall_child_stripped normalized_within (by decide)]
      exact and_congr_right fun _ => forall₂_congr ih

/-! ## What strict mode writes -/

theorem get_setEntry (entries : Dict) (key other : String) (value : Value) :
    Dict.get (setEntry entries key value) other = if other = key then value else entries.get other := by
  rw [Dict.get, setEntry_lookup]
  split
  · rfl
  · rfl

theorem get_closed_properties (entries : Dict) :
    Dict.get (setEntry entries "additionalProperties" (.bool false)) "properties" =
      entries.get "properties" := by
  rw [get_setEntry, if_neg (by decide)]

theorem mem_setEntry {entries : Dict} {key other : String} {value found : Value} :
    (other, found) ∈ setEntry entries key value ↔
      (other = key ∧ found = value) ∨ (other ≠ key ∧ (other, found) ∈ entries) := by
  unfold Snapshots.setEntry
  split
  · rename_i known
    rw [List.mem_map]
    constructor
    · rintro ⟨⟨name, old⟩, inside, same⟩
      by_cases here : name = key
      · rw [if_pos here] at same
        cases same
        exact .inl ⟨rfl, rfl⟩
      · rw [if_neg here] at same
        cases same
        exact .inr ⟨here, inside⟩
    · rintro (⟨rfl, rfl⟩ | ⟨different, inside⟩)
      · obtain ⟨⟨name, old⟩, inside, rfl⟩ := List.mem_map.mp known
        exact ⟨_, inside, if_pos rfl⟩
      · exact ⟨_, inside, if_neg different⟩
  · rename_i absent
    rw [List.mem_append, List.mem_singleton, Prod.mk.injEq]
    constructor
    · rintro (inside | here)
      · exact .inr ⟨fun same => absent (same ▸ List.mem_map_of_mem inside), inside⟩
      · exact .inl here
    · rintro (here | ⟨_, inside⟩)
      · exact .inr here
      · exact .inl inside

/-- No schema stands in the value of the keyword. -/
structure Idle (keywords : Keywords) (key : String) (value : Value) : Prop where
  single : ∀ schema, value = .dict schema → key ∉ keywords.singles
  mapping : ∀ schemas, value = .dict schemas → key ∈ keywords.mappings → schemas = []
  list : ∀ schemas, value = .list schemas → key ∉ keywords.lists

theorem Idle.of_outside {keywords : Keywords} {key : String} (value : Value)
    (outside : key ∉ keywords.singles ∧ key ∉ keywords.mappings ∧ key ∉ keywords.lists) :
    Idle keywords key value :=
  ⟨fun _ _ => outside.1, fun _ _ known => absurd known outside.2.1, fun _ _ => outside.2.2⟩

theorem child_setEntry {keywords : Keywords} {entries : Dict} {key : String} {value child : Value}
    (old : ∀ found, (key, found) ∈ entries → Idle keywords key found)
    (new : Idle keywords key value) :
    Child keywords (setEntry entries key value) child ↔ Child keywords entries child := by
  have change {other : String} {found : Value}
      (busy : ¬ Idle keywords other found) :
      (other, found) ∈ setEntry entries key value ↔ (other, found) ∈ entries := by
    rw [mem_setEntry]
    constructor
    · rintro (⟨rfl, rfl⟩ | ⟨_, inside⟩)
      · exact absurd new busy
      · exact inside
    · intro inside
      refine .inr ⟨?_, inside⟩
      rintro rfl
      exact busy (old found inside)
  constructor
  · intro direct
    cases direct with
    | single known inside =>
        exact .single known ((change fun idle => idle.single _ rfl known).mp inside)
    | mapping known inside named =>
        refine .mapping known ((change fun idle => ?_).mp inside) named
        rw [idle.mapping _ rfl known] at named
        exact List.not_mem_nil named
    | list known inside listed =>
        exact .list known ((change fun idle => idle.list _ rfl known).mp inside) listed
  · intro direct
    cases direct with
    | single known inside =>
        exact .single known ((change fun idle => idle.single _ rfl known).mpr inside)
    | mapping known inside named =>
        refine .mapping known ((change fun idle => ?_).mpr inside) named
        rw [idle.mapping _ rfl known] at named
        exact List.not_mem_nil named
    | list known inside listed =>
        exact .list known ((change fun idle => idle.list _ rfl known).mpr inside) listed

theorem convertible_object {entries : Dict} (holds : convertible entries = true)
    (object : isObject entries = true) :
    openAdditional entries = false ∧ mappedProperties entries = true := by
  rw [convertible, Bool.and_eq_true] at holds
  have closed := holds.2
  rw [object] at closed
  simpa using closed

theorem get_of_mem {entries : Dict} (distinct : (entries.map Prod.fst).Nodup) {key : String}
    {value : Value} (inside : (key, value) ∈ entries) : entries.get key = value := by
  rw [Dict.get, (Library.Retention.lookup_iff distinct).mpr inside]
  rfl

theorem child_closeObject {entries : Dict} (distinct : (entries.map Prod.fst).Nodup)
    {child : Value} :
    Child annotatedKeywords (closeObject entries) child ↔ Child annotatedKeywords entries child := by
  unfold closeObject
  split
  · rfl
  · rename_i closing
    rw [Bool.or_eq_true, Bool.not_eq_true', not_or, Bool.not_eq_false, Bool.not_eq_true] at closing
    have additional : Child annotatedKeywords
        (setEntry entries "additionalProperties" (.bool false)) child ↔
          Child annotatedKeywords entries child := by
      apply child_setEntry
      · intro found inside
        have here := get_of_mem distinct inside
        have shut := closing.2
        refine ⟨fun schema same => ?_, fun schemas same => ?_, fun _ _ => by decide⟩
        · rw [openAdditional, here, same] at shut
          cases shut
        · rw [openAdditional, here, same] at shut
          cases shut
      · exact ⟨nofun, nofun, nofun⟩
    have required (target : Dict) (value : Value) :
        Child annotatedKeywords (setEntry target "required" value) child ↔
          Child annotatedKeywords target child :=
      child_setEntry (fun found _ => Idle.of_outside found (by decide))
        (Idle.of_outside value (by decide))
    simp only [get_closed_properties]
    cases properties : entries.get "properties" with
    | none =>
        simp only []
        rw [required, child_setEntry, additional]
        · intro found inside
          rcases mem_setEntry.mp inside with ⟨same, _⟩ | ⟨_, inside⟩
          · exact absurd same (by decide)
          · rw [get_of_mem distinct inside] at properties
            rw [properties]
            exact ⟨nofun, nofun, nofun⟩
        · exact ⟨fun _ _ => by decide, fun _ same _ => (Value.dict.inj same).symm, nofun⟩
    | dict declared =>
        simp only []
        rw [required, additional]
    | bool _ | int _ | float _ | str _ | list _ => exact additional

theorem Closed.isObject {entries : Dict} (closed : Closed entries) : isObject entries = true := by
  have additional := closed.1
  rw [Dict.get] at additional
  rw [Schemas.isObject, Bool.or_eq_true]
  cases found : entries.lookup "additionalProperties" with
  | none => rw [found] at additional; cases additional
  | some value => exact .inr (by rw [Dict.has, found]; rfl)

theorem closeObject_writes {entries : Dict} (object : isObject entries = true)
    (closing : openAdditional entries = false) (mapped : mappedProperties entries = true) :
    Closed (closeObject entries) := by
  unfold closeObject
  rw [object, closing]
  simp only [get_closed_properties, Bool.not_true, Bool.or_self, Bool.false_eq_true, if_false]
  cases properties : entries.get "properties" with
  | none =>
      refine ⟨by simp [get_setEntry], [], by simp [get_setEntry], .inr ⟨[], ?_, fun _ => Iff.rfl⟩⟩
      simp [get_setEntry]
  | dict declared =>
      refine ⟨by simp [get_setEntry], declared.map Prod.fst, ?_, .inr ⟨declared, ?_, ?_⟩⟩
      · simp [get_setEntry]
      · simp [get_setEntry, properties]
      · exact fun name => Iff.rfl
  | bool _ | int _ | float _ | str _ | list _ =>
      rw [mappedProperties, properties] at mapped
      cases mapped

/-- The schema that strict mode writes is closed unless only its type list admits objects. -/
theorem closeObject_closed {entries : Dict} (holds : convertible entries = true) :
    ObjectClosed (.dict (closeObject entries)) ↔
      (typeListsObject entries → isObject entries = true) := by
  cases object : isObject entries with
  | true =>
      obtain ⟨closing, mapped⟩ := convertible_object holds object
      exact ⟨fun _ _ => rfl, fun _ _ => closeObject_writes object closing mapped⟩
  | false =>
      have same : closeObject entries = entries := by
        rw [closeObject, object]
        rfl
      rw [same, ObjectClosed]
      constructor
      · intro closed listed
        have here := (closed (.inr listed)).isObject
        rw [object] at here
        exact here
      · rintro unlisted (known | listed)
        · rw [object] at known
          cases known
        · cases unlisted listed

theorem child_split {entries : Dict} {child : Value} :
    Child annotatedKeywords entries child ↔
      Child normalizedKeywords entries child ∨ Child otherKeywords entries child := by
  have singles : ∀ key ∈ annotatedKeywords.singles,
      key ∈ normalizedKeywords.singles ∨ key ∈ otherKeywords.singles := by decide
  have mappings : ∀ key ∈ annotatedKeywords.mappings,
      key ∈ normalizedKeywords.mappings ∨ key ∈ otherKeywords.mappings := by decide
  have lists : ∀ key ∈ annotatedKeywords.lists,
      key ∈ normalizedKeywords.lists ∨ key ∈ otherKeywords.lists := by decide
  constructor
  · intro direct
    cases direct with
    | single known inside =>
        exact (singles _ known).imp (.single · inside) (.single · inside)
    | mapping known inside named =>
        exact (mappings _ known).imp (.mapping · inside named) (.mapping · inside named)
    | list known inside listed =>
        exact (lists _ known).imp (.list · inside listed) (.list · inside listed)
  · rintro (direct | direct)
    · exact direct.within normalized_within
    · exact direct.within other_within

theorem normalized_alike (entries : Dict) :
    Alike entries (rewriteEntries normalizedKeywords closeObject entries) :=
  rewritten_alike entries (by decide) (by decide) (by decide)

theorem other_beside : otherKeywords.Beside normalizedKeywords :=
  ⟨by decide, by decide, by decide⟩

/-- The children of a converted schema. -/
theorem forall_child_closed {entries : Dict} (distinct : (entries.map Prod.fst).Nodup)
    {holds : Value → Prop} :
    (∀ child, Child annotatedKeywords
        (closeObject (rewriteEntries normalizedKeywords closeObject entries)) child → holds child) ↔
      (∀ child, Child normalizedKeywords entries child →
        holds (rewrite normalizedKeywords closeObject child)) ∧
      ∀ child, Child otherKeywords entries child → holds child := by
  have within : normalizedKeywords.Within normalizedKeywords :=
    ⟨List.Subset.refl _, List.Subset.refl _, List.Subset.refl _⟩
  have children {child : Value} : Child annotatedKeywords
      (closeObject (rewriteEntries normalizedKeywords closeObject entries)) child ↔
        (∃ source, Child normalizedKeywords entries source ∧
          child = rewrite normalizedKeywords closeObject source) ∨
        Child otherKeywords entries child := by
    rw [child_closeObject (by rwa [rewriteEntries_keys]), child_split, child_rewritten within,
      child_beside other_beside]
  constructor
  · intro all
    exact ⟨fun child direct => all _ (children.mpr (.inl ⟨child, direct, rfl⟩)),
      fun child direct => all _ (children.mpr (.inr direct))⟩
  · rintro ⟨normalized, others⟩ child direct
    rcases children.mp direct with ⟨source, inside, rfl⟩ | inside
    · exact normalized source inside
    · exact others child inside

/-- What strict mode returns is certified if and only if it looked at everything that needs it. -/
theorem normalize_certified (schema : Value) : distinctKeys schema = true → Convertible schema →
    (Certified (rewrite normalizedKeywords closeObject schema) ↔ Coverable schema) := by
  induction schema using schema_induction normalizedKeywords with
  | atom schema other =>
      intro _ all
      obtain ⟨entries, same, _⟩ := all schema (.here schema)
      exact absurd same (other entries)
  | dict entries ih =>
      intro whole all
      obtain ⟨here, inner⟩ := (convertible_dict entries).mp all
      have alike := normalized_alike entries
      rw [rewrite, certified_dict, coverable_dict, Covered,
        closeObject_closed (alike.convertible.trans here), alike.typeListsObject, alike.isObject,
        forall_child_closed ((distinctKeys_dict entries).mp whole).1, and_assoc]
      refine and_congr_right fun _ => ?_
      rw [and_comm]
      refine and_congr_right fun _ => forall₂_congr fun child direct => ?_
      exact ih child direct (direct.distinct whole) (inner child direct)

theorem dropTitle_distinct (entries : Dict) (whole : distinctKeys (.dict entries) = true) :
    distinctKeys (.dict (dropTitle entries)) = true := by
  rw [distinctKeys_dict] at whole ⊢
  exact ⟨whole.1.sublist (List.filter_sublist.map Prod.fst),
    fun entry inside => whole.2 entry (List.mem_of_mem_filter inside)⟩

theorem strip_distinct {schema : Value} (whole : distinctKeys schema = true) :
    distinctKeys (stripModelAnnotationTitles schema) = true :=
  rewrite_distinct dropTitle_distinct schema whole

end AgentLibOS.Schemas
