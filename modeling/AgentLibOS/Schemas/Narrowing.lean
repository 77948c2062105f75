import AgentLibOS.Schemas.Strictness
import AgentLibOS.Schemas.Validity

namespace AgentLibOS.Schemas
open Capability
open Snapshots (setEntry setEntry_lookup)

theorem mem_of_get {entries : Dict} {key : String} {value : Value} (found : entries.get key = value)
    (some : value ≠ .none) : (key, value) ∈ entries := by
  rw [Dict.get] at found
  cases present : entries.lookup key with
  | none => rw [present] at found; exact absurd found.symm some
  | some inside =>
      rw [present] at found
      cases found
      obtain ⟨before, after, whole, _⟩ := List.lookup_eq_some_iff.mp present
      rw [whole]
      exact List.mem_append_right before List.mem_cons_self

/-! ## Rewritten schemas -/

section
variable {keywords : Keywords} {finish : Dict → Dict} {child : Value → Value → Prop}
  {entries : Dict} {key : String}
  (related : ∀ schema, Child keywords entries schema → child (rewrite keywords finish schema) schema)

include related

theorem mapped_rewritten (known : key ∈ keywords.mappings) :
    Mapped child (rewriteEntry keywords finish key (entries.get key)) (entries.get key) := by
  cases found : entries.get key with
  | dict schemas =>
      have inside := mem_of_get found Value.noConfusion
      refine .inl ⟨rewriteValues keywords finish schemas, schemas, ?_, rfl, ?_⟩
      · rw [rewriteEntry, if_pos known]
      · rw [rewriteValues_map, SameNames, List.forall₂_map_left_iff, List.forall₂_same]
        exact fun entry named => ⟨rfl, related _ (.mapping known inside named)⟩
  | list schemas =>
      refine .inr ⟨fun _ same => ?_, by simp⟩
      rw [rewriteEntry] at same
      split at same <;> cases same
  | none | bool _ | int _ | float _ | str _ => exact .inr (by simp [rewriteEntry])

theorem listed_rewritten (known : key ∈ keywords.lists) :
    Listed child (rewriteEntry keywords finish key (entries.get key)) (entries.get key) := by
  cases found : entries.get key with
  | list schemas =>
      have inside := mem_of_get found Value.noConfusion
      refine .inl ⟨rewriteItems keywords finish schemas, schemas, ?_, rfl, ?_⟩
      · rw [rewriteEntry, if_pos known]
      · rw [rewriteItems_map, List.forall₂_map_left_iff, List.forall₂_same]
        exact fun schema listed => related _ (.list known inside listed)
  | dict schema =>
      refine .inr ⟨fun _ same => ?_, by simp⟩
      obtain ⟨_, same⟩ := rewriteEntry_list same.symm
      cases same
  | none | bool _ | int _ | float _ | str _ => exact .inr (by simp [rewriteEntry])

theorem single_rewritten (known : key ∈ keywords.singles)
    (atoms : ∀ schema, (∀ entries, schema ≠ .dict entries) → child schema schema)
    (single : ∀ schemas, entries.get key ≠ .list schemas) :
    child (rewriteEntry keywords finish key (entries.get key)) (entries.get key) := by
  cases found : entries.get key with
  | dict schema =>
      rw [rewriteEntry, if_neg (keywords.apart key known), if_pos known]
      have step := related _ (.single known (mem_of_get found Value.noConfusion))
      rwa [rewrite] at step
  | list schemas => exact absurd found (single schemas)
  | none | bool _ | int _ | float _ | str _ => exact atoms _ (by simp [rewriteEntry])

end

theorem rewriteEntry_present {keywords : Keywords} {finish : Dict → Dict} {key : String}
    {value : Value} (some : value ≠ .none) : rewriteEntry keywords finish key value ≠ .none := by
  cases value with
  | none => exact absurd rfl some
  | dict entries =>
      rw [rewriteEntry]
      split
      · simp
      · split <;> simp
  | list items =>
      rw [rewriteEntry]
      split <;> simp
  | bool _ | int _ | float _ | str _ => simp [rewriteEntry]

/-! ## Schemas without titles -/

def Stripped (narrow wide : Value) : Prop := narrow = stripModelAnnotationTitles wide

theorem get_stripped (entries : Dict) {key : String} (other : key ≠ "title") :
    Dict.get (stripped entries) key = rewriteEntry annotatedKeywords dropTitle key (entries.get key) := by
  rw [stripped, Dict.get, dropTitle_lookup _ other, ← Dict.get, get_rewriteEntries]

theorem stripped_narrows (entries : Dict) : Narrows Stripped (stripped entries) entries := by
  have related (schema : Value) (_ : Child annotatedKeywords entries schema) :
      Stripped (rewrite annotatedKeywords dropTitle schema) schema := rfl
  have atoms (schema : Value) (other : ∀ entries, schema ≠ .dict entries) :
      Stripped schema schema := (strip_atom other).symm
  have same {key : String} (other : key ≠ "title")
      (outside : key ∉ annotatedKeywords.singles ∧ key ∉ annotatedKeywords.mappings ∧
        key ∉ annotatedKeywords.lists) :
      Dict.get (stripped entries) key = entries.get key := by
    rw [get_stripped _ other, rewriteEntry_other _ outside]
  refine ⟨same (by decide) (by decide), same (by decide) (by decide), ?_,
    same (by decide) (by decide), fun key known => ?_, ?_, ?_, ?_, fun single some => ?_,
    fun names found => ⟨names, ?_, List.Subset.refl _⟩, ?_⟩
  · rw [stripped, dropTitle_lookup _ (by decide), rewriteEntries_lookup]
    cases entries.lookup "const" with
    | none => rfl
    | some value => rw [Option.map_some, rewriteEntry_other _ (by decide)]
  · have mapping : ∀ key ∈ referenceMappings, key ≠ "title" ∧ key ∈ annotatedKeywords.mappings := by
      decide
    rw [get_stripped _ (mapping key known).1]
    exact mapped_rewritten related (mapping key known).2
  · rw [get_stripped _ (by decide)]
    exact listed_rewritten related (by decide)
  · rw [get_stripped _ (by decide)]
    exact listed_rewritten related (by decide)
  · rw [get_stripped _ (by decide)]
    exact listed_rewritten related (by decide)
  · rw [get_stripped _ (by decide)]
    exact ⟨rewriteEntry_present some, single_rewritten related (by decide) atoms single⟩
  · rw [same (by decide) (by decide), found]
  · rw [get_stripped _ (by decide)]
    cases found : entries.get "additionalProperties" with
    | none => exact .inl rfl
    | list schemas =>
        refine .inr (.inr ⟨rewriteEntry_present (by simp), ?_⟩)
        rw [rewriteEntry, if_neg (by decide)]
        exact atoms _ (by simp)
    | dict schema =>
        refine .inr (.inr ⟨rewriteEntry_present (by simp), ?_⟩)
        rw [rewriteEntry, if_neg (by decide), if_pos (by decide)]
        rfl
    | bool _ | int _ | float _ | str _ => exact .inr (.inr ⟨by simp [rewriteEntry], rfl⟩)

theorem stripped_simulates : Simulates Stripped := by
  rintro narrow (_ | _ | _ | _ | _ | _ | entries) rfl
  case dict => exact .inr ⟨stripped entries, entries, rfl, rfl, stripped_narrows entries⟩
  all_goals exact .inl ⟨rfl, by simp⟩

/-! ## Converted schemas -/

/-- An object schema requires declared properties only. -/
def requiresDeclared (entries : Dict) : Bool :=
  !isObject entries ||
    match entries.get "required" with
    | .list names => names.all fun
        | .str name => declared entries name
        | _ => false
    | _ => true

def RequiresDeclared : Value → Prop
  | .dict entries => requiresDeclared entries = true
  | _ => True

/-- Every object schema that strict mode descends to requires declared properties only. -/
def Requirable (schema : Value) : Prop :=
  ∀ inner, Subschema normalizedKeywords schema inner → RequiresDeclared inner

theorem requirable_dict (entries : Dict) :
    Requirable (.dict entries) ↔ requiresDeclared entries = true ∧
      ∀ child, Child normalizedKeywords entries child → Requirable child :=
  forall_subschema

theorem has_iff {entries : Dict} {key : String} :
    entries.has key = true ↔ key ∈ entries.map Prod.fst := by
  rw [Dict.has]
  induction entries with
  | nil => simp
  | cons entry rest ih =>
      obtain ⟨name, value⟩ := entry
      rw [List.lookup_cons, List.map_cons, List.mem_cons, ← ih]
      by_cases same : key = name
      · simp [same]
      · simp [same, beq_eq_false_iff_ne.mpr same]

theorem Alike.declared {entries entries' : Dict} (alike : Alike entries entries') (name : String) :
    declared entries' name = declared entries name := by
  unfold Schemas.declared
  rcases alike.properties with same | ⟨properties, properties', old, new, names⟩
  · rw [same]
  · rw [old, new]
    rw [Bool.eq_iff_iff, has_iff, has_iff, names]

theorem requiresDeclared_iff (entries : Dict) :
    requiresDeclared entries = true ↔ (isObject entries = true →
      ∀ names, entries.get "required" = .list names →
        ∀ name ∈ names, ∃ text, name = .str text ∧ declared entries text = true) := by
  rw [requiresDeclared, Bool.or_eq_true, Bool.not_eq_true']
  constructor
  · rintro (other | all) object names found name demanded
    · rw [other] at object
      cases object
    · rw [found] at all
      have here := List.all_eq_true.mp all name demanded
      cases name with
      | str text => exact ⟨text, rfl, here⟩
      | none | bool _ | int _ | float _ | list _ | dict _ => cases here
  · intro all
    cases object : isObject entries with
    | false => exact .inl rfl
    | true =>
        right
        cases found : entries.get "required" with
        | list names =>
            refine List.all_eq_true.mpr fun name demanded => ?_
            obtain ⟨text, rfl, known⟩ := all object names found name demanded
            exact known
        | none | bool _ | int _ | float _ | str _ | dict _ => rfl

theorem Alike.requiresDeclared {entries entries' : Dict} (alike : Alike entries entries') :
    requiresDeclared entries' = requiresDeclared entries := by
  rw [Bool.eq_iff_iff, requiresDeclared_iff, requiresDeclared_iff, alike.isObject, alike.required]
  simp only [alike.declared]

theorem strip_requirable (schema : Value) :
    Requirable (stripModelAnnotationTitles schema) ↔ Requirable schema := by
  induction schema using schema_induction normalizedKeywords with
  | atom schema other => rw [strip_atom other]
  | dict entries ih =>
      rw [strip_dict, requirable_dict, requirable_dict, stripped,
        (dropTitle_alike _).requiresDeclared, (annotated_alike entries).requiresDeclared, ← stripped,
        forall_child_stripped normalized_within (by decide)]
      exact and_congr_right fun _ => forall₂_congr ih

/-- A schema as strict mode leaves it, or one that it leaves alone. -/
def Converted (narrow wide : Value) : Prop :=
  narrow = wide ∨ narrow = rewrite normalizedKeywords closeObject wide ∧ Convertible wide ∧
    Requirable wide

theorem mapped_refl {child : Value → Value → Prop} (refl : ∀ schema, child schema schema)
    (value : Value) : Mapped child value value := by
  cases value with
  | dict schemas =>
      refine .inl ⟨schemas, schemas, rfl, rfl, ?_⟩
      exact List.forall₂_same.mpr fun entry _ => ⟨rfl, refl entry.2⟩
  | none | bool _ | int _ | float _ | str _ | list _ => exact .inr (by simp)

theorem listed_refl {child : Value → Value → Prop} (refl : ∀ schema, child schema schema)
    (value : Value) : Listed child value value := by
  cases value with
  | list schemas =>
      exact .inl ⟨schemas, schemas, rfl, rfl, List.forall₂_same.mpr fun schema _ => refl schema⟩
  | none | bool _ | int _ | float _ | str _ | dict _ => exact .inr (by simp)

theorem narrows_refl {child : Value → Value → Prop} (refl : ∀ schema, child schema schema)
    (entries : Dict) : Narrows child entries entries where
  type := rfl
  enum := rfl
  const := rfl
  ref := rfl
  mappings _ _ := mapped_refl refl _
  variants := listed_refl refl _
  prefixes := listed_refl refl _
  items := listed_refl refl _
  each _ some := ⟨some, refl _⟩
  required names found := ⟨names, found, List.Subset.refl _⟩
  additional := by
    by_cases free : entries.get "additionalProperties" = .none
    · exact .inl free
    · exact .inr (.inr ⟨free, refl _⟩)

theorem normalized_narrows {entries : Dict}
    (related : ∀ schema, Child normalizedKeywords entries schema →
      Converted (rewrite normalizedKeywords closeObject schema) schema) :
    Narrows Converted (rewriteEntries normalizedKeywords closeObject entries) entries := by
  have refl (schema : Value) : Converted schema schema := .inl rfl
  have same {key : String} (outside : key ∉ normalizedKeywords.singles ∧
      key ∉ normalizedKeywords.mappings ∧ key ∉ normalizedKeywords.lists) :
      Dict.get (rewriteEntries normalizedKeywords closeObject entries) key = entries.get key := by
    rw [get_rewriteEntries, rewriteEntry_other _ outside]
  refine ⟨same (by decide), same (by decide), ?_, same (by decide), fun key known => ?_, ?_, ?_, ?_,
    fun single some => ?_, fun names found => ⟨names, ?_, List.Subset.refl _⟩, ?_⟩
  · rw [rewriteEntries_lookup]
    cases entries.lookup "const" with
    | none => rfl
    | some value => rw [Option.map_some, rewriteEntry_other _ (by decide)]
  · have mapping : ∀ key ∈ referenceMappings, key ∈ normalizedKeywords.mappings := by decide
    rw [get_rewriteEntries]
    exact mapped_rewritten related (mapping key known)
  · rw [get_rewriteEntries]
    exact listed_rewritten related (by decide)
  · rw [get_rewriteEntries]
    exact listed_rewritten related (by decide)
  · rw [get_rewriteEntries]
    cases found : entries.get "items" with
    | list schemas =>
        rw [rewriteEntry, if_neg (by decide)]
        exact listed_refl refl _
    | dict schema =>
        rw [rewriteEntry, if_neg (by decide), if_pos (by decide)]
        exact .inr (by simp)
    | none | bool _ | int _ | float _ | str _ => exact listed_refl refl _
  · rw [get_rewriteEntries]
    exact ⟨rewriteEntry_present some,
      single_rewritten related (by decide) (fun schema _ => refl schema) single⟩
  · rw [same (by decide), found]
  · rw [same (by decide)]
    exact (narrows_refl refl entries).additional

theorem closeObject_lookup (entries : Dict) {key : String}
    (other : key ≠ "additionalProperties" ∧ key ≠ "properties" ∧ key ≠ "required") :
    (closeObject entries).lookup key = entries.lookup key := by
  have kept (target : Dict) {written : String} (different : key ≠ written) (value : Value) :
      (setEntry target written value).lookup key = target.lookup key := by
    rw [setEntry_lookup, if_neg different]
  unfold closeObject
  split
  · rfl
  · simp only [get_closed_properties]
    cases entries.get "properties" with
    | none =>
        simp only []
        rw [kept _ other.2.2, kept _ other.2.1, kept _ other.1]
    | dict properties =>
        simp only []
        rw [kept _ other.2.2, kept _ other.1]
    | bool _ | int _ | float _ | str _ | list _ => exact kept _ other.1 _

theorem closeObject_properties {entries : Dict} (object : isObject entries = true)
    (closing : openAdditional entries = false) :
    Dict.get (closeObject entries) "properties" = entries.get "properties" ∨
      entries.get "properties" = .none ∧ Dict.get (closeObject entries) "properties" = .dict [] := by
  unfold closeObject
  rw [object, closing]
  simp only [get_closed_properties, Bool.not_true, Bool.or_self, Bool.false_eq_true, if_false]
  cases properties : entries.get "properties" with
  | none => exact .inr ⟨rfl, by simp [get_setEntry]⟩
  | dict declared => exact .inl (by simp [get_setEntry, properties])
  | bool _ | int _ | float _ | str _ | list _ => exact .inl ((get_closed_properties entries).trans properties)

/-- Closing an object schema narrows it if it requires declared properties only. -/
theorem closeObject_narrows {child : Value → Value → Prop} {source entries : Dict}
    (alike : Alike source entries) (holds : convertible source = true)
    (requires : requiresDeclared source = true) (narrows : Narrows child entries source) :
    Narrows child (closeObject entries) source := by
  have same {key : String}
      (other : key ≠ "additionalProperties" ∧ key ≠ "properties" ∧ key ≠ "required") :
      Dict.get (closeObject entries) key = entries.get key := by
    rw [Dict.get, closeObject_lookup entries other, ← Dict.get]
  cases object : isObject entries with
  | false =>
      rw [closeObject, object]
      exact narrows
  | true =>
      obtain ⟨closing, mapped⟩ := convertible_object (alike.convertible.trans holds) object
      obtain ⟨additional, names, required, listed⟩ := closeObject_writes object closing mapped
      have properties := closeObject_properties object closing
      have inside : ∀ text, declared source text = true → text ∈ names := by
        intro text known
        rw [← alike.declared, declared] at known
        rcases listed with ⟨absent, rfl⟩ | ⟨written, found, all⟩
        · rcases properties with kept | ⟨_, empty⟩
          · rw [kept] at absent
            cases found : entries.get "properties" with
            | none => rw [found] at known; cases known
            | dict declared => rw [found] at absent; cases absent
            | bool _ | int _ | float _ | str _ | list _ => rw [found] at known; cases known
          · rw [empty] at absent
            cases absent
        · rcases properties with kept | ⟨none, _⟩
          · rw [← kept, found] at known
            exact (all text).mpr (has_iff.mp known)
          · rw [none] at known
            cases known
      refine ⟨(same (by decide)).trans narrows.type, (same (by decide)).trans narrows.enum,
        (closeObject_lookup entries (by decide)).trans narrows.const,
        (same (by decide)).trans narrows.ref, fun key known => ?_, ?_, ?_, ?_, ?_,
        fun names' found => ⟨_, required, fun name demanded => ?_⟩, .inr (.inl additional)⟩
      · by_cases here : key = "properties"
        · subst here
          rcases properties with kept | ⟨none, empty⟩
          · rw [kept]
            exact narrows.mappings _ known
          · rw [empty]
            refine .inr ⟨fun schemas same => (Value.dict.inj same).symm, ?_⟩
            rcases narrows.mappings _ known with ⟨_, _, found, _⟩ | ⟨_, other⟩
            · rw [none] at found
              cases found
            · exact other
        · have others : ∀ key ∈ referenceMappings, key ≠ "properties" →
              key ≠ "additionalProperties" ∧ key ≠ "properties" ∧ key ≠ "required" := by
            decide
          rw [same (others key known here)]
          exact narrows.mappings key known
      · rw [same (by decide)]
        exact narrows.variants
      · rw [same (by decide)]
        exact narrows.prefixes
      · rw [same (by decide)]
        exact narrows.items
      · rw [same (by decide)]
        exact narrows.each
      · rw [alike.isObject] at object
        obtain ⟨text, rfl, known⟩ :=
          (requiresDeclared_iff source).mp requires object names' found name demanded
        exact List.mem_map_of_mem (inside text known)

theorem converted_simulates : Simulates Converted := by
  rintro narrow wide (rfl | ⟨rfl, converts, requires⟩)
  · cases narrow with
    | dict entries =>
        exact .inr ⟨entries, entries, rfl, rfl, narrows_refl (fun _ => .inl rfl) entries⟩
    | none | bool _ | int _ | float _ | str _ | list _ => exact .inl ⟨rfl, by simp⟩
  · obtain ⟨entries, rfl, here⟩ := converts wide (.here wide)
    have converts' := ((convertible_dict entries).mp converts).2
    obtain ⟨declared, requires'⟩ := (requirable_dict entries).mp requires
    refine .inr ⟨_, entries, rfl, rfl, ?_⟩
    apply closeObject_narrows (normalized_alike entries) here declared
    exact normalized_narrows fun schema direct =>
      .inr ⟨rfl, converts' schema direct, requires' schema direct⟩

/-- What is valid under a strict schema is valid under the schema it comes from, if all object
schemas that strict mode descends to require declared properties only. -/
theorem strict_narrows {floatBytes : ℚ → Nat} {schema : JsonObject} {result : Value}
    (done : normalizeOpenaiStrictSchema floatBytes schema.entries = .ok (result, true))
    (requires : Requirable (.dict schema.entries)) {value : Value} (valid : Valid result value) :
    Valid (.dict schema.entries) value := by
  obtain ⟨decided, written⟩ := normalizeOpenaiStrictSchema_ok done
  rw [if_pos rfl] at written
  have converts := (every_convertible _).mp decided.symm
  have titled : Valid (stripModelAnnotationTitles (.dict schema.entries)) value := by
    apply converted_simulates.valid _ valid
    exact .inr ⟨written, converts, (strip_requirable _).mpr requires⟩
  exact stripped_simulates.valid rfl titled

theorem searchParameters_requirable : Requirable (.dict searchParameters.entries) := by
  have all : every normalizedKeywords requiresDeclared (.dict searchParameters.entries) = true := by
    decide
  intro inner path
  obtain ⟨entries, rfl, known⟩ := every_iff.mp all inner path
  exact known

theorem searchParameters_narrows :
    normalizeOpenaiStrictSchema (fun _ => 3) searchParameters.entries =
        .ok (strictSearchParameters, true) ∧
      Requirable (.dict searchParameters.entries) ∧
      Valid (.dict searchParameters.entries)
        (.dict [("query", .str "logs"), ("options", .dict [("limit", .int 5)])]) :=
  ⟨searchParameters_strict, searchParameters_requirable,
    strict_narrows searchParameters_strict searchParameters_requirable ⟨5, by decide +kernel⟩⟩

/-- A required name without a declared property is lost. -/
theorem strict_widens :
    ¬ ∀ (floatBytes : ℚ → Nat) (schema : JsonObject) (result : Value),
      normalizeOpenaiStrictSchema floatBytes schema.entries = .ok (result, true) →
      ∀ value, Valid result value → Valid (.dict schema.entries) value := by
  intro narrow
  let undeclared : JsonObject :=
    ⟨[("type", .str "object"), ("properties", .dict []), ("required", .list [.str "path"])],
      by decide⟩
  have done : normalizeOpenaiStrictSchema (fun _ => 3) undeclared.entries =
      .ok (.dict [("type", .str "object"), ("properties", .dict []), ("required", .list []),
        ("additionalProperties", .bool false)], true) := rfl
  obtain ⟨fuel, valid⟩ := narrow _ undeclared _ done (.dict []) ⟨1, by decide +kernel⟩
  cases fuel with
  | zero => cases valid
  | succ fuel =>
      have required : requiredHold undeclared.entries [] = true := by
        rw [validWithin] at valid
        simp only [keywordsHold, structureHolds, Bool.and_eq_true] at valid
        exact valid.2.1.2
      cases required

end AgentLibOS.Schemas
