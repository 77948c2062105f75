import AgentLibOS.Schemas.Tree

namespace AgentLibOS.Schemas
open Capability

/-! ## Instances -/

mutual

/-- Equality of JSON values: a boolean is no number. -/
def jsonEqual : Value → Value → Bool
  | .list left, .list right => jsonEqualItems left right
  | .dict left, .dict right => left.length == right.length && jsonEqualEntries left right
  | left, right => left.isBool == right.isBool && left.atomEq right

def jsonEqualItems : List Value → List Value → Bool
  | [], [] => true
  | left :: restLeft, right :: restRight =>
      jsonEqual left right && jsonEqualItems restLeft restRight
  | _, _ => false

def jsonEqualEntries : Dict → Dict → Bool
  | [], _ => true
  | (key, left) :: rest, other =>
      (match other.lookup key with
        | some right => jsonEqual left right
        | none => false) && jsonEqualEntries rest other

end

def hasType (name : String) : Value → Bool
  | .none => name == "null"
  | .bool _ => name == "boolean"
  | .int _ => name == "integer" || name == "number"
  | .float (.finite value) => name == "number" || (name == "integer" && value.den == 1)
  | .float _ => name == "number"
  | .str _ => name == "string"
  | .list _ => name == "array"
  | .dict _ => name == "object"

def typed (entries : Dict) (value : Value) : Bool :=
  match entries.get "type" with
  | .str name => hasType name value
  | .list names => names.any fun
      | .str name => hasType name value
      | _ => false
  | _ => true

def enumerated (entries : Dict) (value : Value) : Bool :=
  match entries.get "enum" with
  | .list options => options.any fun option => jsonEqual option value
  | _ => true

def constant (entries : Dict) (value : Value) : Bool :=
  (entries.lookup "const").all fun option => jsonEqual option value

/-! ## References -/

/-- Keywords that name schemas. -/
def referenceMappings : List String := ["$defs", "definitions", "properties"]

/-- The steps of a reference into the schema itself. -/
def referenceTokens (reference : String) : Option (List String) :=
  match reference.splitOn "/" with
  | "#" :: tokens => some (tokens.map fun token => (token.replace "~1" "/").replace "~0" "~")
  | _ => none

def resolve : Value → List String → Option Value
  | schema, [] => some schema
  | .dict entries, key :: name :: rest =>
      if key ∈ referenceMappings then
        match Dict.get entries key with
        | .dict schemas => (schemas.lookup name).bind (resolve · rest)
        | _ => none
      else none
  | _, _ => none

/-! ## Validity -/

def declared (entries : Dict) (name : String) : Bool :=
  match entries.get "properties" with
  | .dict properties => Dict.has properties name
  | _ => false

section
variable (accepts : Value → Value → Bool)

def propertiesHold (entries fields : Dict) : Bool :=
  match entries.get "properties" with
  | .dict properties => properties.all fun property =>
      (fields.lookup property.1).all (accepts property.2)
  | _ => true

def requiredHold (entries fields : Dict) : Bool :=
  match entries.get "required" with
  | .list names => names.all fun
      | .str name => fields.has name
      | _ => false
  | _ => true

def additionalHold (entries fields : Dict) : Bool :=
  (entries.get "additionalProperties").isNone || fields.all fun field =>
    declared entries field.1 || accepts (entries.get "additionalProperties") field.2

def positionsHold (schemas items : List Value) : Bool :=
  (schemas.zip items).all fun pair => accepts pair.1 pair.2

def prefixSchemas (entries : Dict) : List Value :=
  match entries.get "prefixItems" with
  | .list schemas => schemas
  | _ => []

/-- A schema holds of the items after the prefix; a list of schemas holds by position. -/
def itemsHold (entries : Dict) (items : List Value) : Bool :=
  match entries.get "items" with
  | .none => true
  | .list schemas => positionsHold accepts schemas items
  | schema => (items.drop (prefixSchemas entries).length).all (accepts schema)

def variantsHold (entries : Dict) (value : Value) : Bool :=
  match entries.get "anyOf" with
  | .list variants => variants.any fun variant => accepts variant value
  | _ => true

def referenceHolds (root : Value) (entries : Dict) (value : Value) : Bool :=
  match entries.get "$ref" with
  | .str reference =>
      (((referenceTokens reference).bind (resolve root)).map (accepts · value)).getD false
  | _ => true

def structureHolds (entries : Dict) : Value → Bool
  | .dict fields => propertiesHold accepts entries fields && requiredHold entries fields &&
      additionalHold accepts entries fields
  | .list items => positionsHold accepts (prefixSchemas entries) items &&
      itemsHold accepts entries items
  | _ => true

/-- Whether all keywords of a schema hold of a value, by what its inner schemas accept. -/
def keywordsHold (root : Value) (entries : Dict) (value : Value) : Bool :=
  typed entries value && enumerated entries value && constant entries value &&
    variantsHold accepts entries value && referenceHolds accepts root entries value &&
    structureHolds accepts entries value

end

/-- Validity within a number of nested schemas. -/
def validWithin (root : Value) : Nat → Value → Value → Bool
  | 0, _, _ => false
  | _ + 1, .bool everything, _ => everything
  | fuel + 1, .dict entries, value => keywordsHold (validWithin root fuel) root entries value
  | _ + 1, _, _ => false

/-- The value is valid under the schema: by `type`, `enum`, `const`, `properties`, `required`,
`additionalProperties`, `items`, `prefixItems`, `anyOf` and `$ref`. -/
def Valid (schema value : Value) : Prop := ∃ fuel, validWithin schema fuel schema value = true

/-! ## Narrower schemas -/

/-- Schemas of the same names, each related to the other of its name. -/
abbrev SameNames (child : Value → Value → Prop) : Dict → Dict → Prop :=
  List.Forall₂ fun named named' => named.1 = named'.1 ∧ child named.2 named'.2

section
variable (child : Value → Value → Prop)

/-- Named schemas that are related by name, if there are any. -/
def Mapped (narrow wide : Value) : Prop :=
  (∃ schemas schemas', narrow = .dict schemas ∧ wide = .dict schemas' ∧
    SameNames child schemas schemas') ∨
  ((∀ schemas, narrow = .dict schemas → schemas = []) ∧ ∀ schemas', wide ≠ .dict schemas')

/-- Lists of schemas that are related by position. -/
def Listed (narrow wide : Value) : Prop :=
  (∃ schemas schemas', narrow = .list schemas ∧ wide = .list schemas' ∧
    List.Forall₂ child schemas schemas') ∨
  ((∀ schemas, narrow ≠ .list schemas) ∧ ∀ schemas', wide ≠ .list schemas')

/-- A schema whose keywords demand no less than those of another, as long as its inner schemas do
so. -/
structure Narrows (narrow wide : Dict) : Prop where
  type : narrow.get "type" = wide.get "type"
  enum : narrow.get "enum" = wide.get "enum"
  const : narrow.lookup "const" = wide.lookup "const"
  ref : narrow.get "$ref" = wide.get "$ref"
  mappings : ∀ key ∈ referenceMappings, Mapped child (narrow.get key) (wide.get key)
  variants : Listed child (narrow.get "anyOf") (wide.get "anyOf")
  prefixes : Listed child (narrow.get "prefixItems") (wide.get "prefixItems")
  items : Listed child (narrow.get "items") (wide.get "items")
  each : (∀ schemas, wide.get "items" ≠ .list schemas) → wide.get "items" ≠ .none →
    narrow.get "items" ≠ .none ∧ child (narrow.get "items") (wide.get "items")
  required : ∀ names', wide.get "required" = .list names' →
    ∃ names, narrow.get "required" = .list names ∧ names' ⊆ names
  additional : wide.get "additionalProperties" = .none ∨
    narrow.get "additionalProperties" = .bool false ∨
    (narrow.get "additionalProperties" ≠ .none ∧
      child (narrow.get "additionalProperties") (wide.get "additionalProperties"))

/-- Related schemas are equal or one narrows the other, with related schemas inside. -/
def Simulates : Prop := ∀ narrow wide, child narrow wide →
  (narrow = wide ∧ ∀ entries, wide ≠ .dict entries) ∨
    ∃ entries entries', narrow = .dict entries ∧ wide = .dict entries' ∧
      Narrows child entries entries'

end

section
variable {child : Value → Value → Prop}

theorem SameNames.lookup {schemas schemas' : Dict} (related : SameNames child schemas schemas')
    {name : String} {schema : Value} (found : schemas.lookup name = some schema) :
    ∃ schema', schemas'.lookup name = some schema' ∧ child schema schema' := by
  induction related with
  | nil => cases found
  | @cons entry entry' rest rest' head _ ih =>
      obtain ⟨same, step⟩ := head
      rw [List.lookup_cons] at found
      rw [List.lookup_cons, ← same]
      cases here : name == entry.1 with
      | true =>
          rw [here] at found
          cases found
          exact ⟨entry'.2, rfl, step⟩
      | false =>
          rw [here] at found
          exact ih found

theorem SameNames.has {schemas schemas' : Dict} (related : SameNames child schemas schemas')
    (name : String) : Dict.has schemas name = Dict.has schemas' name := by
  unfold Dict.has
  induction related with
  | nil => rfl
  | @cons entry entry' rest rest' head _ ih =>
      rw [List.lookup_cons, List.lookup_cons, ← head.1]
      cases name == entry.1 with
      | true => rfl
      | false => exact ih

theorem Mapped.lookup {value value' : Value} (mapped : Mapped child value value') {schemas : Dict}
    (known : value = .dict schemas) {name : String} {schema : Value}
    (found : schemas.lookup name = some schema) :
    ∃ schemas' schema', value' = .dict schemas' ∧ schemas'.lookup name = some schema' ∧
      child schema schema' := by
  rcases mapped with ⟨named, named', here, there, related⟩ | ⟨empty, _⟩
  · cases here.symm.trans known
    obtain ⟨schema', inside, step⟩ := SameNames.lookup related found
    exact ⟨named', schema', there, inside, step⟩
  · rw [empty _ known] at found
    cases found

theorem Narrows.declared {narrow wide : Dict} (narrows : Narrows child narrow wide)
    (name : String) : declared narrow name = declared wide name := by
  unfold Schemas.declared
  rcases narrows.mappings "properties" (by decide) with
    ⟨named, named', here, there, related⟩ | ⟨empty, none⟩
  · rw [here, there]
    exact SameNames.has related name
  · have undeclared : (match wide.get "properties" with
        | .dict properties => Dict.has properties name
        | _ => false) = false := by
      cases found : wide.get "properties" with
      | dict properties => exact absurd found (none _)
      | none | bool _ | int _ | float _ | str _ | list _ => rfl
    rw [undeclared]
    cases found : narrow.get "properties" with
    | dict properties => rw [empty _ found]; rfl
    | none | bool _ | int _ | float _ | str _ | list _ => rfl

/-- A reference that resolves in the narrower schema resolves to a related schema in the other. -/
theorem Simulates.resolve (simulates : Simulates child) {root root' : Value}
    (related : child root root') {tokens : List String} {schema : Value}
    (found : resolve root tokens = some schema) :
    ∃ schema', Schemas.resolve root' tokens = some schema' ∧ child schema schema' := by
  induction root, tokens using resolve.induct generalizing root' with
  | case1 root =>
      cases found
      exact ⟨root', by rw [Schemas.resolve], related⟩
  | case2 entries key name rest known schemas mapped ih =>
      rcases simulates _ _ related with ⟨rfl, none⟩ | ⟨_, entries', same, rfl, narrows⟩
      · exact absurd rfl (none entries)
      · cases same
        rw [Schemas.resolve, if_pos known, mapped] at found
        obtain ⟨inner, here, deeper⟩ := Option.bind_eq_some_iff.mp found
        obtain ⟨schemas', inner', there, inside, step⟩ :=
          (narrows.mappings key known).lookup mapped here
        obtain ⟨schema', resolved, last⟩ := ih inner step deeper
        refine ⟨schema', ?_, last⟩
        rw [Schemas.resolve, if_pos known, there]
        exact Option.bind_eq_some_iff.mpr ⟨inner', inside, resolved⟩
  | case3 entries key name rest known none =>
      rw [Schemas.resolve, if_pos known] at found
      split at found
      · rename_i schemas mapped
        exact absurd mapped (none schemas)
      · cases found
  | case4 entries key name rest unknown =>
      rw [Schemas.resolve, if_neg unknown] at found
      cases found
  | case5 root tokens some_tokens other =>
      rw [Schemas.resolve] at found
      · cases found
      · exact some_tokens
      · exact other

theorem Narrows.requiredHold {narrow wide : Dict} (narrows : Narrows child narrow wide)
    {fields : Dict} (holds : Schemas.requiredHold narrow fields = true) :
    Schemas.requiredHold wide fields = true := by
  unfold Schemas.requiredHold at holds ⊢
  cases found : wide.get "required" with
  | list names' =>
      obtain ⟨names, here, covered⟩ := narrows.required names' found
      rw [here] at holds
      simp only [List.all_eq_true] at holds ⊢
      exact fun name listed => holds name (covered listed)
  | none | bool _ | int _ | float _ | str _ | dict _ => rfl

theorem Narrows.prefixes_related {narrow wide : Dict} (narrows : Narrows child narrow wide) :
    List.Forall₂ child (prefixSchemas narrow) (prefixSchemas wide) := by
  unfold prefixSchemas
  rcases narrows.prefixes with ⟨schemas, schemas', here, there, related⟩ | ⟨none, none'⟩
  · rw [here, there]
    exact related
  · have empty {value : Value} (none : ∀ schemas, value ≠ .list schemas) :
        (match value with
          | .list schemas => schemas
          | _ => []) = [] := by
      cases value with
      | list schemas => exact absurd rfl (none schemas)
      | none | bool _ | int _ | float _ | str _ | dict _ => rfl
    rw [empty none, empty none']
    exact .nil

end

theorem itemsHold_each (accepts : Value → Value → Bool) {entries : Dict}
    (some : entries.get "items" ≠ .none) (single : ∀ schemas, entries.get "items" ≠ .list schemas)
    (items : List Value) :
    itemsHold accepts entries items =
      (items.drop (prefixSchemas entries).length).all (accepts (entries.get "items")) := by
  unfold itemsHold
  cases found : entries.get "items" with
  | none => exact absurd found some
  | list schemas => exact absurd found (single schemas)
  | bool _ | int _ | float _ | str _ | dict _ => rfl

section
variable {child : Value → Value → Prop} {accepts accepts' : Value → Value → Bool}
  (inner : ∀ schema schema', child schema schema' → ∀ value, accepts schema value = true →
    accepts' schema' value = true)

include inner

theorem positionsHold_narrows {schemas schemas' : List Value}
    (related : List.Forall₂ child schemas schemas') {items : List Value}
    (holds : positionsHold accepts schemas items = true) :
    positionsHold accepts' schemas' items = true := by
  unfold positionsHold at holds ⊢
  induction related generalizing items with
  | nil => rfl
  | cons head _ ih =>
      cases items with
      | nil => rfl
      | cons item rest =>
          rw [List.zip_cons_cons, List.all_cons, Bool.and_eq_true] at holds ⊢
          exact ⟨inner _ _ head item holds.1, ih holds.2⟩

variable {narrow wide : Dict} (narrows : Narrows child narrow wide)

include narrows

theorem propertiesHold_narrows {fields : Dict} (holds : propertiesHold accepts narrow fields = true) :
    propertiesHold accepts' wide fields = true := by
  unfold propertiesHold at holds ⊢
  rcases narrows.mappings "properties" (by decide) with
    ⟨named, named', here, there, related⟩ | ⟨_, none⟩
  · rw [here] at holds
    rw [there]
    simp only [List.all_eq_true, Option.all_eq_true] at holds ⊢
    clear here there
    induction related with
    | nil => nofun
    | cons head _ ih =>
        rw [List.forall_mem_cons] at holds ⊢
        refine ⟨fun value found => inner _ _ head.2 value (holds.1 value ?_), ih holds.2⟩
        rwa [head.1]
  · cases found : wide.get "properties" with
    | dict properties => exact absurd found (none _)
    | none | bool _ | int _ | float _ | str _ | list _ => rfl

theorem variantsHold_narrows {value : Value} (holds : variantsHold accepts narrow value = true) :
    variantsHold accepts' wide value = true := by
  unfold variantsHold at holds ⊢
  rcases narrows.variants with ⟨schemas, schemas', here, there, related⟩ | ⟨_, none⟩
  · rw [here] at holds
    rw [there]
    simp only at holds ⊢
    clear here there
    induction related with
    | nil => cases holds
    | cons head _ ih =>
        rw [List.any_cons, Bool.or_eq_true] at holds ⊢
        exact holds.imp (inner _ _ head value) ih
  · cases found : wide.get "anyOf" with
    | list variants => exact absurd found (none _)
    | none | bool _ | int _ | float _ | str _ | dict _ => rfl

theorem additionalHold_narrows (closed : ∀ value, accepts (.bool false) value = false)
    {fields : Dict} (holds : additionalHold accepts narrow fields = true) :
    additionalHold accepts' wide fields = true := by
  unfold additionalHold at holds ⊢
  rw [Bool.or_eq_true] at holds ⊢
  rcases narrows.additional with none | shut | ⟨some, step⟩
  · rw [none]
    exact .inl rfl
  · rw [shut] at holds
    refine .inr (List.all_eq_true.mpr fun field inside => ?_)
    have here := List.all_eq_true.mp (holds.resolve_left Bool.false_ne_true) field inside
    rw [closed, Bool.or_false, narrows.declared] at here
    rw [here, Bool.true_or]
  · have present : (Dict.get narrow "additionalProperties").isNone ≠ true := by
      cases found : narrow.get "additionalProperties" with
      | none => exact absurd found some
      | bool _ | int _ | float _ | str _ | list _ | dict _ => exact Bool.false_ne_true
    refine .inr (List.all_eq_true.mpr fun field inside => ?_)
    have here := List.all_eq_true.mp (holds.resolve_left present) field inside
    rw [narrows.declared, Bool.or_eq_true] at here
    rw [Bool.or_eq_true]
    exact here.imp_right (inner _ _ step _)

theorem itemsHold_narrows {items : List Value} (holds : itemsHold accepts narrow items = true) :
    itemsHold accepts' wide items = true := by
  unfold itemsHold at holds ⊢
  rcases narrows.items with ⟨schemas, schemas', here, there, related⟩ | ⟨none, none'⟩
  · rw [here] at holds
    rw [there]
    exact positionsHold_narrows inner related holds
  · by_cases free : wide.get "items" = .none
    · rw [free]
    · obtain ⟨some, step⟩ := narrows.each none' free
      change itemsHold accepts narrow items = true at holds
      change itemsHold accepts' wide items = true
      rw [itemsHold_each _ some none, narrows.prefixes_related.length_eq] at holds
      rw [itemsHold_each _ free none']
      exact List.all_eq_true.mpr fun item inside =>
        inner _ _ step item (List.all_eq_true.mp holds item inside)

theorem keywordsHold_narrows (simulates : Simulates child) {root root' : Value}
    (rooted : child root root') (closed : ∀ value, accepts (.bool false) value = false)
    {value : Value} (holds : keywordsHold accepts root narrow value = true) :
    keywordsHold accepts' root' wide value = true := by
  simp only [keywordsHold, Bool.and_eq_true] at holds ⊢
  obtain ⟨⟨⟨⟨⟨type, enum⟩, const⟩, variants⟩, reference⟩, structured⟩ := holds
  refine ⟨⟨⟨⟨⟨?_, ?_⟩, ?_⟩, variantsHold_narrows inner narrows variants⟩, ?_⟩, ?_⟩
  · rwa [typed, ← narrows.type]
  · rwa [enumerated, ← narrows.enum]
  · rwa [constant, ← narrows.const]
  · unfold referenceHolds at reference ⊢
    rw [← narrows.ref]
    cases found : narrow.get "$ref" with
    | str text =>
        simp only [found] at reference ⊢
        cases parsed : referenceTokens text with
        | none => rw [parsed] at reference; cases reference
        | some tokens =>
            rw [parsed, Option.bind_some] at reference
            cases target : resolve root tokens with
            | none => rw [target] at reference; cases reference
            | some schema =>
                rw [target] at reference
                obtain ⟨schema', resolved, step⟩ := simulates.resolve rooted target
                rw [Option.bind_some, resolved]
                exact inner _ _ step value reference
    | none | bool _ | int _ | float _ | list _ | dict _ => rfl
  · cases value with
    | dict fields =>
        simp only [structureHolds, Bool.and_eq_true] at structured ⊢
        exact ⟨⟨propertiesHold_narrows inner narrows structured.1.1,
          narrows.requiredHold structured.1.2⟩,
          additionalHold_narrows inner narrows closed structured.2⟩
    | list items =>
        simp only [structureHolds, Bool.and_eq_true] at structured ⊢
        exact ⟨positionsHold_narrows inner narrows.prefixes_related structured.1,
          itemsHold_narrows inner narrows structured.2⟩
    | none | bool _ | int _ | float _ | str _ => rfl

end

theorem validWithin_never (root : Value) (fuel : Nat) (value : Value) :
    validWithin root fuel (.bool false) value = false := by
  cases fuel with
  | zero => rfl
  | succ fuel => rfl

/-- What is valid under a schema is valid under every schema that it simulates. -/
theorem Simulates.valid {child : Value → Value → Prop} (simulates : Simulates child)
    {schema schema' value : Value} (related : child schema schema') (valid : Valid schema value) :
    Valid schema' value := by
  obtain ⟨fuel, valid⟩ := valid
  refine ⟨fuel, ?_⟩
  have steps (fuel : Nat) : ∀ inner inner', child inner inner' → ∀ value,
      validWithin schema fuel inner value = true →
        validWithin schema' fuel inner' value = true := by
    induction fuel with
    | zero => exact fun _ _ _ _ => id
    | succ fuel ih =>
        intro inner inner' step value valid
        rcases simulates _ _ step with ⟨rfl, other⟩ | ⟨entries, entries', rfl, rfl, narrows⟩
        · cases inner with
          | dict entries => exact absurd rfl (other entries)
          | bool everything => exact valid
          | none | int _ | float _ | str _ | list _ => cases valid
        · exact keywordsHold_narrows ih narrows simulates related (validWithin_never schema fuel)
            valid
  exact steps fuel _ _ related value valid


end AgentLibOS.Schemas
