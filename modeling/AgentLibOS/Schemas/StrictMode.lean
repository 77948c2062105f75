import AgentLibOS.Library.Run
import AgentLibOS.Schemas.Tree
import AgentLibOS.Snapshots.Rows

namespace AgentLibOS.Schemas
open Capability Library.Run
open Snapshots (setEntry setEntry_lookup)

/-! ## Bounds -/

/-- `ValueError`, by its message. -/
abbrev SchemaError := String

def openaiSchemaMaxDepth : Nat := 64

def openaiSchemaMaxNodes : Nat := 4096

def openaiSchemaMaxBytes : Nat := 1048576

/-- The bytes of a character in a JSON text without ASCII escapes. -/
def jsonCharBytes (c : Char) : Nat :=
  if c = '"' ∨ c = '\\' ∨ c = '\n' ∨ c = '\r' ∨ c = '\t' ∨ c = '\x08' ∨ c = '\x0c' then 2
  else if c.toNat < 32 then 6
  else c.utf8Size

def jsonTextBytes (text : String) : Nat :=
  text.toList.foldl (fun bytes c => bytes + jsonCharBytes c) 2

/-- The bytes of a value that is no container; `none` if it is no JSON value. `floatBytes` is the
length of `repr` of a finite float. -/
def scalarBytes (floatBytes : ℚ → Nat) : Value → Option Nat
  | .none => some 4
  | .bool value => some (if value then 4 else 5)
  | .int value => some (toString value).length
  | .float (.finite value) => some (floatBytes value)
  | .str text => some (jsonTextBytes text)
  | _ => none

structure SchemaSize where
  nodes : Nat
  bytes : Nat

namespace SchemaSize

def enter (size : SchemaSize) (depth : Nat) : Except SchemaError SchemaSize := do
  ensure (size.nodes + 1 ≤ openaiSchemaMaxNodes)
    s!"OpenAI schema exceeds maximum node count={openaiSchemaMaxNodes}"
  ensure (depth ≤ openaiSchemaMaxDepth)
    s!"OpenAI schema exceeds maximum depth={openaiSchemaMaxDepth}"
  .ok { size with nodes := size.nodes + 1 }

def add (size : SchemaSize) (bytes : Nat) : Except SchemaError SchemaSize := do
  ensure (size.bytes + bytes ≤ openaiSchemaMaxBytes)
    s!"OpenAI schema exceeds maximum encoded bytes={openaiSchemaMaxBytes}"
  .ok { size with bytes := size.bytes + bytes }

end SchemaSize

mutual

def measureSchema (floatBytes : ℚ → Nat) (depth : Nat) (size : SchemaSize) :
    Value → Except SchemaError SchemaSize
  | .dict entries => do
      let size ← size.enter depth
      let keys := entries.foldl (fun bytes entry => bytes + jsonTextBytes entry.1) 0
      let size ← size.add (2 + (entries.length - 1) + entries.length + keys)
      measureValues floatBytes (depth + 1) size entries
  | .list items => do
      let size ← size.enter depth
      let size ← size.add (2 + (items.length - 1))
      measureItems floatBytes (depth + 1) size items
  | value => do
      let size ← size.enter depth
      match scalarBytes floatBytes value with
      | some bytes => size.add bytes
      | none => .error "OpenAI schema must contain only JSON values"

def measureValues (floatBytes : ℚ → Nat) (depth : Nat) (size : SchemaSize) :
    Dict → Except SchemaError SchemaSize
  | [] => .ok size
  | (_, value) :: rest => do
      let size ← measureSchema floatBytes depth size value
      measureValues floatBytes depth size rest

def measureItems (floatBytes : ℚ → Nat) (depth : Nat) (size : SchemaSize) :
    List Value → Except SchemaError SchemaSize
  | [] => .ok size
  | item :: rest => do
      let size ← measureSchema floatBytes depth size item
      measureItems floatBytes depth size rest

end

/-- `_validate_schema_bounds`. -/
def validateSchemaBounds (floatBytes : ℚ → Nat) (schema : Dict) : Except SchemaError Unit :=
  (measureSchema floatBytes 0 ⟨0, 0⟩ (.dict schema)).map fun _ => ()

/-! ## Titles -/

/-- Where `_strip_model_annotation_titles` looks for schemas. -/
def annotatedKeywords : Keywords where
  singles := ["additionalItems", "additionalProperties", "contains", "contentSchema", "else", "if",
    "items", "not", "propertyNames", "then", "unevaluatedItems", "unevaluatedProperties"]
  mappings := ["$defs", "definitions", "dependencies", "dependentSchemas", "patternProperties",
    "properties"]
  lists := ["allOf", "anyOf", "items", "oneOf", "prefixItems"]
  apart := by decide

def dropTitle (entries : Dict) : Dict := entries.filter (·.1 ≠ "title")

/-- `_strip_model_annotation_titles`; the order in which it visits the schemas makes no
difference. -/
def stripModelAnnotationTitles : Value → Value := rewrite annotatedKeywords dropTitle

/-! ## Strict schemas -/

/-- Where `_normalize_schema` descends. Properties are the last it descends to. -/
def normalizedKeywords : Keywords where
  singles := ["items"]
  mappings := ["$defs", "definitions", "properties"]
  lists := ["anyOf", "prefixItems"]
  apart := by decide

def dynamicKeys : List String :=
  ["patternProperties", "propertyNames", "allOf", "oneOf", "not", "dependentRequired",
    "dependentSchemas", "if", "then", "else"]

/-- `is_object`. -/
def isObject (entries : Dict) : Bool :=
  (entries.get "type").eq (.str "object") || entries.has "properties" ||
    entries.has "additionalProperties"

/-- `isinstance(additional, dict) or additional is True`. -/
def openAdditional (entries : Dict) : Bool :=
  match entries.get "additionalProperties" with
  | .dict _ => true
  | .bool true => true
  | _ => false

def mappedProperties (entries : Dict) : Bool :=
  match entries.get "properties" with
  | .none => true
  | .dict _ => true
  | _ => false

/-- What `_normalize_schema` decides about one schema, its inner schemas apart. -/
def convertible (entries : Dict) : Bool :=
  dynamicKeys.all (fun key => !entries.has key) &&
    ((entries.get "unevaluatedProperties").isNone ||
      (entries.get "unevaluatedProperties").eq (.bool false)) &&
    (!isObject entries || (!openAdditional entries && mappedProperties entries))

/-- What `_normalize_schema` writes into one schema, its inner schemas apart. -/
def closeObject (entries : Dict) : Dict :=
  if !isObject entries || openAdditional entries then entries
  else
    let closed : Dict := setEntry entries "additionalProperties" (.bool false)
    match closed.get "properties" with
    | .none => setEntry (setEntry closed "properties" (.dict [])) "required" (.list [])
    | .dict properties =>
        setEntry closed "required" (.list (properties.map fun property => .str property.1))
    | _ => closed

/-- `_normalize_schema`: the schema it leaves, where it succeeds, and its result. -/
def normalizeSchema (schema : Value) : Value × Bool :=
  (rewrite normalizedKeywords closeObject schema, every normalizedKeywords convertible schema)

def normalizeOpenaiStrictSchema (floatBytes : ℚ → Nat) (schema : Dict) :
    Except SchemaError (Value × Bool) := do
  validateSchemaBounds floatBytes schema
  let candidate := stripModelAnnotationTitles (.dict schema)
  match normalizeSchema candidate with
  | (normalized, true) => .ok (normalized, true)
  | (_, false) => .ok (stripModelAnnotationTitles (.dict schema), false)

theorem normalizeOpenaiStrictSchema_ok {floatBytes : ℚ → Nat} {schema : Dict} {result : Value}
    {strict : Bool} (done : normalizeOpenaiStrictSchema floatBytes schema = .ok (result, strict)) :
    strict = every normalizedKeywords convertible (stripModelAnnotationTitles (.dict schema)) ∧
      result = if strict then
        rewrite normalizedKeywords closeObject (stripModelAnnotationTitles (.dict schema))
      else stripModelAnnotationTitles (.dict schema) := by
  obtain ⟨_, _, done⟩ := bind_eq_ok.mp done
  simp only [normalizeSchema] at done
  cases certified : every normalizedKeywords convertible (stripModelAnnotationTitles (.dict schema)) with
  | true =>
      rw [certified] at done
      cases done
      exact ⟨rfl, rfl⟩
  | false =>
      rw [certified] at done
      cases done
      exact ⟨rfl, rfl⟩

end AgentLibOS.Schemas
