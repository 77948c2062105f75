import AgentLibOS.Library.Assoc
import AgentLibOS.Library.JsonMeasure

namespace AgentLibOS.Llm
open Library Library.Json

/-- The floats of a payload: what `repr` writes and what `bool` takes them for. -/
structure ContextFloats where
  Value : Type
  repr : Value → Text
  truthy : Value → Bool
  solid : ∀ value, Solid (repr value)

inductive ContextError
  | validation (text : String)
  | typeError
  | unfinished
  deriving DecidableEq

variable {F : ContextFloats}

abbrev Json (F : ContextFloats) := JsonTree (Scalar F.Value)

abbrev Fields (F : ContextFloats) := List (Text × Json F)

namespace Json

def text (value : Text) : Json F := .leaf (.str value)

def null : Json F := .leaf .null

def int (value : Int) : Json F := .leaf (.int value)

def truthy : Json F → Bool
  | .leaf .null => false
  | .leaf (.bool value) => value
  | .leaf (.int value) => value ≠ 0
  | .leaf (.float value) => F.truthy value
  | .leaf (.str text) => text ≠ []
  | .list items => !items.isEmpty
  | .dict entries => !entries.isEmpty

/-- `list(value)`: a text gives its characters, an object its keys. -/
def elements : Json F → Except ContextError (List (Json F))
  | .list items => .ok items
  | .dict entries => .ok (entries.map fun entry => text entry.1)
  | .leaf (.str value) => .ok (value.map fun c => text [c])
  | .leaf _ => .error .typeError

end Json

namespace Fields

def get (fields : Fields F) (key : String) : Option (Json F) := Assoc.get fields (codes key)

/-- `fields[key] = value`. -/
def put (fields : Fields F) (key : String) (value : Json F) : Fields F := Assoc.put fields (codes key) value

def without (fields : Fields F) (key : String) : Fields F := fields.filter fun field => field.1 ≠ codes key

theorem get_put (fields : Fields F) (key : String) (value : Json F) :
    get (put fields key value) key = some value := Assoc.get_put_self fields (codes key) value

theorem get_put_other {key other : String} (different : codes key ≠ codes other) (fields : Fields F)
    (value : Json F) : get (put fields key value) other = get fields other := by
  rw [get, put, Assoc.get_put, if_neg different]
  rfl

theorem put_put (fields : Fields F) (key : String) (value value' : Json F) :
    put (put fields key value) key value' = put fields key value' := Assoc.put_put fields (codes key) value value'

end Fields

/-! ## Rendering -/

/-- `_EVIDENCE_TIMESTAMP_ENTRY_KINDS`. -/
def evidenceTimestampEntryKinds : List Text :=
  ["process_started", "process_snapshot", "process_delta", "capabilities_snapshot",
    "capabilities_delta", "tool_table_snapshot", "tool_table_delta", "events_delta", "memory_delta",
    "context_omissions", "context_compacted"].map codes

/-- `_model_facing_entry`: a kind that cannot be hashed cannot be looked up either. -/
def modelFacingEntry : Json F → Except ContextError (Json F)
  | .dict entry =>
      match Fields.get entry "kind" with
      | some (.leaf (.str kind)) =>
          .ok (.dict (if kind ∈ evidenceTimestampEntryKinds then Fields.without entry "at" else entry))
      | some (.list _) | some (.dict _) => .error .typeError
      | _ => .ok (.dict entry)
  | entry => .ok entry

/-- `_stable_json`. -/
def stableJson (value : Json F) : Text := dumps F.repr ⟨false, 0, 1, some 2⟩ value

def contextHeader (staticPrefix : Json F) : List Text :=
  [codes "LLM context object:",
    codes "Cache strategy: append_only_stable_prefix",
    codes "The static prefix below should remain stable. New process facts are appended after it.",
    [],
    codes "Static prefix:",
    stableJson staticPrefix,
    [],
    codes "Append-only entries:"]

def entryLines (entry : Json F) : Except ContextError (List Text) := do
  .ok [[], codes "---", stableJson (← modelFacingEntry entry)]

/-- `str.rstrip`. -/
def rstrip (text : Text) : Text := text.rdropWhile isSpacePoint

def render (payload : Fields F) : Except ContextError Text := do
  let staticPrefix := (Fields.get payload "static_prefix").getD (.dict [])
  let entries ← Json.elements ((Fields.get payload "entries").getD (.list []))
  let lines ← entries.mapM entryLines
  .ok (rstrip (List.intercalate [10] (contextHeader staticPrefix ++ lines.flatten)))

def isAscii (c : Nat) : Bool := c < 128

def isOther (c : Nat) : Bool := ¬ isAscii c

def estimateTokens (text : Text) : Nat :=
  let asciiChars := text.countP isAscii
  let nonAsciiChars := text.length - asciiChars
  -- `math.ceil(ascii_chars / 3)`
  max 1 ((asciiChars + 2) / 3 + nonAsciiChars)

theorem estimateTokens_eq (text : Text) :
    estimateTokens text = max 1 ((text.countP isAscii + 2) / 3 + text.countP isOther) := by
  have split : text.length = text.countP isAscii + text.countP isOther :=
    List.length_eq_countP_add_countP isAscii
  rw [estimateTokens, split, Nat.add_sub_cancel_left]

end AgentLibOS.Llm
