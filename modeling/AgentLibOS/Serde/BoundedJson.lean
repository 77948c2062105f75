import AgentLibOS.Library.JsonWriter
import AgentLibOS.Serde.NestingDepth

namespace AgentLibOS.Serde
open Library Library.Json

/-! ## Decoding -/

/-- The interpreter's floats: `float(text)` of a JSON number and `math.isfinite`. -/
structure Floats where
  Value : Type
  read : Text → Value
  finite : Value → Bool

/-- `_MAX_JSON_INTEGER_DIGITS`. -/
def maxJsonIntegerDigits : Nat := 4300

def parseBoundedJsonInteger (value : Text) : Except String Int :=
  let digits := if value.head? = some minus then value.tail else value
  if maxJsonIntegerDigits < digits.length then
    .error "JSON integer exceeds maximum digits=4300"
  else .ok (readInt value)

def notFinite : String := "JSON numbers must be finite"

def parseFiniteJsonFloat (floats : Floats) (value : Text) : Except String floats.Value :=
  if floats.finite (floats.read value) then .ok (floats.read value) else .error notFinite

/-- The hooks for a token of `bounded_json_loads`. -/
def boundedLeaf (floats : Floats) : Token → Except String (Scalar floats.Value)
  | .null => .ok .null
  | .bool value => .ok (.bool value)
  | .int digits => (parseBoundedJsonInteger digits).map .int
  | .float digits => (parseFiniteJsonFloat floats digits).map .float
  | .constant _ => .error notFinite
  | .str text => .ok (.str text)

/-- `_unique_json_object`, or `dict` without it. -/
def objectPairs {α : Type} (rejectDuplicateKeys : Bool) (pairs : List (Text × JsonTree α)) :
    Except String (JsonTree α) :=
  if rejectDuplicateKeys then
    if (pairs.map Prod.fst).Nodup then .ok (.dict pairs)
    else .error "JSON objects must not contain duplicate keys"
  else .ok (.dict (JsonTree.lastWins pairs))

/-- The text of the decoder's own error is left out. -/
def syntaxFault : String := "JSONDecodeError"

/-- `json.loads` with the hooks. Which of several faults of a text comes first is not kept. -/
def decode (floats : Floats) (rejectDuplicateKeys : Bool) (text : Text) :
    Except String (JsonTree (Scalar floats.Value)) :=
  match document text with
  | some tree => JsonTree.build (boundedLeaf floats) (objectPairs rejectDuplicateKeys) tree
  | none => .error syntaxFault

/-! ## The bounded decoder -/

inductive JsonInput
  | str (text : Text)
  | bytes (data : ByteArray)

def isSurrogate (c : Nat) : Bool := isHigh c || isLow c

def decodeJsonText : JsonInput → Except String Text
  | .str text => if text.any isSurrogate then .error "JSON input must be valid UTF-8" else .ok text
  | .bytes data =>
      match String.fromUTF8? data with
      | some text => .ok (codes text)
      | none => .error "JSON input must be valid UTF-8"

/-- The length of the UTF-8 encoding. -/
def encodedLength (text : Text) : Nat :=
  text.foldl (fun total c =>
    total + if c < 0x80 then 1 else if c < 0x800 then 2 else if c < 0x10000 then 3 else 4) 0

def checkMaxBytes (maxBytes : Option Int) (text : Text) : Except String Unit :=
  match maxBytes with
  | none => .ok ()
  | some bound =>
      if bound < 1 then .error "JSON max_bytes must be >= 1"
      else if bound < encodedLength text then .error s!"JSON input exceeds max_bytes={bound}"
      else .ok ()

def boundedJsonLoads (floats : Floats) (value : JsonInput) (maxBytes : Option Int)
    (rejectDuplicateKeys : Bool) : Except String (JsonTree (Scalar floats.Value)) := do
  let text ← decodeJsonText value
  checkMaxBytes maxBytes text
  validateJsonSourceNestingDepth text
  let decoded ← decode floats rejectDuplicateKeys text
  validateJsonNestingDepth (some maxJsonNodes) decoded
  .ok decoded

/-! ## The guard is exact -/

/-- The hooks of a plain `json.loads`, which knows no bounds. -/
def plainLeaf (floats : Floats) : Token → Except String (Scalar floats.Value)
  | .null => .ok .null
  | .bool value => .ok (.bool value)
  | .int digits => .ok (.int (readInt digits))
  | .float digits => .ok (.float (floats.read digits))
  | .constant name => .ok (.float (floats.read name))
  | .str text => .ok (.str text)

/-- `json.loads` without hooks. -/
def jsonLoads (floats : Floats) (text : Text) : Except String (JsonTree (Scalar floats.Value)) :=
  match document text with
  | some tree => JsonTree.build (plainLeaf floats) (objectPairs false) tree
  | none => .error syntaxFault

theorem objectPairs_nodup {α : Type} (reject : Bool) {pairs : List (Text × JsonTree α)} {result : JsonTree α}
    (distinct : (pairs.map Prod.fst).Nodup) (hooked : objectPairs reject pairs = .ok result) :
    result = .dict pairs := by
  cases reject with
  | true =>
      rw [objectPairs, if_pos rfl, if_pos distinct] at hooked
      exact (Except.ok.inj hooked).symm
  | false =>
      rw [objectPairs, if_neg Bool.false_ne_true, JsonTree.lastWins_of_nodup distinct] at hooked
      exact (Except.ok.inj hooked).symm

theorem jsonLoads_depth (floats : Floats) {text : Text} {tree : JsonTree Token}
    (valid : document text = some tree) (distinct : tree.distinct = true) :
    ∃ decoded, jsonLoads floats text = .ok decoded ∧ decoded.depth = tree.depth := by
  have leaves : ∀ token, ∃ result, plainLeaf floats token = .ok result := by
    intro token
    cases token <;> exact ⟨_, rfl⟩
  obtain ⟨decoded, built⟩ := JsonTree.build_total leaves (fun pairs => ⟨_, rfl⟩) tree
  refine ⟨decoded, ?_, (JsonTree.build_shape (fun _ _ => objectPairs_nodup false) distinct built).1⟩
  rw [jsonLoads, valid]
  exact built

theorem ensure_error {condition : Prop} [Decidable condition] {fault : String} :
    Run.ensure condition fault = .error fault ↔ ¬ condition := by
  unfold Run.ensure
  split_ifs with holds <;> simp [holds]

/-- The scanner that knows no grammar decides the depth of the decoded value, and
`bounded_json_loads` decodes exactly the documents of admissible depth. -/
theorem source_depth_guard_exact (floats : Floats) {text : Text} {tree : JsonTree Token}
    (valid : document text = some tree) (distinct : tree.distinct = true) :
    ∃ decoded, jsonLoads floats text = .ok decoded ∧
      validateJsonSourceNestingDepth text = validateJsonNestingDepth none decoded ∧
      (validateJsonSourceNestingDepth text = .error nestingFault ↔
        maxJsonNestingDepth < decoded.depth) ∧
      ∀ (value : JsonInput) (maxBytes : Option Int) (rejectDuplicateKeys : Bool),
        decodeJsonText value = .ok text → checkMaxBytes maxBytes text = .ok () →
        boundedJsonLoads floats value maxBytes rejectDuplicateKeys =
          if decoded.depth ≤ maxJsonNestingDepth then do
            let decoded ← decode floats rejectDuplicateKeys text
            validateJsonNestingDepth (some maxJsonNodes) decoded
            .ok decoded
          else .error nestingFault := by
  obtain ⟨decoded, loaded, depth⟩ := jsonLoads_depth floats valid distinct
  have guard := validateJsonSourceNestingDepth_document valid
  rw [← depth] at guard
  refine ⟨decoded, loaded, ?_, ?_, ?_⟩
  · rw [guard, validateJsonNestingDepth_exact]
  · rw [guard, ensure_error, Nat.not_le]
  · intro value maxBytes reject readable fits
    rw [boundedJsonLoads, readable]
    change (checkMaxBytes maxBytes text >>= fun _ => _) = _
    rw [fits]
    change (validateJsonSourceNestingDepth text >>= fun _ => _) = _
    rw [guard, Run.ensure]
    split_ifs <;> rfl

/-- Brackets, quotes and backslashes inside of strings. -/
def bracketText : Text := codes "[\x7b\"a]\\\\\": \"\\\"[[\x7b\"\x7d]"

def noFloats : Floats := ⟨Unit, fun _ => (), fun _ => true⟩

theorem bracketText_valid : (document bracketText).isSome = true := by decide +kernel

theorem source_depth_guard_exact_brackets :
    ∃ decoded, jsonLoads noFloats bracketText = .ok decoded ∧
      validateJsonSourceNestingDepth bracketText = validateJsonNestingDepth none decoded := by
  have distinct : ((document bracketText).get bracketText_valid).distinct = true := by
    decide +kernel
  obtain ⟨decoded, loaded, same, -⟩ :=
    source_depth_guard_exact noFloats (Option.some_get bracketText_valid).symm distinct
  exact ⟨decoded, loaded, same⟩

end AgentLibOS.Serde
