import AgentLibOS.Capability.ShellRules
import AgentLibOS.Library.Metered
import Mathlib.Data.Nat.Size

namespace AgentLibOS.Responses
open Capability Library.Metered

abbrev ResponseItemsError := String

def responseItemsMaxBytes : Nat := 4 * 1024 * 1024

def responseItemsMaxItems : Nat := 2048

def responseItemsMaxStringBytes : Nat := 1024 * 1024

def maxDepth : Nat := 16

def maxNodes : Nat := 32768

/-! ## Wire values -/

/-- A key of a mapping; some texts have lone surrogates, and no key need be a text. -/
inductive WireKey
  | text (value : String)
  | surrogates (underscored : Bool)
  | other
  deriving DecidableEq, Repr

/-- What a provider or the history hands over: JSON, and the models of the SDK with their fields
and extra fields. -/
inductive WireValue
  | null
  | bool (value : Bool)
  | int (value : Int)
  | float (value : FloatValue)
  | text (value : String)
  | surrogates (length : Nat)
  | items (values : List WireValue)
  | object (entries : List (WireKey × WireValue))
  | model (outputMessage : Bool) (fieldsSet : List String)
      (fields extras : List (WireKey × WireValue))
  | unsupported

abbrev WireEntries := List (WireKey × WireValue)

def WireValue.isNull : WireValue → Bool
  | .null => true
  | _ => false

def WireValue.isText (expected : String) : WireValue → Bool
  | .text value => value == expected
  | _ => false

mutual

/-- JSON as a wire value. -/
def plain : Value → WireValue
  | .none => .null
  | .bool value => .bool value
  | .int value => .int value
  | .float value => .float value
  | .str text => .text text
  | .list items => .items (plainItems items)
  | .dict entries => .object (plainEntries entries)

def plainItems : List Value → List WireValue
  | [] => []
  | item :: rest => plain item :: plainItems rest

def plainEntries : Dict → WireEntries
  | [] => []
  | (key, value) :: rest => (.text key, plain value) :: plainEntries rest

end

def plainEntry (entry : String × Value) : WireKey × WireValue := (.text entry.1, plain entry.2)

theorem plainItems_eq (items : List Value) : plainItems items = items.map plain := by
  induction items with
  | nil => rfl
  | cons item rest ih => rw [plainItems, List.map_cons, ih]

theorem plainEntries_eq (entries : Dict) : plainEntries entries = entries.map plainEntry := by
  induction entries with
  | nil => rfl
  | cons entry rest ih => rw [plainEntries, List.map_cons, ih, plainEntry]

/-! ## Fields of the SDK -/

def webExtractorFields : List String := ["type", "id", "status", "goal", "urls", "output"]

/-- The message fields that the SDK fills in on an extractor item. -/
def synthetic (fieldsSet : List String) (fields : WireEntries) (key : WireKey) : Bool :=
  ["content", "role", "phase"].any fun name =>
    key == .text name && !webExtractorFields.contains name && !fieldsSet.contains name &&
      (fields.lookup (.text name)).all WireValue.isNull

def omitUnsetSdkDefaults (outputMessage : Bool) (fieldsSet : List String) (fields : WireEntries) :
    WireEntries :=
  if !(fields.lookup (.text "type")).any (WireValue.isText "web_extractor_call") then fields
  else if !outputMessage then fields
  else fields.filter fun entry => !synthetic fieldsSet fields entry.1

def WireKey.shown : WireKey → Bool
  | .text value => value.toList.head? != some '_'
  | .surrogates underscored => !underscored
  | .other => false

/-- One assignment of `dict.update`. -/
def assign (entries : WireEntries) (entry : WireKey × WireValue) : WireEntries :=
  if entries.any (·.1 == entry.1) then
    entries.map fun old => if old.1 = entry.1 then (old.1, entry.2) else old
  else entries ++ [entry]

/-- `_sdk_fields`. -/
def sdkFields (outputMessage : Bool) (fieldsSet : List String) (fields extras : WireEntries) :
    Except ResponseItemsError WireEntries :=
  if maxNodes < fields.length ∨ maxNodes < extras.length then
    .error "Responses replay structure exceeds the supported bound"
  else
    let shown := (omitUnsetSdkDefaults outputMessage fieldsSet fields).filter (·.1.shown)
    .ok (extras.foldl assign shown)

/-! ## The bounded copy -/

@[ext] structure WireCount where
  nodes : Nat
  stringBytes : Nat
  deriving DecidableEq, Repr

instance : Zero WireCount := ⟨⟨0, 0⟩⟩

instance : Add WireCount :=
  ⟨fun left right => ⟨left.nodes + right.nodes, left.stringBytes + right.stringBytes⟩⟩

@[simp] theorem nodes_zero : (0 : WireCount).nodes = 0 := rfl

@[simp] theorem stringBytes_zero : (0 : WireCount).stringBytes = 0 := rfl

@[simp] theorem nodes_add (left right : WireCount) :
    (left + right).nodes = left.nodes + right.nodes := rfl

@[simp] theorem stringBytes_add (left right : WireCount) :
    (left + right).stringBytes = left.stringBytes + right.stringBytes := rfl

instance : AddMonoid WireCount where
  add_assoc _ _ _ := WireCount.ext (Nat.add_assoc _ _ _) (Nat.add_assoc _ _ _)
  zero_add _ := WireCount.ext (Nat.zero_add _) (Nat.zero_add _)
  add_zero _ := WireCount.ext (Nat.add_zero _) (Nat.add_zero _)
  nsmul := nsmulRec

def WireCount.Within (count : WireCount) : Prop :=
  count.nodes ≤ maxNodes ∧ count.stringBytes ≤ responseItemsMaxBytes

abbrev Counted := StateT WireCount (Except ResponseItemsError)

def raise {β : Type} (fault : ResponseItemsError) : Counted β := fun _ => .error fault

/-- One more node. -/
def enter : Counted PUnit := fun count =>
  if maxNodes < count.nodes + 1 then .error "Responses replay structure exceeds the supported bound"
  else .ok (⟨⟩, ⟨count.nodes + 1, count.stringBytes⟩)

/-- `_string`. -/
def copyString (value : String) : Counted String := fun count =>
  if responseItemsMaxStringBytes < value.length then
    .error "Responses replay text exceeds the supported bound"
  else
    let size := value.utf8ByteSize
    if responseItemsMaxStringBytes < size ∨ responseItemsMaxBytes < count.stringBytes + size then
      .error "Responses replay text exceeds the supported bound"
    else .ok (value, ⟨count.nodes, count.stringBytes + size⟩)

def copySurrogates {β : Type} (length : Nat) : Counted β :=
  raise (if responseItemsMaxStringBytes < length then
    "Responses replay text exceeds the supported bound" else "Responses replay text is not valid UTF-8")

def isFinite : FloatValue → Bool
  | .finite _ => true
  | _ => false

/-- A key is copied like a value, one level further down. -/
def copyKey (left : Nat) : WireKey → Counted String
  | .text value => do
      check (0 < left) "Responses replay structure exceeds the supported bound"
      enter
      copyString value
  | .surrogates _ => raise "Responses replay text is not valid UTF-8"
  | .other => raise "Responses replay object keys must be strings"

/-- The value of an entry is copied before its key. -/
def copyEntry (copy : WireValue → Counted Value) (left : Nat) (entry : WireKey × WireValue) :
    Counted (String × Value) := do
  check (entry.1 ≠ .other) "Responses replay object keys must be strings"
  let value ← copy entry.2
  let key ← copyKey left entry.1
  return (key, value)

def copyEntries (copy : WireValue → Counted Value) (left : Nat) (entries : WireEntries) :
    Counted Value := do
  check (entries.length ≤ maxNodes) "Responses replay structure exceeds the supported bound"
  let copied ← entries.mapM (copyEntry copy left)
  return .dict copied

/-- The copy of a value behind the count of its node. -/
def copyInside (copy : WireValue → Counted Value) (left : Nat) : WireValue → Counted Value
  | .null => return .none
  | .bool value => return .bool value
  | .text value => do
      let copied ← copyString value
      return .str copied
  | .surrogates length => copySurrogates length
  | .int value => do
      check (value.natAbs.size ≤ 64) "Responses replay integer exceeds the supported bound"
      return .int value
  | .float value => do
      check (isFinite value = true) "Responses replay contains a non-finite number"
      return .float value
  | .items values => do
      check (values.length ≤ maxNodes) "Responses replay structure exceeds the supported bound"
      let copied ← values.mapM copy
      return .list copied
  | .object entries => copyEntries copy left entries
  | .model outputMessage fieldsSet fields extras =>
      match sdkFields outputMessage fieldsSet fields extras with
      | .error fault => raise fault
      | .ok entries => copyEntries copy left entries
  | .unsupported => raise "Responses replay contains an unsupported value"

/-- `_BoundedWireCopy.copy` with so many levels left. -/
def copy : Nat → WireValue → Counted Value
  | 0 => fun _ => raise "Responses replay structure exceeds the supported bound"
  | left + 1 => fun value => do
      enter
      copyInside (copy left) left value

/-! ## What a copy counts -/

def keySize : WireKey → WireCount
  | .text value => ⟨1, value.utf8ByteSize⟩
  | _ => 0

def entrySize (size : WireValue → WireCount) (entry : WireKey × WireValue) : WireCount :=
  size entry.2 + keySize entry.1

def sizeInside (size : WireValue → WireCount) : WireValue → WireCount
  | .text value => ⟨0, value.utf8ByteSize⟩
  | .items values => total size values
  | .object entries => total (entrySize size) entries
  | .model outputMessage fieldsSet fields extras =>
      match sdkFields outputMessage fieldsSet fields extras with
      | .error _ => 0
      | .ok entries => total (entrySize size) entries
  | _ => 0

/-- The nodes and the bytes of texts in so many levels of a value. -/
def wireSize : Nat → WireValue → WireCount
  | 0 => fun _ => 0
  | left + 1 => fun value => ⟨1, 0⟩ + sizeInside (wireSize left) value

end AgentLibOS.Responses
