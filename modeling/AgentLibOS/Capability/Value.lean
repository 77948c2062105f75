import AgentLibOS.Library.Text
import Mathlib.Data.Rat.Defs
import Mathlib.Data.List.Sort

namespace AgentLibOS.Capability
open Library.Text

inductive FloatValue
  | finite (value : ℚ)
  | infinite (negative : Bool)
  | nan
  deriving DecidableEq, Repr

/-- The values that constraints, contexts and rule conditions are made of. -/
inductive Value
  | none
  | bool (value : Bool)
  | int (value : Int)
  | float (value : FloatValue)
  | str (text : String)
  | list (items : List Value)
  | dict (entries : List (String × Value))

abbrev Dict := List (String × Value)

/-- What escapes an evaluation as an exception. -/
inductive Raised
  | typeError | overflowError | valueError
  deriving DecidableEq, Repr

namespace Value

/-- Booleans and integers compare as numbers, and so do finite floats. -/
def number : Value → Option ℚ
  | .bool value => some (if value then 1 else 0)
  | .int value => some value
  | .float (.finite value) => some value
  | _ => Option.none

def atomEq : Value → Value → Bool
  | .none, .none => true
  | .str left, .str right => left == right
  | .float (.infinite left), .float (.infinite right) => left == right
  | left, right =>
      match left.number, right.number with
      | some left, some right => left == right
      | _, _ => false

mutual

/-- Python's `==`. -/
def eq : Value → Value → Bool
  | .list left, .list right => eqList left right
  | .dict left, .dict right => left.length == right.length && eqDict left right
  | left, right => atomEq left right

def eqList : List Value → List Value → Bool
  | [], [] => true
  | left :: restLeft, right :: restRight => eq left right && eqList restLeft restRight
  | _, _ => false

def eqDict : Dict → Dict → Bool
  | [], _ => true
  | (key, left) :: rest, other =>
      (match other.lookup key with
        | some right => eq left right
        | Option.none => false) && eqDict rest other

end

def isNone : Value → Bool
  | .none => true
  | _ => false

def isStr : Value → Bool
  | .str _ => true
  | _ => false

def isBool : Value → Bool
  | .bool _ => true
  | _ => false

/-- Truth of a value, as in `value or default`. -/
def truthy : Value → Bool
  | .none => false
  | .bool value => value
  | .int value => value != 0
  | .float (.finite value) => value != 0
  | .float _ => true
  | .str text => text != ""
  | .list items => !items.isEmpty
  | .dict entries => !entries.isEmpty

def hashable : Value → Bool
  | .list _ => false
  | .dict _ => false
  | _ => true

/-- `[str, ..]`, if every item is a string. -/
def strings : Value → Option (List String)
  | .list items => items.mapM fun
      | .str text => some text
      | _ => Option.none
  | _ => Option.none

end Value

/-- `mapping.get(key)`. -/
def Dict.get (dict : Dict) (key : String) : Value := (dict.lookup key).getD .none

def Dict.has (dict : Dict) (key : String) : Bool := (dict.lookup key).isSome

def strip (text : String) : String := String.ofList (Library.Text.strip isSpace text.toList)

def sortedKeys (keys : List String) : List String := keys.insertionSort (· ≤ ·)

/-- `^[0-9a-f]{64}$`. -/
def isSha256 (text : String) : Bool :=
  text.length == 64 && text.toList.all fun c => ('0' ≤ c && c ≤ '9') || ('a' ≤ c && c ≤ 'f')

structure Timestamp where
  micros : Int
  aware : Bool

/-- What evaluation takes from outside: the `regex` package under its deadline, conversions and
digests of values, and timestamp parsing. -/
structure Engine where
  repr : Value → String
  /-- `float(value)`; a `TypeError` or `ValueError` is `none`. -/
  float : Value → Except Raised (Option FloatValue)
  regexCompiles : String → Bool
  /-- Whether a pattern matches a token fully, after so many others under the same deadline; `none`
  once the deadline has passed or matching fails. -/
  regexFullmatch : String → Nat → String → Option Bool
  /-- The size of the JSON text of a value in UTF-8; `none` if it has none. -/
  jsonBytes : Value → Option Nat
  /-- The SHA-256 of the JSON text of a value. -/
  sha256Json : Value → Except Raised String
  fromisoformat : String → Option Timestamp

/-- `str(value)`. -/
def Engine.str (engine : Engine) : Value → String
  | .none => "None"
  | .bool true => "True"
  | .bool false => "False"
  | .int value => toString value
  | .str text => text
  | value => engine.repr value

/-- The engine on plain inputs, where only the given digest is asked for. -/
def plainEngine (digest : String) : Engine where
  repr := fun _ => ""
  float := fun _ => .ok none
  regexCompiles := fun _ => false
  regexFullmatch := fun _ _ _ => none
  jsonBytes := fun _ => some 256
  sha256Json := fun _ => .ok digest
  fromisoformat := fun _ => none

end AgentLibOS.Capability
