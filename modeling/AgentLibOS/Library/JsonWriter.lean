import AgentLibOS.Library.JsonText
import Mathlib.Data.Nat.Digits.Lemmas

namespace AgentLibOS.Library.Json

inductive Scalar (φ : Type)
  | null
  | bool (value : Bool)
  | int (value : Int)
  | float (value : φ)
  | str (text : Text)

/-! ## Integers -/

def digitsValue (digits : Text) : Nat := digits.foldl (fun value c => value * 10 + (c - zero)) 0

/-- `int(text)` of a JSON integer. -/
def readInt : Text → Int
  | [] => 0
  | c :: digits => if c = minus then -(digitsValue digits : Int) else digitsValue (c :: digits)

def natText (value : Nat) : Text :=
  if value = 0 then [zero] else (Nat.digits 10 value).reverse.map (· + zero)

def intText (value : Int) : Text :=
  if value < 0 then minus :: natText value.natAbs else natText value.natAbs

theorem natText_digits (value : Nat) : ∀ c ∈ natText value, isDigit c = true := by
  intro c inside
  rw [natText] at inside
  split_ifs at inside with none
  · rw [List.mem_singleton.mp inside]
    rfl
  · obtain ⟨digit, listed, rfl⟩ := List.mem_map.mp inside
    have small := Nat.digits_lt_base (by norm_num) (List.mem_reverse.mp listed)
    simp only [isDigit, Bool.and_eq_true, decide_eq_true_iff, zero]
    omega

/-- The first digit is zero only in the text of zero. -/
theorem natText_head (value : Nat) : ∃ c digits, natText value = c :: digits ∧
    isDigit c = true ∧ (c = zero → digits = []) := by
  have all := natText_digits value
  rw [natText] at all ⊢
  split_ifs at all ⊢ with none
  · exact ⟨zero, [], rfl, rfl, fun _ => rfl⟩
  · have nonempty : (Nat.digits 10 value).reverse ≠ [] := by
      simpa [Nat.digits_ne_nil_iff_ne_zero] using none
    obtain ⟨digit, digits, shape⟩ := List.exists_cons_of_ne_nil nonempty
    rw [shape, List.map_cons] at all ⊢
    refine ⟨_, _, rfl, all _ List.mem_cons_self, fun first => ?_⟩
    have last := Nat.getLast_digit_ne_zero 10 none
    have same : (Nat.digits 10 value).getLast (Nat.digits_ne_nil_iff_ne_zero.mpr none) = digit := by
      have head : (Nat.digits 10 value).reverse.head nonempty = digit := by simp [shape]
      rwa [List.head_reverse] at head
    rw [same] at last
    simp only [zero] at first
    omega

theorem digitsValue_natText (value : Nat) : digitsValue (natText value) = value := by
  rw [digitsValue, natText]
  split_ifs with none
  · rw [none]
    rfl
  · rw [List.foldl_map, List.foldl_reverse]
    have shift : (fun (c value : Nat) => value * 10 + (c + zero - zero)) =
        fun c value => c + 10 * value := by
      funext c value
      omega
    rw [shift]
    exact (Nat.ofDigits_eq_foldr _ _).symm.trans (Nat.ofDigits_digits 10 value)

theorem readInt_intText (value : Int) : readInt (intText value) = value := by
  obtain ⟨c, digits, shape, digit, -⟩ := natText_head value.natAbs
  have back := digitsValue_natText value.natAbs
  rw [intText]
  split_ifs with negative
  · rw [readInt, if_pos rfl, back]
    omega
  · have unsigned : c ≠ minus := by
      rintro rfl
      cases digit
    rw [shape] at back ⊢
    rw [readInt, if_neg unsigned, back]
    omega

/-! ## Numbers before other text -/

/-- The text does not go on with a number. -/
def Ends (rest : Text) : Prop :=
  ∀ c ∈ rest.head?, isDigit c = false ∧ c ≠ point ∧ c ≠ 101 ∧ c ≠ 69 ∧ c ≠ 43 ∧ c ≠ minus

theorem Ends.nil : Ends [] := by simp [Ends]

theorem Ends.cons {c : Nat} (rest : Text)
    (known : c ∈ [comma, closeBracket, closeBrace] ∨ isBlank c = true) : Ends (c :: rest) := by
  intro d first
  cases first
  rcases known with known | known
  · have all : ∀ c ∈ [comma, closeBracket, closeBrace], isDigit c = false ∧ c ≠ point ∧ c ≠ 101 ∧
        c ≠ 69 ∧ c ≠ 43 ∧ c ≠ minus := by decide
    exact all _ known
  · simp only [isBlank, Bool.or_eq_true, decide_eq_true_iff] at known
    rcases known with ((rfl | rfl) | rfl) | rfl <;> decide

section
variable {rest : Text} (ends : Ends rest)
include ends

theorem scanDigits_append (text : Text) :
    scanDigits (text ++ rest) = ((scanDigits text).1, (scanDigits text).2 ++ rest) := by
  induction text with
  | nil =>
      cases rest with
      | nil => rfl
      | cons c rest =>
          have other := (ends c rfl).1
          simp [scanDigits, other]
  | cons c text ih =>
      rw [scanDigits] at ih ⊢
      obtain ⟨runs, left⟩ := Prod.mk.inj ih
      cases digit : isDigit c with
      | true => simp [scanDigits, digit, runs, left]
      | false => simp [scanDigits, digit]

theorem scanSign_append {signs : List Nat} (known : ∀ c ∈ signs, c = 43 ∨ c = minus) (text : Text) :
    scanSign signs (text ++ rest) = ((scanSign signs text).1, (scanSign signs text).2 ++ rest) := by
  cases text with
  | cons c text =>
      rw [List.cons_append, scanSign, scanSign]
      split_ifs <;> rfl
  | nil =>
      cases rest with
      | nil => rfl
      | cons c rest =>
          have other := (ends c rfl).2.2.2.2
          have unsigned : c ∉ signs := fun inside => (known c inside).elim other.1 other.2
          simp [scanSign, unsigned]

theorem scanWhole_append (text : Text) :
    scanWhole (text ++ rest) = (scanWhole text).map fun whole => (whole.1, whole.2 ++ rest) := by
  cases text with
  | cons c text =>
      rw [List.cons_append, scanWhole, scanWhole]
      split_ifs with first digit
      · rfl
      · rw [← List.cons_append, scanDigits_append ends]
        rfl
      · rfl
  | nil =>
      cases rest with
      | nil => rfl
      | cons c rest =>
          have other := (ends c rfl).1
          have nonzero : c ≠ zero := by
            rintro rfl
            cases other
          simp [scanWhole, other, nonzero]

theorem scanFraction_append (text : Text) :
    scanFraction (text ++ rest) = ((scanFraction text).1, (scanFraction text).2 ++ rest) := by
  cases text with
  | cons c text =>
      rw [List.cons_append, scanFraction, scanFraction, scanDigits_append ends]
      split_ifs <;> rfl
  | nil =>
      cases rest with
      | nil => rfl
      | cons c rest =>
          have other := (ends c rfl).2.1
          simp [scanFraction, other]

theorem scanExponent_append (text : Text) :
    scanExponent (text ++ rest) = ((scanExponent text).1, (scanExponent text).2 ++ rest) := by
  cases text with
  | cons c text =>
      have signs : ∀ c ∈ [43, 45], c = 43 ∨ c = minus := by decide
      rw [List.cons_append, scanExponent, scanExponent]
      simp only [scanSign_append ends signs, scanDigits_append ends]
      split_ifs <;> rfl
  | nil =>
      cases rest with
      | nil => rfl
      | cons c rest =>
          have other := (ends c rfl).2.2
          simp [scanExponent, other.1, other.2.1]

theorem scanNumber_append (text : Text) :
    scanNumber (text ++ rest) = (scanNumber text).map fun found => (found.1, found.2 ++ rest) := by
  have signs : ∀ c ∈ [minus], c = 43 ∨ c = minus := by decide
  rw [scanNumber, scanNumber, scanSign_append ends signs]
  simp only [scanWhole_append ends, Option.map_map]
  congr 1
  funext whole
  simp only [Function.comp_apply, scanFraction_append ends, scanExponent_append ends]
  split_ifs <;> rfl

end

theorem scanWhole_natText (value : Nat) : scanWhole (natText value) = some (natText value, []) := by
  obtain ⟨c, digits, shape, digit, first⟩ := natText_head value
  have all := natText_digits value
  rw [shape] at all ⊢
  rw [scanWhole]
  split_ifs with none
  · rw [first none, none]
  · rw [scanDigits, List.takeWhile_eq_self_iff.mpr all, List.dropWhile_eq_nil_iff.mpr all]

theorem scanNumber_intText (value : Int) :
    scanNumber (intText value) = some (.int (intText value), []) := by
  obtain ⟨c, digits, shape, digit, -⟩ := natText_head value.natAbs
  have whole := scanWhole_natText value.natAbs
  have unsigned : c ≠ minus := by
    rintro rfl
    cases digit
  rw [intText, scanNumber]
  split_ifs with negative
  · simp [scanSign, whole, scanFraction, scanExponent]
  · rw [shape] at whole ⊢
    simp [scanSign, unsigned, whole, scanFraction, scanExponent]

/-! ## Strings -/

def hexDigit (value : Nat) : Nat := if value < 10 then value + 48 else value + 87

/-- `\uXXXX`. -/
def escapeUnit (unit : Nat) : Text :=
  [backslash, 117, hexDigit (unit / 4096), hexDigit (unit / 256 % 16), hexDigit (unit / 16 % 16),
    hexDigit (unit % 16)]

def highSurrogate (c : Nat) : Nat := 0xD800 + (c - 0x10000) / 0x400

def lowSurrogate (c : Nat) : Nat := 0xDC00 + (c - 0x10000) % 0x400

def shortEscape (c : Nat) : Option Nat :=
  if c = quote then some quote
  else if c = backslash then some backslash
  else if c = 8 then some 98
  else if c = 12 then some 102
  else if c = 10 then some 110
  else if c = 13 then some 114
  else if c = 9 then some 116
  else none

/-- A code point in a string literal; `ascii` is `ensure_ascii`. -/
def writePoint (ascii : Bool) (c : Nat) : Text :=
  match shortEscape c with
  | some e => [backslash, e]
  | none =>
      if 32 ≤ c ∧ (c ≤ 126 ∨ ascii = false) then [c]
      else if c < 0x10000 then escapeUnit c
      else escapeUnit (highSurrogate c) ++ escapeUnit (lowSurrogate c)

def writeString (ascii : Bool) (text : Text) : Text :=
  quote :: (text.flatMap (writePoint ascii) ++ [quote])

/-- The units that a written code point is read as. -/
def unitsOf (c : Nat) : List CodeUnit :=
  if (shortEscape c).isSome ∨ 32 ≤ c ∧ c ≤ 126 then [⟨c, false⟩]
  else if c < 0x10000 then [⟨c, true⟩]
  else [⟨highSurrogate c, true⟩, ⟨lowSurrogate c, true⟩]

theorem hexValue_hexDigit {value : Nat} (small : value < 16) :
    hexValue (hexDigit value) = some value := by
  interval_cases value <;> rfl

theorem scanUnits_escapeUnit {unit : Nat} (small : unit < 0x10000) (text : Text) :
    scanUnits (escapeUnit unit ++ text) =
      (scanUnits text).map fun done => (⟨unit, true⟩ :: done.1, done.2) := by
  have value : ((unit / 4096 * 16 + unit / 256 % 16) * 16 + unit / 16 % 16) * 16 + unit % 16 =
      unit := by
    omega
  have hex₁ := hexValue_hexDigit (show unit / 4096 < 16 by omega)
  have hex₂ := hexValue_hexDigit (show unit / 256 % 16 < 16 by omega)
  have hex₃ := hexValue_hexDigit (show unit / 16 % 16 < 16 by omega)
  have hex₄ := hexValue_hexDigit (show unit % 16 < 16 by omega)
  rw [escapeUnit]
  simp only [List.cons_append, List.nil_append]
  rw [scanUnits, if_neg (by decide), if_pos rfl]
  simp only [hex₁, hex₂, hex₃, hex₄, Option.bind_eq_bind, Option.bind_some, value]
  cases scanUnits text <;> rfl

theorem shortEscape_read {c e : Nat} (short : shortEscape c = some e) (text : Text) :
    scanUnits ([backslash, e] ++ text) =
      (scanUnits text).map fun done => (⟨c, false⟩ :: done.1, done.2) := by
  have back : escapeValue e = some c ∧ e ≠ 117 := by
    unfold shortEscape at short
    split_ifs at short <;> (cases short; subst_vars; decide)
  simp only [List.cons_append, List.nil_append]
  rw [scanUnits.eq_def]
  simp only [if_neg (show ¬ backslash = quote by decide), if_true]
  split
  · rename_i same
    exact absurd (List.cons.inj same).1 back.2
  · rename_i same
    obtain ⟨rfl, rfl⟩ := List.cons.inj same
    simp only [back.1, Option.bind_eq_bind, Option.bind_some]
    cases scanUnits text <;> rfl
  · rename_i same
    cases same

theorem scanUnits_raw {c : Nat} (other : c ≠ quote ∧ c ≠ backslash) (printable : 32 ≤ c)
    (text : Text) : scanUnits (c :: text) =
      (scanUnits text).map fun done => (⟨c, false⟩ :: done.1, done.2) := by
  rw [scanUnits.eq_def]
  simp only [if_neg other.1, if_neg other.2, if_neg (Nat.not_lt_of_le printable)]
  cases scanUnits text <;> rfl

theorem scanUnits_writePoint {c : Nat} (known : c < 0x110000) (text : Text) :
    scanUnits (writePoint true c ++ text) =
      (scanUnits text).map fun done => (unitsOf c ++ done.1, done.2) := by
  rw [writePoint, unitsOf]
  cases short : shortEscape c with
  | some e =>
      simp only [Option.isSome_some, true_or, if_true]
      exact shortEscape_read short text
  | none =>
      have other : c ≠ quote ∧ c ≠ backslash := by
        constructor
        · rintro rfl
          cases short
        · rintro rfl
          cases short
      simp only [Option.isSome_none, Bool.false_eq_true, false_or, Bool.true_eq_false, or_false]
      split_ifs with printable small
      · exact scanUnits_raw other printable.1 text
      · exact scanUnits_escapeUnit small text
      · have high : highSurrogate c < 0x10000 := by
          rw [highSurrogate]
          omega
        have low : lowSurrogate c < 0x10000 := by
          rw [lowSurrogate]
          omega
        rw [List.append_assoc, scanUnits_escapeUnit high, scanUnits_escapeUnit low, Option.map_map]
        rfl

/-- A text of characters, where no high surrogate stands before a low one. -/
structure Portable (text : Text) : Prop where
  known : ∀ c ∈ text, c < 0x110000
  apart : text.IsChain fun a b => ¬ (isHigh a = true ∧ isLow b = true)

instance (text : Text) : Decidable (Portable text) :=
  decidable_of_iff ((∀ c ∈ text, c < 0x110000) ∧
    text.IsChain fun a b => ¬ (isHigh a = true ∧ isLow b = true))
    ⟨fun both => ⟨both.1, both.2⟩, fun portable => ⟨portable.1, portable.2⟩⟩

theorem joinPairs_one {unit : CodeUnit} {rest : List CodeUnit}
    (apart : ∀ next ∈ rest.head?, unit.escaped = true → next.escaped = true →
      ¬ (isHigh unit.value = true ∧ isLow next.value = true)) :
    joinPairs (unit :: rest) = unit.value :: joinPairs rest := by
  obtain ⟨value, escaped⟩ := unit
  cases escaped with
  | false => cases rest <;> rfl
  | true =>
      cases rest with
      | nil => rfl
      | cons next rest =>
          obtain ⟨low, escaped⟩ := next
          cases escaped with
          | false => rfl
          | true =>
              have separate := apart _ rfl rfl rfl
              rw [joinPairs, if_neg]
              rwa [Bool.and_eq_true]

theorem joinSurrogates_split {c : Nat} (astral : 0x10000 ≤ c) :
    joinSurrogates (highSurrogate c) (lowSurrogate c) = c := by
  have quotient := Nat.div_add_mod' (c - 0x10000) 0x400
  unfold joinSurrogates highSurrogate lowSurrogate
  rw [Nat.add_sub_cancel_left, Nat.add_sub_cancel_left, Nat.add_assoc, quotient]
  exact Nat.add_sub_cancel' astral

theorem isHigh_iff {c : Nat} : isHigh c = true ↔ 0xD800 ≤ c ∧ c ≤ 0xDBFF := by simp [isHigh]

theorem isLow_iff {c : Nat} : isLow c = true ↔ 0xDC00 ≤ c ∧ c ≤ 0xDFFF := by simp [isLow]

/-- The first unit of a code point is a low surrogate only if the code point is one. -/
theorem unitsOf_head {c : Nat} (known : c < 0x110000) :
    ∃ unit rest, unitsOf c = unit :: rest ∧ (isLow unit.value = true → isLow c = true) := by
  rw [unitsOf]
  split_ifs with plain small
  · exact ⟨_, _, rfl, id⟩
  · exact ⟨_, _, rfl, id⟩
  · refine ⟨_, _, rfl, fun low => ?_⟩
    rw [isLow_iff] at low
    dsimp only [highSurrogate] at low
    omega

theorem joinPairs_unitsOf {text : Text} (portable : Portable text) :
    joinPairs (text.flatMap unitsOf) = text := by
  obtain ⟨known, apart⟩ := portable
  induction text with
  | nil => rfl
  | cons c text ih =>
      rw [List.forall_mem_cons] at known
      have later := ih known.2 apart.tail
      have next : ∀ unit ∈ (text.flatMap unitsOf).head?, isHigh c = true → isLow unit.value ≠ true := by
        intro unit first high low
        cases text with
        | nil => cases first
        | cons d text =>
            obtain ⟨unit', rest, shape, only⟩ := unitsOf_head (known.2 d List.mem_cons_self)
            rw [List.flatMap_cons, shape] at first
            cases first
            exact (List.isChain_cons_cons.mp apart).1 ⟨high, only low⟩
      rw [List.flatMap_cons, unitsOf]
      split_ifs with plain small
      · rw [List.singleton_append, joinPairs_one, later]
        intro _ _ escaped
        cases escaped
      · rw [List.singleton_append, joinPairs_one, later]
        exact fun unit first _ _ both => next unit first both.1 both.2
      · have high : isHigh (highSurrogate c) = true := by
          rw [isHigh_iff, highSurrogate]
          omega
        have low : isLow (lowSurrogate c) = true := by
          rw [isLow_iff, lowSurrogate]
          omega
        change joinPairs (⟨highSurrogate c, true⟩ :: ⟨lowSurrogate c, true⟩ ::
          text.flatMap unitsOf) = _
        rw [joinPairs, high, low, Bool.and_true, if_pos rfl, later,
          joinSurrogates_split (Nat.le_of_not_lt small)]

theorem scanString_writeString {text : Text} (portable : Portable text) (rest : Text) :
    scanString (text.flatMap (writePoint true) ++ quote :: rest) = some (text, rest) := by
  have units (known : ∀ c ∈ text, c < 0x110000) :
      scanUnits (text.flatMap (writePoint true) ++ quote :: rest) =
        some (text.flatMap unitsOf, rest) := by
    clear portable
    induction text with
    | nil =>
        change scanUnits (quote :: rest) = some ([], rest)
        rw [scanUnits.eq_def]
        exact if_pos rfl
    | cons c text ih =>
        rw [List.forall_mem_cons] at known
        rw [List.flatMap_cons, List.append_assoc, scanUnits_writePoint known.1, ih known.2]
        rfl
  rw [scanString, units portable.known]
  simp [joinPairs_unitsOf portable]

/-! ## Documents -/

/-- `json.dumps`: `ensure_ascii`, the blanks after a comma and a colon, and `indent`. -/
structure Style where
  ascii : Bool
  itemSpaces : Nat
  keySpaces : Nat
  indent : Option Nat

namespace Style

def newline (style : Style) (level : Nat) : Text :=
  style.indent.elim [] fun width => 10 :: List.replicate (width * level) 32

def separator (style : Style) (level : Nat) : Text :=
  comma :: (List.replicate style.itemSpaces 32 ++ style.newline level)

def enclose (style : Style) (level open_ close : Nat) (parts : List Text) : Text :=
  if parts = [] then [open_, close]
  else open_ :: (style.newline (level + 1) ++
    (List.intercalate (style.separator (level + 1)) parts ++ (style.newline level ++ [close])))

end Style

section
variable {φ : Type} (repr : φ → Text) (style : Style)

def writeScalar : Scalar φ → Text
  | .null => codes "null"
  | .bool true => codes "true"
  | .bool false => codes "false"
  | .int value => intText value
  | .float value => repr value
  | .str text => writeString style.ascii text

mutual

def write (level : Nat) : JsonTree (Scalar φ) → Text
  | .leaf value => writeScalar repr style value
  | .list items => style.enclose level openBracket closeBracket (writeItems (level + 1) items)
  | .dict entries => style.enclose level openBrace closeBrace (writeEntries (level + 1) entries)

def writeItems (level : Nat) : List (JsonTree (Scalar φ)) → List Text
  | [] => []
  | item :: items => write level item :: writeItems level items

def writeEntries (level : Nat) : List (Text × JsonTree (Scalar φ)) → List Text
  | [] => []
  | (key, value) :: entries =>
      (writeString style.ascii key ++ colon :: (List.replicate style.keySpaces 32 ++
        write level value)) :: writeEntries level entries

end

/-- The token that a scalar is written as. -/
def Scalar.token : Scalar φ → Token
  | .null => .null
  | .bool value => .bool value
  | .int value => .int (intText value)
  | .float value => .float (repr value)
  | .str text => .str text

end

/-! ## What is written is read back -/

/-- A scalar that is read back from its text. -/
def Scalar.Writable {φ : Type} (repr : φ → Text) : Scalar φ → Prop
  | .float value => scanNumber (repr value) = some (.float (repr value), [])
  | .str text => Portable text
  | _ => True

abbrev Writable {φ : Type} (repr : φ → Text) : JsonTree (Scalar φ) → Prop :=
  JsonTree.All (Scalar.Writable repr) Portable

theorem skipBlank_blanks {blanks : Text} (blank : ∀ c ∈ blanks, isBlank c = true) (text : Text) :
    skipBlank (blanks ++ text) = skipBlank text := by
  rw [skipBlank, List.dropWhile_append_of_pos blank]
  rfl

theorem skipBlank_kept {c : Nat} (visible : isBlank c = false) (text : Text) :
    skipBlank (c :: text) = c :: text := List.dropWhile_cons_of_neg (by simp [visible])

theorem expect_blanks {blanks : Text} (blank : ∀ c ∈ blanks, isBlank c = true) {c : Nat}
    (visible : isBlank c = false) (d : Nat) (text : Text) :
    expect d (blanks ++ c :: text) = if c = d then some text else none := by
  rw [expect, skipBlank_blanks blank, skipBlank_kept visible]

theorem expect_here {c : Nat} (visible : isBlank c = false) (d : Nat) (text : Text) :
    expect d (c :: text) = if c = d then some text else none := by
  rw [expect, skipBlank_kept visible]

theorem blank_of_delimiter {c : Nat} (free : delimiter c = false) : isBlank c = false := by
  simp only [delimiter, Bool.or_eq_false_iff] at free
  exact free.1.1.1.1

theorem newline_blank (style : Style) (level : Nat) : ∀ c ∈ style.newline level, isBlank c = true := by
  rw [Style.newline]
  cases style.indent with
  | none => simp
  | some width =>
      intro c inside
      rcases List.mem_cons.mp inside with rfl | spaces
      · rfl
      · rw [List.eq_of_mem_replicate spaces]
        rfl

theorem spaces_blank (count : Nat) : ∀ c ∈ List.replicate count 32, isBlank c = true := by
  intro c inside
  rw [List.eq_of_mem_replicate inside]
  rfl

theorem ends_blanks {blanks : Text} (blank : ∀ c ∈ blanks, isBlank c = true) {rest : Text}
    (ends : Ends rest) : Ends (blanks ++ rest) := by
  cases blanks with
  | nil => exact ends
  | cons c blanks => exact .cons _ (.inr (blank c List.mem_cons_self))

theorem intercalate_cons (separator first second : Text) (parts : List Text) :
    List.intercalate separator (first :: second :: parts) =
      first ++ (separator ++ List.intercalate separator (second :: parts)) := by
  simp [List.intercalate]

theorem intercalate_single (separator part : Text) :
    List.intercalate separator [part] = part := by
  simp [List.intercalate]

section
variable {φ : Type} {repr : φ → Text} {style : Style}

theorem starts_scalar (ascii : style.ascii = true) {value : Scalar φ}
    (writable : value.Writable repr) {rest : Text} (ends : Ends rest) :
    Starts (writeScalar repr style value ++ rest) (.leaf (value.token repr)) rest := by
  have number {text : Text} {token : Token} (read : scanNumber text = some (token, [])) :
      Starts (text ++ rest) (.leaf token) rest := by
    have longer := scanNumber_append ends text
    rw [read] at longer
    cases text with
    | nil => cases read
    | cons c text =>
        have scanned : scanScalar (c :: text ++ rest) = some (token, rest) := by
          rw [scanScalar, longer]
          rfl
        refine Starts.scalar ?_ scanned
        obtain ⟨used, same, known⟩ := (scanNumber_takes read).1
        rw [List.append_nil] at same
        exact known c (same ▸ List.mem_cons_self)
  cases value with
  | null => exact ⟨1, rfl⟩
  | bool value => cases value <;> exact ⟨1, rfl⟩
  | int value => exact number (scanNumber_intText value)
  | float value => exact number writable
  | str text =>
      have read := scanString_writeString writable rest
      rw [writeScalar, writeString, ascii, List.cons_append, List.append_assoc]
      exact .string read

theorem separator_append (level : Nat) (rest : Text) : style.separator level ++ rest =
    comma :: ((List.replicate style.itemSpaces 32 ++ style.newline level) ++ rest) := rfl

theorem gap_blank (style : Style) (level : Nat) :
    ∀ c ∈ List.replicate style.itemSpaces 32 ++ style.newline level, isBlank c = true := by
  intro c inside
  rcases List.mem_append.mp inside with spaces | line
  · exact spaces_blank _ c spaces
  · exact newline_blank style level c line

theorem ends_close (level : Nat) {close : Nat} (known : close = closeBracket ∨ close = closeBrace)
    (rest : Text) : Ends (style.newline level ++ close :: rest) := by
  refine ends_blanks (newline_blank style level) (.cons _ (.inl ?_))
  rcases known with rfl | rfl <;> decide

theorem expect_close (level : Nat) {close : Nat} (known : close = closeBracket ∨ close = closeBrace)
    (rest : Text) : expect close (style.newline level ++ close :: rest) = some rest := by
  have visible : isBlank close = false := by rcases known with rfl | rfl <;> rfl
  rw [expect_blanks (newline_blank style level) visible, if_pos rfl]

theorem StartsItems.head {text rest : Text} {items : List (JsonTree Token)}
    (starts : StartsItems text items rest) : ∃ c after, text = c :: after ∧ delimiter c = false := by
  obtain ⟨fuel, read⟩ := starts
  cases fuel with
  | zero => cases read
  | succ fuel =>
      rw [scanItems] at read
      simp only [Option.bind_eq_bind, Option.bind_eq_some_iff] at read
      obtain ⟨⟨item, between⟩, here, -⟩ := read
      exact Starts.head ⟨fuel, here⟩

theorem StartsMembers.head {text rest : Text} {members : List (Text × JsonTree Token)}
    (starts : StartsMembers text members rest) :
    ∃ c after, text = c :: after ∧ delimiter c = false := by
  obtain ⟨fuel, read⟩ := starts
  cases fuel with
  | zero => cases read
  | succ fuel =>
      cases text with
      | nil => cases read
      | cons c after =>
          rw [scanMembers] at read
          rw [(Option.ite_none_right_eq_some.mp read).1]
          exact ⟨quote, after, rfl, rfl⟩

/-- Blanks before a visible character are skipped, and the rest is as it was. -/
theorem skipBlank_visible {blanks text : Text} (blank : ∀ c ∈ blanks, isBlank c = true)
    (visible : ∃ c after, text = c :: after ∧ delimiter c = false) :
    skipBlank (blanks ++ text) = text := by
  obtain ⟨c, after, rfl, free⟩ := visible
  rw [skipBlank_blanks blank, skipBlank_kept (blank_of_delimiter free)]

theorem expect_visible {blanks text : Text} (blank : ∀ c ∈ blanks, isBlank c = true)
    (visible : ∃ c after, text = c :: after ∧ delimiter c = false) {close : Nat}
    (closes : delimiter close = true) : expect close (blanks ++ text) = none := by
  obtain ⟨c, after, rfl, free⟩ := visible
  rw [expect_blanks blank (blank_of_delimiter free), if_neg]
  rintro rfl
  rw [free] at closes
  cases closes

theorem expect_comma (text : Text) : expect comma (comma :: text) = some text := by
  rw [expect_here (by decide), if_pos rfl]

theorem StartsItems.separated {text later rest : Text} {item : JsonTree Token}
    {items : List (JsonTree Token)} (level : Nat)
    (here : Starts text item (style.separator level ++ later))
    (more : StartsItems later items rest) : StartsItems text (item :: items) rest := by
  rw [separator_append] at here
  refine .cons here ?_ (expect_comma _) ?_
  · rw [expect_here (by decide), if_neg (by decide)]
  · rwa [skipBlank_visible (gap_blank style level) more.head]

/-- The items of a written array, up to its closing bracket. -/
theorem startsItems_written (level outer : Nat) (rest : Text) {items : List (JsonTree (Scalar φ))}
    (nonempty : items ≠ [])
    (each : ∀ item ∈ items, ∀ rest, Ends rest →
      Starts (write repr style level item ++ rest) (item.map (Scalar.token repr)) rest) :
    StartsItems (List.intercalate (style.separator level) (writeItems repr style level items) ++
      (style.newline outer ++ closeBracket :: rest)) (JsonTree.mapItems (Scalar.token repr) items)
      rest := by
  induction items with
  | nil => exact absurd rfl nonempty
  | cons item items ih =>
      rw [List.forall_mem_cons] at each
      cases items with
      | nil =>
          rw [writeItems, writeItems, intercalate_single]
          exact .last (each.1 _ (ends_close outer (.inl rfl) rest)) (expect_close outer (.inl rfl) rest)
      | cons second items =>
          have later := ih (by simp) each.2
          rw [writeItems] at later
          rw [writeItems, writeItems, intercalate_cons, List.append_assoc, List.append_assoc]
          exact .separated level (each.1 _ (.cons _ (.inl (by decide)))) later

/-- A key with its colon, before the text of its value. -/
def memberText (key valueText : Text) (spaces : Nat) : Text :=
  quote :: (key.flatMap (writePoint true) ++
    quote :: colon :: (List.replicate spaces 32 ++ valueText))

theorem expect_colon (spaces : Nat) (valueText : Text) :
    expect colon (colon :: (List.replicate spaces 32 ++ valueText)) =
      some (List.replicate spaces 32 ++ valueText) := by
  rw [expect_here (by decide), if_pos rfl]

theorem StartsMembers.single {key valueText between rest : Text} {value : JsonTree Token}
    (spaces : Nat) (portable : Portable key) (here : Starts valueText value between)
    (closed : expect closeBrace between = some rest) :
    StartsMembers (memberText key valueText spaces) [(key, value)] rest := by
  refine .last (scanString_writeString portable _) (expect_colon spaces valueText) ?_ closed
  rwa [skipBlank_visible (spaces_blank spaces) here.head]

theorem StartsMembers.separated {key valueText later rest : Text} {value : JsonTree Token}
    {members : List (Text × JsonTree Token)} (spaces level : Nat) (portable : Portable key)
    (here : Starts valueText value (style.separator level ++ later))
    (more : StartsMembers later members rest) :
    StartsMembers (memberText key valueText spaces) ((key, value) :: members) rest := by
  rw [separator_append] at here
  rw [← skipBlank_visible (spaces_blank spaces) here.head] at here
  refine .cons (scanString_writeString portable _) (expect_colon spaces valueText) here ?_
    (expect_comma _) ?_
  · rw [expect_here (by decide), if_neg (by decide)]
  · rwa [skipBlank_visible (gap_blank style level) more.head]

theorem writeEntries_cons (ascii : style.ascii = true) (level : Nat) (key : Text)
    (value : JsonTree (Scalar φ)) (entries : List (Text × JsonTree (Scalar φ))) :
    writeEntries repr style level ((key, value) :: entries) =
      memberText key (write repr style level value) style.keySpaces ::
        writeEntries repr style level entries := by
  simp [writeEntries, writeString, memberText, ascii]

theorem memberText_append (key valueText rest : Text) (spaces : Nat) :
    memberText key valueText spaces ++ rest = memberText key (valueText ++ rest) spaces := by
  simp [memberText]

/-- The members of a written object, up to its closing brace. -/
theorem startsMembers_written (ascii : style.ascii = true) (level outer : Nat) (rest : Text)
    {entries : List (Text × JsonTree (Scalar φ))} (nonempty : entries ≠ [])
    (each : ∀ entry ∈ entries, Portable entry.1 ∧ ∀ rest, Ends rest →
      Starts (write repr style level entry.2 ++ rest) (entry.2.map (Scalar.token repr)) rest) :
    StartsMembers (List.intercalate (style.separator level) (writeEntries repr style level entries) ++
      (style.newline outer ++ closeBrace :: rest))
      (JsonTree.mapEntries (Scalar.token repr) entries) rest := by
  induction entries with
  | nil => exact absurd rfl nonempty
  | cons entry entries ih =>
      obtain ⟨key, value⟩ := entry
      rw [List.forall_mem_cons] at each
      cases entries with
      | nil =>
          rw [writeEntries_cons ascii, writeEntries, intercalate_single, memberText_append]
          exact .single _ each.1.1 (each.1.2 _ (ends_close outer (.inr rfl) rest))
            (expect_close outer (.inr rfl) rest)
      | cons second entries =>
          have later := ih (by simp) each.2
          rw [writeEntries_cons ascii] at later
          rw [writeEntries_cons ascii, writeEntries_cons ascii, intercalate_cons, List.append_assoc,
            List.append_assoc, memberText_append]
          exact .separated _ level each.1.1 (each.1.2 _ (.cons _ (.inl (by decide)))) later

theorem enclose_cons (style : Style) (level open_ close : Nat) {parts : List Text}
    (nonempty : parts ≠ []) (rest : Text) : style.enclose level open_ close parts ++ rest =
      open_ :: (style.newline (level + 1) ++
        (List.intercalate (style.separator (level + 1)) parts ++
          (style.newline level ++ close :: rest))) := by
  simp [Style.enclose, nonempty]

/-- The scanner reads a written value back, whatever follows it. -/
theorem starts_write (ascii : style.ascii = true) {tree : JsonTree (Scalar φ)}
    (writable : Writable repr tree) (level : Nat) {rest : Text} (ends : Ends rest) :
    Starts (write repr style level tree ++ rest) (tree.map (Scalar.token repr)) rest := by
  induction tree using JsonTree.induct generalizing level rest with
  | leaf value => exact starts_scalar ascii writable ends
  | list items ih =>
      have known := JsonTree.allItems_iff.mp writable
      rw [write, JsonTree.map]
      by_cases none : items = []
      · subst none
        refine .emptyList ?_
        change expect closeBracket (closeBracket :: rest) = some rest
        rw [expect_here (by decide), if_pos rfl]
      · have inside := startsItems_written (level + 1) level rest none fun item listed rest ends =>
          ih item listed (known item listed) (level + 1) ends
        have parts : writeItems repr style (level + 1) items ≠ [] := by
          cases items with
          | nil => exact absurd rfl none
          | cons => simp [writeItems]
        rw [enclose_cons style level openBracket closeBracket parts]
        refine .list (expect_visible (newline_blank style _) inside.head (by decide)) ?_
        rwa [skipBlank_visible (newline_blank style _) inside.head]
  | dict entries ih =>
      have known := JsonTree.allEntries_iff.mp writable
      rw [write, JsonTree.map]
      by_cases none : entries = []
      · subst none
        refine .emptyDict ?_
        change expect closeBrace (closeBrace :: rest) = some rest
        rw [expect_here (by decide), if_pos rfl]
      · have inside := startsMembers_written ascii (level + 1) level rest none
          fun entry listed => ⟨(known entry listed).1, fun rest ends =>
            ih entry listed (known entry listed).2 (level + 1) ends⟩
        have parts : writeEntries repr style (level + 1) entries ≠ [] := by
          cases entries with
          | nil => exact absurd rfl none
          | cons => simp [writeEntries]
        rw [enclose_cons style level openBrace closeBrace parts]
        refine .dict (expect_visible (newline_blank style _) inside.head (by decide)) ?_
        rwa [skipBlank_visible (newline_blank style _) inside.head]

theorem document_write (ascii : style.ascii = true) {tree : JsonTree (Scalar φ)}
    (writable : Writable repr tree) (level : Nat) :
    document (write repr style level tree) = some (tree.map (Scalar.token repr)) := by
  have starts := starts_write ascii writable level Ends.nil
  rw [List.append_nil] at starts
  refine document_iff.mpr ⟨[], ?_, rfl⟩
  obtain ⟨c, after, shape, free⟩ := starts.head
  rw [shape] at starts ⊢
  rwa [skipBlank_kept (blank_of_delimiter free)]

end

end AgentLibOS.Library.Json
