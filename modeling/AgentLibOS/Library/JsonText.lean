import AgentLibOS.Library.JsonTree
import Mathlib.Data.List.TakeWhile

namespace AgentLibOS.Library.Json

/-! ## Characters -/

abbrev quote : Nat := 34
abbrev backslash : Nat := 92
abbrev openBracket : Nat := 91
abbrev closeBracket : Nat := 93
abbrev openBrace : Nat := 123
abbrev closeBrace : Nat := 125
abbrev comma : Nat := 44
abbrev colon : Nat := 58
abbrev minus : Nat := 45
abbrev point : Nat := 46
abbrev zero : Nat := 48

def isBlank (c : Nat) : Bool := c = 32 || c = 9 || c = 10 || c = 13

def isDigit (c : Nat) : Bool := 48 ≤ c && c ≤ 57

def skipBlank (text : Text) : Text := text.dropWhile isBlank

def hexValue (c : Nat) : Option Nat :=
  if 48 ≤ c ∧ c ≤ 57 then some (c - 48)
  else if 97 ≤ c ∧ c ≤ 102 then some (c - 87)
  else if 65 ≤ c ∧ c ≤ 70 then some (c - 55)
  else none

/-! ## Strings -/

/-- What a backslash and one character stand for, `\u` apart. -/
def escapeValue (c : Nat) : Option Nat :=
  if c = quote then some quote
  else if c = backslash then some backslash
  else if c = 47 then some 47
  else if c = 98 then some 8
  else if c = 102 then some 12
  else if c = 110 then some 10
  else if c = 114 then some 13
  else if c = 116 then some 9
  else none

def isHigh (c : Nat) : Bool := 0xD800 ≤ c && c ≤ 0xDBFF

def isLow (c : Nat) : Bool := 0xDC00 ≤ c && c ≤ 0xDFFF

def joinSurrogates (high low : Nat) : Nat := 0x10000 + (high - 0xD800) * 0x400 + (low - 0xDC00)

/-- A code point of a string literal, and whether it is written as `\u`. -/
structure CodeUnit where
  value : Nat
  escaped : Bool

/-- The units of a string literal after its opening quote, and the text after its closing one. -/
def scanUnits : Text → Option (List CodeUnit × Text)
  | [] => none
  | c :: rest =>
      if c = quote then some ([], rest)
      else if c = backslash then
        match rest with
        | 117 :: h₁ :: h₂ :: h₃ :: h₄ :: rest => do
            let d₁ ← hexValue h₁
            let d₂ ← hexValue h₂
            let d₃ ← hexValue h₃
            let d₄ ← hexValue h₄
            let (units, after) ← scanUnits rest
            some (⟨((d₁ * 16 + d₂) * 16 + d₃) * 16 + d₄, true⟩ :: units, after)
        | e :: rest => do
            let value ← escapeValue e
            let (units, after) ← scanUnits rest
            some (⟨value, false⟩ :: units, after)
        | [] => none
      else if c < 32 then none
      else do
        let (units, after) ← scanUnits rest
        some (⟨c, false⟩ :: units, after)

/-- A high and a low surrogate that are both written as `\u` are one code point. -/
def joinPairs : List CodeUnit → Text
  | ⟨high, true⟩ :: ⟨low, true⟩ :: rest =>
      if isHigh high && isLow low then joinSurrogates high low :: joinPairs rest
      else high :: joinPairs (⟨low, true⟩ :: rest)
  | unit :: rest => unit.value :: joinPairs rest
  | [] => []

def scanString (text : Text) : Option (Text × Text) :=
  (scanUnits text).map fun done => (joinPairs done.1, done.2)

/-! ## Numbers and names -/

inductive Token
  | null
  | bool (value : Bool)
  | int (digits : Text)
  | float (digits : Text)
  | constant (name : Text)
  | str (text : Text)

/-- A run of at least one digit, or nothing. -/
def scanDigits (text : Text) : Text × Text := (text.takeWhile isDigit, text.dropWhile isDigit)

def scanSign (signs : List Nat) : Text → Text × Text
  | [] => ([], [])
  | c :: rest => if signs.contains c then ([c], rest) else ([], c :: rest)

def scanWhole : Text → Option (Text × Text)
  | [] => none
  | c :: rest =>
      if c = zero then some ([c], rest)
      else if isDigit c then some (scanDigits (c :: rest))
      else none

def scanFraction : Text → Text × Text
  | [] => ([], [])
  | c :: rest =>
      if c = point ∧ (scanDigits rest).1 ≠ [] then (c :: (scanDigits rest).1, (scanDigits rest).2)
      else ([], c :: rest)

def scanExponent : Text → Text × Text
  | [] => ([], [])
  | c :: rest =>
      let sign := scanSign [43, 45] rest
      if (c = 101 ∨ c = 69) ∧ (scanDigits sign.2).1 ≠ [] then
        (c :: sign.1 ++ (scanDigits sign.2).1, (scanDigits sign.2).2)
      else ([], c :: rest)

def scanNumber (text : Text) : Option (Token × Text) :=
  let sign := scanSign [minus] text
  (scanWhole sign.2).map fun whole =>
    let fraction := scanFraction whole.2
    let exponent := scanExponent fraction.2
    if fraction.1 = [] ∧ exponent.1 = [] then (.int (sign.1 ++ whole.1), exponent.2)
    else (.float (sign.1 ++ whole.1 ++ fraction.1 ++ exponent.1), exponent.2)

def names : List (Text × Token) :=
  [(codes "null", .null), (codes "true", .bool true), (codes "false", .bool false),
    (codes "NaN", .constant (codes "NaN")), (codes "Infinity", .constant (codes "Infinity")),
    (codes "-Infinity", .constant (codes "-Infinity"))]

def scanName (text : Text) : Option (Token × Text) :=
  names.findSome? fun name =>
    if name.1.isPrefixOf text then some (name.2, text.drop name.1.length) else none

def scanScalar (text : Text) : Option (Token × Text) :=
  (scanNumber text).or (scanName text)

/-! ## Documents -/

def expect (c : Nat) (text : Text) : Option Text :=
  match skipBlank text with
  | [] => none
  | d :: rest => if d = c then some rest else none

mutual

/-- The value that a text starts with. The number bounds the recursion. -/
def scanOnce : Nat → Text → Option (JsonTree Token × Text)
  | 0, _ => none
  | _ + 1, [] => none
  | fuel + 1, c :: rest =>
      if c = quote then (scanString rest).map fun done => (.leaf (.str done.1), done.2)
      else if c = openBrace then
        match expect closeBrace rest with
        | some after => some (.dict [], after)
        | none => (scanMembers fuel (skipBlank rest)).map fun done => (.dict done.1, done.2)
      else if c = openBracket then
        match expect closeBracket rest with
        | some after => some (.list [], after)
        | none => (scanItems fuel (skipBlank rest)).map fun done => (.list done.1, done.2)
      else (scanScalar (c :: rest)).map fun done => (.leaf done.1, done.2)

/-- The items of an array and its closing bracket. -/
def scanItems : Nat → Text → Option (List (JsonTree Token) × Text)
  | 0, _ => none
  | fuel + 1, text => do
      let (item, rest) ← scanOnce fuel text
      match expect closeBracket rest with
      | some after => some ([item], after)
      | none =>
          let rest ← expect comma rest
          let (items, after) ← scanItems fuel (skipBlank rest)
          some (item :: items, after)

/-- The members of an object and its closing brace. -/
def scanMembers : Nat → Text → Option (List (Text × JsonTree Token) × Text)
  | 0, _ => none
  | _ + 1, [] => none
  | fuel + 1, c :: rest =>
      if c = quote then do
        let (key, rest) ← scanString rest
        let rest ← expect colon rest
        let (value, rest) ← scanOnce fuel (skipBlank rest)
        match expect closeBrace rest with
        | some after => some ([(key, value)], after)
        | none =>
            let rest ← expect comma rest
            let (members, after) ← scanMembers fuel (skipBlank rest)
            some ((key, value) :: members, after)
      else none

end

/-- `json.loads` up to its hooks: the syntax tree of a whole text. -/
def document (text : Text) : Option (JsonTree Token) :=
  match scanOnce (2 * text.length) (skipBlank text) with
  | some (tree, rest) => if skipBlank rest = [] then some tree else none
  | none => none

/-! ## What a scan consumes -/

/-- The text before the rest has only characters of one kind. -/
def Takes (kind : Nat → Bool) (text rest : Text) : Prop :=
  ∃ used, text = used ++ rest ∧ ∀ c ∈ used, kind c = true

namespace Takes
variable {kind : Nat → Bool} {text middle rest : Text}

theorem nothing (text : Text) : Takes kind text text := ⟨[], rfl, by simp⟩

theorem one {c : Nat} (known : kind c = true) : Takes kind (c :: rest) rest :=
  ⟨[c], rfl, by simpa using known⟩

theorem while_ (kind : Nat → Bool) (text : Text) : Takes kind text (text.dropWhile kind) :=
  ⟨text.takeWhile kind, List.takeWhile_append_dropWhile.symm, fun _ => List.mem_takeWhile_imp⟩

theorem trans (first : Takes kind text middle) (second : Takes kind middle rest) :
    Takes kind text rest := by
  obtain ⟨used, rfl, known⟩ := first
  obtain ⟨used', rfl, known'⟩ := second
  refine ⟨used ++ used', (List.append_assoc ..).symm, fun c inside => ?_⟩
  rcases List.mem_append.mp inside with inside | inside
  · exact known c inside
  · exact known' c inside

theorem weaken {kind' : Nat → Bool} (wider : ∀ c, kind c = true → kind' c = true)
    (takes : Takes kind text rest) : Takes kind' text rest := by
  obtain ⟨used, rfl, known⟩ := takes
  exact ⟨used, rfl, fun c inside => wider c (known c inside)⟩

theorem length_le (takes : Takes kind text rest) : rest.length ≤ text.length := by
  obtain ⟨used, rfl, -⟩ := takes
  simp

end Takes

/-- No quote, bracket or brace. -/
def plain (c : Nat) : Bool :=
  c != quote && c != openBracket && c != closeBracket && c != openBrace && c != closeBrace

theorem plain_of_blank {c : Nat} (blank : isBlank c = true) : plain c = true := by
  simp only [isBlank, Bool.or_eq_true, decide_eq_true_iff] at blank
  rcases blank with ((rfl | rfl) | rfl) | rfl <;> rfl

theorem plain_of_digit {c : Nat} (digit : isDigit c = true) : plain c = true := by
  simp only [isDigit, Bool.and_eq_true, decide_eq_true_iff] at digit
  simp only [plain, bne_iff_ne, Bool.and_eq_true, ne_eq, quote, openBracket, closeBracket,
    openBrace, closeBrace]
  omega

theorem skipBlank_takes (text : Text) : Takes plain text (skipBlank text) :=
  (Takes.while_ isBlank text).weaken fun _ => plain_of_blank

theorem expect_eq {c : Nat} {text rest : Text} (found : expect c text = some rest) :
    skipBlank text = c :: rest := by
  rw [expect] at found
  cases shape : skipBlank text with
  | nil => simp [shape] at found
  | cons d after =>
      rw [shape] at found
      simp only [Option.ite_none_right_eq_some, Option.some.injEq] at found
      rw [found.1, found.2]

theorem scanDigits_takes (text : Text) : Takes plain text (scanDigits text).2 :=
  (Takes.while_ isDigit text).weaken fun _ => plain_of_digit

theorem scanSign_takes {signs : List Nat} (known : ∀ c ∈ signs, plain c = true) (text : Text) :
    Takes plain text (scanSign signs text).2 := by
  cases text with
  | nil => exact .nothing []
  | cons c rest =>
      rw [scanSign]
      split_ifs with sign
      · exact .one (known c (List.contains_iff_mem.mp sign))
      · exact .nothing _

theorem scanFraction_takes (text : Text) : Takes plain text (scanFraction text).2 := by
  cases text with
  | nil => exact .nothing []
  | cons c rest =>
      rw [scanFraction]
      split_ifs with found
      · obtain ⟨rfl, -⟩ := found
        exact (Takes.one rfl).trans (scanDigits_takes rest)
      · exact .nothing _

theorem scanExponent_takes (text : Text) : Takes plain text (scanExponent text).2 := by
  cases text with
  | nil => exact .nothing []
  | cons c rest =>
      rw [scanExponent]
      split_ifs with found
      · have letter : plain c = true := by
          rcases found.1 with rfl | rfl <;> rfl
        have signs : ∀ c ∈ [43, 45], plain c = true := by decide
        exact ((Takes.one letter).trans (scanSign_takes signs rest)).trans (scanDigits_takes _)
      · exact .nothing _

/-- A number has at least one character. -/
theorem scanWhole_takes {text : Text} {whole : Text × Text} (found : scanWhole text = some whole) :
    Takes plain text whole.2 ∧ whole.2.length < text.length := by
  cases text with
  | nil => cases found
  | cons c rest =>
      rw [scanWhole] at found
      split_ifs at found with first digit
      · cases found
        rw [first]
        exact ⟨.one rfl, Nat.lt_succ_self _⟩
      · cases found
        refine ⟨scanDigits_takes _, ?_⟩
        rw [scanDigits, List.dropWhile_cons_of_pos digit]
        exact Nat.lt_succ_of_le (List.dropWhile_sublist _).length_le

theorem scanNumber_takes {text rest : Text} {token : Token}
    (found : scanNumber text = some (token, rest)) :
    Takes plain text rest ∧ rest.length < text.length := by
  rw [scanNumber] at found
  obtain ⟨whole, here, done⟩ := Option.map_eq_some_iff.mp found
  have last : (scanExponent (scanFraction whole.2).2).2 = rest := by
    dsimp only at done
    split_ifs at done <;> exact congrArg Prod.snd done
  have signs : ∀ c ∈ [minus], plain c = true := by decide
  have sign := scanSign_takes signs text
  obtain ⟨takes, shorter⟩ := scanWhole_takes here
  have later := (scanFraction_takes whole.2).trans (scanExponent_takes _)
  rw [last] at later
  exact ⟨(sign.trans takes).trans later,
    Nat.lt_of_lt_of_le (Nat.lt_of_le_of_lt later.length_le shorter) sign.length_le⟩

theorem names_plain : ∀ name ∈ names, name.1 ≠ [] ∧ ∀ c ∈ name.1, plain c = true := by
  decide

theorem scanName_takes {text rest : Text} {token : Token}
    (found : scanName text = some (token, rest)) :
    Takes plain text rest ∧ rest.length < text.length := by
  rw [scanName] at found
  obtain ⟨name, known, here⟩ := List.exists_of_findSome?_eq_some found
  simp only [Option.ite_none_right_eq_some, Option.some.injEq, Prod.mk.injEq,
    List.isPrefixOf_iff_prefix] at here
  obtain ⟨⟨after, rfl⟩, -, rfl⟩ := here
  rw [List.drop_left]
  obtain ⟨nonempty, characters⟩ := names_plain name known
  have positive : 0 < name.1.length := List.length_pos_iff.mpr nonempty
  refine ⟨⟨name.1, rfl, characters⟩, ?_⟩
  rw [List.length_append]
  omega

theorem scanScalar_takes {text rest : Text} {token : Token}
    (found : scanScalar text = some (token, rest)) :
    Takes plain text rest ∧ rest.length < text.length := by
  rw [scanScalar, Option.or_eq_some_iff] at found
  rcases found with found | ⟨-, found⟩
  · exact scanNumber_takes found
  · exact scanName_takes found

/-! ## The bound of the recursion is no limit -/

theorem expect_shorter {c : Nat} {text rest : Text} (found : expect c text = some rest) :
    rest.length < text.length := by
  have takes := (skipBlank_takes text).length_le
  rw [expect_eq found] at takes
  exact takes

theorem scanUnits_shorter {text rest : Text} {units : List CodeUnit}
    (read : scanUnits text = some (units, rest)) : rest.length < text.length := by
  fun_induction scanUnits text generalizing units with
  | case1 => cases read
  | case2 =>
      cases read
      exact Nat.lt_succ_self _
  | case3 h₁ h₂ h₃ h₄ after _ ih =>
      simp only [Option.bind_eq_bind, Option.bind_eq_some_iff] at read
      obtain ⟨_, _, _, _, _, _, _, _, ⟨units', rest'⟩, later, done⟩ := read
      cases done
      have shorter : rest'.length < after.length := ih later
      simp only [List.length_cons]
      omega
  | case4 e after _ _ ih =>
      simp only [Option.bind_eq_bind, Option.bind_eq_some_iff] at read
      obtain ⟨_, _, ⟨units', rest'⟩, later, done⟩ := read
      cases done
      have shorter : rest'.length < after.length := ih later
      simp only [List.length_cons]
      omega
  | case5 => cases read
  | case6 => cases read
  | case7 c after _ _ _ ih =>
      simp only [Option.bind_eq_bind, Option.bind_eq_some_iff] at read
      obtain ⟨⟨units', rest'⟩, later, done⟩ := read
      cases done
      exact Nat.lt_succ_of_lt (ih later)

theorem scanString_shorter {text value rest : Text} (read : scanString text = some (value, rest)) :
    rest.length < text.length := by
  obtain ⟨⟨units, after⟩, scanned, done⟩ := Option.map_eq_some_iff.mp read
  cases done
  exact scanUnits_shorter scanned

/-- A scan leaves a shorter text, and with any bound from `room` on it gives the same. -/
def Settled {β : Type} (scan : Nat → Text → Option (β × Text)) (room : Nat) (text : Text)
    (result : β × Text) : Prop :=
  result.2.length < text.length ∧ ∀ more, 2 * text.length + room ≤ more → scan more text = some result

section
variable {fuel : Nat}
  (value : ∀ {text result}, scanOnce fuel text = some result → Settled scanOnce 0 text result)
include value

theorem scanItems_settled
    (items : ∀ {text result}, scanItems fuel text = some result → Settled scanItems 1 text result)
    {text : Text} {result : List (JsonTree Token) × Text}
    (read : scanItems (fuel + 1) text = some result) : Settled scanItems 1 text result := by
  rw [scanItems] at read
  simp only [Option.bind_eq_bind, Option.bind_eq_some_iff] at read
  obtain ⟨⟨item, between⟩, here, later⟩ := read
  obtain ⟨shorter, again⟩ := value here
  have first (more : Nat) (room : 2 * text.length + 1 ≤ more + 1) :
      scanOnce more text = some (item, between) := again more (by omega)
  cases closed : expect closeBracket between with
  | some after =>
      rw [closed] at later
      cases later
      refine ⟨Nat.lt_trans (expect_shorter closed) shorter, fun more room => ?_⟩
      obtain ⟨more, rfl⟩ : ∃ n, more = n + 1 := ⟨more - 1, by omega⟩
      simp [scanItems, first more room, closed]
  | none =>
      rw [closed] at later
      simp only [Option.bind_eq_some_iff] at later
      obtain ⟨beyond, separated, ⟨others, after⟩, rest, done⟩ := later
      cases done
      obtain ⟨shorter', again'⟩ := items rest
      have blank := (skipBlank_takes beyond).length_le
      have gap := expect_shorter separated
      dsimp only at shorter shorter'
      refine ⟨by dsimp only; omega, fun more room => ?_⟩
      obtain ⟨more, rfl⟩ : ∃ n, more = n + 1 := ⟨more - 1, by omega⟩
      simp [scanItems, first more room, closed, separated, again' more (by omega)]

theorem scanMembers_settled
    (members : ∀ {text result}, scanMembers fuel text = some result →
      Settled scanMembers 0 text result)
    {text : Text} {result : List (Text × JsonTree Token) × Text}
    (read : scanMembers (fuel + 1) text = some result) : Settled scanMembers 0 text result := by
  cases text with
  | nil => cases read
  | cons c start =>
      rw [scanMembers] at read
      simp only [Option.bind_eq_bind, Option.ite_none_right_eq_some, Option.bind_eq_some_iff]
        at read
      obtain ⟨rfl, ⟨key, afterKey⟩, keyRead, beforeValue, colonRead, ⟨tree, between⟩, here, later⟩ :=
        read
      dsimp only at colonRead
      obtain ⟨shorter, again⟩ := value here
      have blankValue := (skipBlank_takes beforeValue).length_le
      have gapKey := scanString_shorter keyRead
      have gapColon := expect_shorter colonRead
      dsimp only at shorter
      have first (more : Nat) (room : 2 * (start.length + 1) ≤ more + 1) :
          scanOnce more (skipBlank beforeValue) = some (tree, between) := again more (by omega)
      cases closed : expect closeBrace between with
      | some after =>
          rw [closed] at later
          cases later
          have gap := expect_shorter closed
          refine ⟨by simp only [List.length_cons]; omega, fun more room => ?_⟩
          rw [List.length_cons] at room
          obtain ⟨more, rfl⟩ : ∃ n, more = n + 1 := ⟨more - 1, by omega⟩
          simp [scanMembers, keyRead, colonRead, first more room, closed]
      | none =>
          rw [closed] at later
          simp only [Option.bind_eq_some_iff] at later
          obtain ⟨beyond, separated, ⟨others, after⟩, rest, done⟩ := later
          cases done
          obtain ⟨shorter', again'⟩ := members rest
          have blank := (skipBlank_takes beyond).length_le
          have gap := expect_shorter separated
          dsimp only at shorter'
          refine ⟨by simp only [List.length_cons]; omega, fun more room => ?_⟩
          rw [List.length_cons] at room
          obtain ⟨more, rfl⟩ : ∃ n, more = n + 1 := ⟨more - 1, by omega⟩
          simp [scanMembers, keyRead, colonRead, first more room, closed, separated,
            again' more (by omega)]

end

theorem scan_settled (fuel : Nat) :
    (∀ {text result}, scanOnce fuel text = some result → Settled scanOnce 0 text result) ∧
    (∀ {text result}, scanItems fuel text = some result → Settled scanItems 1 text result) ∧
    (∀ {text result}, scanMembers fuel text = some result →
      Settled scanMembers 0 text result) := by
  induction fuel with
  | zero =>
      refine ⟨?_, ?_, ?_⟩
      all_goals
        intro _ _ read
        cases read
  | succ fuel ih =>
      obtain ⟨value, items, members⟩ := ih
      refine ⟨?_, scanItems_settled value items, scanMembers_settled value members⟩
      intro text result read
      cases text with
      | nil => cases read
      | cons c start =>
          rw [scanOnce] at read
          split_ifs at read with string object array
          · obtain ⟨⟨text, after⟩, quoted, done⟩ := Option.map_eq_some_iff.mp read
            cases done
            refine ⟨Nat.lt_succ_of_lt (scanString_shorter quoted), fun more room => ?_⟩
            obtain ⟨more, rfl⟩ : ∃ n, more = n + 1 :=
              ⟨more - 1, by rw [List.length_cons] at room; omega⟩
            simp [scanOnce, string, quoted]
          · subst object
            cases closed : expect closeBrace start with
            | some after =>
                rw [closed] at read
                cases read
                refine ⟨Nat.lt_succ_of_lt (expect_shorter closed), fun more room => ?_⟩
                obtain ⟨more, rfl⟩ : ∃ n, more = n + 1 :=
                  ⟨more - 1, by rw [List.length_cons] at room; omega⟩
                simp [scanOnce, string, closed]
            | none =>
                rw [closed] at read
                obtain ⟨⟨entries, after⟩, inside, done⟩ := Option.map_eq_some_iff.mp read
                cases done
                obtain ⟨shorter, again⟩ := members inside
                have blank := (skipBlank_takes start).length_le
                dsimp only at shorter
                refine ⟨by simp only [List.length_cons]; omega, fun more room => ?_⟩
                rw [List.length_cons] at room
                obtain ⟨more, rfl⟩ : ∃ n, more = n + 1 := ⟨more - 1, by omega⟩
                simp [scanOnce, string, closed, again more (by omega)]
          · subst array
            cases closed : expect closeBracket start with
            | some after =>
                rw [closed] at read
                cases read
                refine ⟨Nat.lt_succ_of_lt (expect_shorter closed), fun more room => ?_⟩
                obtain ⟨more, rfl⟩ : ∃ n, more = n + 1 :=
                  ⟨more - 1, by rw [List.length_cons] at room; omega⟩
                simp [scanOnce, string, object, closed]
            | none =>
                rw [closed] at read
                obtain ⟨⟨trees, after⟩, inside, done⟩ := Option.map_eq_some_iff.mp read
                cases done
                obtain ⟨shorter, again⟩ := items inside
                have blank := (skipBlank_takes start).length_le
                dsimp only at shorter
                refine ⟨by simp only [List.length_cons]; omega, fun more room => ?_⟩
                rw [List.length_cons] at room
                obtain ⟨more, rfl⟩ : ∃ n, more = n + 1 := ⟨more - 1, by omega⟩
                simp [scanOnce, string, object, closed, again more (by omega)]
          · obtain ⟨⟨token, after⟩, scalar, done⟩ := Option.map_eq_some_iff.mp read
            cases done
            refine ⟨(scanScalar_takes scalar).2, fun more room => ?_⟩
            obtain ⟨more, rfl⟩ : ∃ n, more = n + 1 :=
              ⟨more - 1, by rw [List.length_cons] at room; omega⟩
            simp [scanOnce, string, object, array, scalar]

/-- A text starts with the value. -/
def Starts (text : Text) (tree : JsonTree Token) (rest : Text) : Prop :=
  ∃ fuel, scanOnce fuel text = some (tree, rest)

def StartsItems (text : Text) (items : List (JsonTree Token)) (rest : Text) : Prop :=
  ∃ fuel, scanItems fuel text = some (items, rest)

def StartsMembers (text : Text) (members : List (Text × JsonTree Token)) (rest : Text) : Prop :=
  ∃ fuel, scanMembers fuel text = some (members, rest)

namespace Starts
variable {text rest between after : Text}

/-- Any large bound will do. -/
theorem enough {tree : JsonTree Token} (starts : Starts text tree rest) {fuel : Nat}
    (room : 2 * text.length ≤ fuel) : scanOnce fuel text = some (tree, rest) := by
  obtain ⟨fuel', read⟩ := starts
  exact ((scan_settled fuel').1 read).2 fuel room

theorem string {value : Text} (read : scanString text = some (value, rest)) :
    Starts (quote :: text) (.leaf (.str value)) rest := ⟨1, by simp [scanOnce, read]⟩

theorem emptyDict (closed : expect closeBrace text = some rest) :
    Starts (openBrace :: text) (.dict []) rest :=
  ⟨1, by simp [scanOnce, closed, show openBrace ≠ quote by decide]⟩

theorem dict {members : List (Text × JsonTree Token)} (more : expect closeBrace text = none)
    (inside : StartsMembers (skipBlank text) members rest) :
    Starts (openBrace :: text) (.dict members) rest := by
  obtain ⟨fuel, read⟩ := inside
  exact ⟨fuel + 1, by simp [scanOnce, more, read, show openBrace ≠ quote by decide]⟩

theorem emptyList (closed : expect closeBracket text = some rest) :
    Starts (openBracket :: text) (.list []) rest :=
  ⟨1, by simp [scanOnce, closed, show openBracket ≠ quote by decide,
    show openBracket ≠ openBrace by decide]⟩

theorem list {items : List (JsonTree Token)} (more : expect closeBracket text = none)
    (inside : StartsItems (skipBlank text) items rest) :
    Starts (openBracket :: text) (.list items) rest := by
  obtain ⟨fuel, read⟩ := inside
  exact ⟨fuel + 1, by simp [scanOnce, more, read, show openBracket ≠ quote by decide,
    show openBracket ≠ openBrace by decide]⟩

theorem scalar {c : Nat} {token : Token} (plainly : plain c = true)
    (read : scanScalar (c :: text) = some (token, rest)) :
    Starts (c :: text) (.leaf token) rest := by
  simp only [plain, bne_iff_ne, Bool.and_eq_true, ne_eq] at plainly
  exact ⟨1, by simp [scanOnce, plainly, read]⟩

end Starts

theorem StartsItems.last {text between after : Text} {item : JsonTree Token}
    (here : Starts text item between) (closed : expect closeBracket between = some after) :
    StartsItems text [item] after :=
  ⟨2 * text.length + 1, by simp [scanItems, here.enough le_rfl, closed]⟩

theorem StartsItems.cons {text between beyond after : Text} {item : JsonTree Token}
    {items : List (JsonTree Token)} (here : Starts text item between)
    (more : expect closeBracket between = none) (separated : expect comma between = some beyond)
    (later : StartsItems (skipBlank beyond) items after) :
    StartsItems text (item :: items) after := by
  obtain ⟨fuel, read⟩ := later
  obtain ⟨bound, first, second⟩ : ∃ bound, 2 * text.length ≤ bound ∧
      2 * (skipBlank beyond).length + 1 ≤ bound := ⟨_, le_max_left _ _, le_max_right _ _⟩
  have again := ((scan_settled fuel).2.1 read).2 bound second
  exact ⟨bound + 1, by simp [scanItems, here.enough first, more, separated, again]⟩

theorem StartsMembers.last {text afterKey beforeValue between after key : Text}
    {value : JsonTree Token} (name : scanString text = some (key, afterKey))
    (colonRead : expect colon afterKey = some beforeValue)
    (here : Starts (skipBlank beforeValue) value between)
    (closed : expect closeBrace between = some after) :
    StartsMembers (quote :: text) [(key, value)] after :=
  ⟨2 * (skipBlank beforeValue).length + 1,
    by simp [scanMembers, name, colonRead, here.enough le_rfl, closed]⟩

theorem StartsMembers.cons {text afterKey beforeValue between beyond after key : Text}
    {value : JsonTree Token} {members : List (Text × JsonTree Token)}
    (name : scanString text = some (key, afterKey))
    (colonRead : expect colon afterKey = some beforeValue)
    (here : Starts (skipBlank beforeValue) value between)
    (more : expect closeBrace between = none) (separated : expect comma between = some beyond)
    (later : StartsMembers (skipBlank beyond) members after) :
    StartsMembers (quote :: text) ((key, value) :: members) after := by
  obtain ⟨fuel, read⟩ := later
  obtain ⟨bound, first, second⟩ : ∃ bound, 2 * (skipBlank beforeValue).length ≤ bound ∧
      2 * (skipBlank beyond).length + 0 ≤ bound := ⟨_, le_max_left _ _, le_max_right _ _⟩
  have again := ((scan_settled fuel).2.2 read).2 bound second
  exact ⟨bound + 1, by
    simp [scanMembers, name, colonRead, here.enough first, more, separated, again]⟩

/-! ### The first character of a value -/

/-- No value starts so. -/
def delimiter (c : Nat) : Bool :=
  isBlank c || c == comma || c == colon || c == closeBracket || c == closeBrace

theorem delimiter_of_digit {c : Nat} (digit : isDigit c = true) : delimiter c = false := by
  simp only [isDigit, Bool.and_eq_true, decide_eq_true_iff] at digit
  simp [delimiter, isBlank, comma, colon, closeBracket, closeBrace]
  omega

theorem scanNumber_head {c : Nat} {text : Text} {found : Token × Text}
    (read : scanNumber (c :: text) = some found) : delimiter c = false := by
  rw [scanNumber] at read
  obtain ⟨whole, here, -⟩ := Option.map_eq_some_iff.mp read
  rw [scanSign] at here
  split_ifs at here with sign
  · rw [List.mem_singleton.mp (List.contains_iff_mem.mp sign)]
    rfl
  · rw [scanWhole] at here
    split_ifs at here with none digit
    · rw [none]
      rfl
    · exact delimiter_of_digit digit

theorem scanName_head {c : Nat} {text : Text} {found : Token × Text}
    (read : scanName (c :: text) = some found) : delimiter c = false := by
  rw [scanName] at read
  obtain ⟨name, known, here⟩ := List.exists_of_findSome?_eq_some read
  simp only [Option.ite_none_right_eq_some, List.isPrefixOf_iff_prefix] at here
  have all : ∀ name ∈ names, ∃ c ∈ name.1.head?, delimiter c = false := by decide
  obtain ⟨d, first, free⟩ := all name known
  obtain ⟨rest, shape⟩ := here.1
  cases letters : name.1 with
  | nil => simp [letters] at first
  | cons e letters' =>
      rw [letters] at first shape
      cases first
      cases shape
      exact free

theorem Starts.head {text rest : Text} {tree : JsonTree Token} (starts : Starts text tree rest) :
    ∃ c after, text = c :: after ∧ delimiter c = false := by
  obtain ⟨fuel, read⟩ := starts
  cases fuel with
  | zero => cases read
  | succ fuel =>
      cases text with
      | nil => cases read
      | cons c after =>
          refine ⟨c, after, rfl, ?_⟩
          rw [scanOnce] at read
          split_ifs at read with string object array
          · rw [string]
            rfl
          · rw [object]
            rfl
          · rw [array]
            rfl
          · obtain ⟨found, scalar, -⟩ := Option.map_eq_some_iff.mp read
            rw [scanScalar, Option.or_eq_some_iff] at scalar
            rcases scalar with scalar | ⟨-, scalar⟩
            · exact scanNumber_head scalar
            · exact scanName_head scalar

theorem document_iff {text : Text} {tree : JsonTree Token} :
    document text = some tree ↔ ∃ rest, Starts (skipBlank text) tree rest ∧ skipBlank rest = [] := by
  constructor
  · intro read
    rw [document] at read
    cases scanned : scanOnce (2 * text.length) (skipBlank text) with
    | none => simp [scanned] at read
    | some found =>
        obtain ⟨tree', rest⟩ := found
        simp only [scanned, Option.ite_none_right_eq_some, Option.some.injEq] at read
        obtain ⟨finished, rfl⟩ := read
        exact ⟨rest, ⟨_, scanned⟩, finished⟩
  · rintro ⟨rest, ⟨fuel, scanned⟩, finished⟩
    have again := ((scan_settled fuel).1 scanned).2 (2 * text.length) (by
      have blank := (skipBlank_takes text).length_le
      omega)
    simp [document, again, finished]

end AgentLibOS.Library.Json
