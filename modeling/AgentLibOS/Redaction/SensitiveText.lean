import AgentLibOS.Library.Matching
import AgentLibOS.Library.Text
import Mathlib.Data.List.Dedup
import Mathlib.Data.List.Sort

namespace AgentLibOS.Redaction
open Library.Masking Library.Matching Library.Text

/-! ## Patterns -/

/-- A character under `IGNORECASE`, as far as ASCII letters go: four other letters match one. -/
def ignoreCase (c : Char) : Char :=
  if c = '\u017f' then 's'
  else if c = '\u212a' then 'k'
  else if c = '\u0130' ∨ c = '\u0131' then 'i'
  else c.toLower

def literal (text : String) : Regex Char := .all (text.toList.map fun letter => .one (· == letter))

def caseless (text : String) : Regex Char :=
  .all (text.toList.map fun letter => .one (ignoreCase · == letter))

/-- An ASCII letter or digit, or one of some others. -/
def alphanumeric (others : String) : Regex Char :=
  .one fun c => c.isAlphanum || others.toList.contains c

def caselessAlphanumeric (others : String) : Regex Char :=
  .one fun c => (ignoreCase c).isAlphanum || others.toList.contains c

def oneOf (letters : String) : Regex Char := .one letters.toList.contains

def noneOf (letters : String) : Regex Char := .one fun c => !letters.toList.contains c

def space : Regex Char := .one isSpace

def redactedMask : List Char := "[redacted]".toList

def scalarSecret (part : Regex Char) : Rule Char := ⟨.empty, part, .empty, redactedMask⟩

def bearerPattern : Rule Char := scalarSecret <| .all
  [.boundary, caseless "bearer", .plus space, .plus (caselessAlphanumeric "._~+/=-")]

def assignmentPattern : Rule Char := scalarSecret <| .all
  [.optional (oneOf "'\""), .boundary,
    .any [.all [caseless "api", .optional (oneOf "_-"), caseless "key"], caseless "authorization",
      .all [caseless "auth", .optional (oneOf "_-"), caseless "token"], caseless "password",
      caseless "passwd", caseless "secret",
      .all [caseless "session", .optional (oneOf "_-"), caseless "token"], caseless "token"],
    .boundary, .optional (oneOf "'\""), .many space, oneOf ":=", .many space,
    .any [.all [oneOf "\"", .many (noneOf "\""), oneOf "\""],
      .all [oneOf "'", .many (noneOf "'"), oneOf "'"],
      .plus (.one fun c => !(isSpace c || ",;\"'\x7d".toList.contains c))]]

def scalarSecretPatterns : List (Rule Char) :=
  [bearerPattern, assignmentPattern,
    scalarSecret <| .all [.boundary, literal "sk_", .any [literal "live", literal "test"],
      literal "_", .plus (alphanumeric "_=-")],
    scalarSecret <| .all [.boundary, literal "sk-",
      .optional (.any [literal "proj-", literal "svcacct-"]), .atLeast 12 (alphanumeric "_-"),
      .boundary],
    scalarSecret <| .all [.boundary, literal "gh", oneOf "pousr", literal "_",
      .atLeast 20 (alphanumeric ""), .boundary],
    scalarSecret <| .all [.boundary, literal "xox", .any [literal "b", literal "p", literal "a",
      literal "r", literal "s"], literal "-", .atLeast 12 (alphanumeric "-"), .boundary],
    scalarSecret <| .all [.boundary, literal "AIza", .atLeast 20 (alphanumeric "_-"), .boundary],
    scalarSecret <| .all [.boundary, literal "eyJ", .plus (alphanumeric "_-"), literal ".eyJ",
      .plus (alphanumeric "_-"), literal ".", .plus (alphanumeric "_-"), .boundary],
    scalarSecret <| .all [.boundary, literal "SECRET_", .plus (alphanumeric "_"), .boundary],
    scalarSecret <| .all [.boundary, .any [caseless "secret", caseless "token"], oneOf "_-",
      .plus (caselessAlphanumeric "._-"), .boundary]]

def uriUserinfoPattern : Rule Char where
  kept := .all [.boundary, .one fun c => (ignoreCase c).isAlpha,
    .many (caselessAlphanumeric "+.-"), literal "://"]
  part := .plus (.one fun c => !(isSpace c || "/@".toList.contains c))
  tail := literal "@"
  mask := redactedMask

def httpCookieHeaderPattern : Rule Char where
  kept := .all [.boundary, .any [caseless "set-cookie", caseless "cookie"], .many space,
    literal ":"]
  part := .all [.many space, .many (noneOf "\r\n")]
  tail := .empty
  mask := ' ' :: redactedMask

/-! ## Redaction -/

/-- The values that stand in a text as they are, the longest first. The list gives the order of
the set they are collected in. -/
def exactValues (sensitiveValues : List String) : List (List Char) :=
  ((sensitiveValues.map String.toList).filter (· ≠ [])).dedup.insertionSort
    fun left right => right.length ≤ left.length

def patterns : List (Rule Char) :=
  uriUserinfoPattern :: httpCookieHeaderPattern :: scalarSecretPatterns

/-- `redact_sensitive_text`. `word` tells the alphanumeric characters and the underscore. -/
def redactSensitiveText (word : Char → Bool) (sensitiveValues : List String) (value : String) :
    String :=
  let selected := (exactValues sensitiveValues).foldl
    (fun selected secret => replacePart secret redactedMask selected) value.toList
  String.ofList (patterns.foldl (fun selected pattern => pattern.sub word selected) selected)

/-! ## No secret is shown -/

/-- The secret occurs in the text. -/
def Shows (secret text : String) : Prop := secret.toList <:+: text.toList

instance (secret text : String) : Decidable (Shows secret text) :=
  inferInstanceAs (Decidable (secret.toList <:+: text.toList))

/-- A value that no mask has a part of. -/
structure Opaque (secret : String) : Prop where
  nonempty : secret ≠ ""
  spaceless : secret.toList.all (fun c => !isSpace c) = true
  unbracketed : '[' ∉ secret.toList ∧ ']' ∉ secret.toList
  apart : ¬ Shows secret "redacted"

def masks (mask : List Char) : Prop := mask = redactedMask ∨ mask = ' ' :: redactedMask

theorem redacted_clear {secret : String} (hidden : Opaque secret) {after : List Char}
    (shown : secret.toList <:+: redactedMask ++ after) : secret.toList <:+: after := by
  have shape : redactedMask ++ after = [] ++ '[' :: ("redacted".toList ++ ']' :: after) := rfl
  have nonempty : secret.toList ≠ [] := fun none => hidden.nonempty (String.toList_eq_nil_iff.mp none)
  rw [shape] at shown
  rcases infix_barrier hidden.unbracketed.1 shown with inside | later
  · exact absurd (List.infix_nil.mp inside) nonempty
  · exact (infix_barrier hidden.unbracketed.2 later).resolve_left hidden.apart

theorem mask_apart {secret : String} (hidden : Opaque secret) {mask : List Char}
    (known : masks mask) : Apart secret.toList mask := by
  have spaceless : ' ' ∉ secret.toList := fun inside =>
    Bool.noConfusion (List.all_eq_true.mp hidden.spaceless ' ' inside)
  have nonempty : secret.toList ≠ [] := fun none => hidden.nonempty (String.toList_eq_nil_iff.mp none)
  rcases known with rfl | rfl
  · exact ⟨⟨'[', "redacted]".toList, rfl, hidden.unbracketed.1⟩, fun _ => redacted_clear hidden⟩
  · refine ⟨⟨' ', redactedMask, rfl, spaceless⟩, fun after shown => redacted_clear hidden ?_⟩
    change secret.toList <:+: [] ++ ' ' :: (redactedMask ++ after) at shown
    exact (infix_barrier spaceless shown).resolve_left
      fun inside => nonempty (List.infix_nil.mp inside)

theorem exactValues_mem {sensitiveValues : List String} {secret : String}
    (known : secret ∈ sensitiveValues) (nonempty : secret ≠ "") :
    secret.toList ∈ exactValues sensitiveValues := by
  rw [exactValues, List.mem_insertionSort, List.mem_dedup, List.mem_filter, decide_eq_true_iff]
  exact ⟨List.mem_map_of_mem known, fun none => nonempty (String.toList_eq_nil_iff.mp none)⟩

theorem replaced_clear {secret : String} (hidden : Opaque secret) (parts : List (List Char))
    (text : List Char) (covered : secret.toList ∈ parts ∨ ¬ secret.toList <:+: text) :
    ¬ secret.toList <:+:
      parts.foldl (fun selected part => replacePart part redactedMask selected) text := by
  have apart := mask_apart hidden (.inl rfl)
  induction parts generalizing text with
  | nil => exact covered.resolve_left List.not_mem_nil
  | cons part parts ih =>
      rw [List.foldl_cons]
      apply ih
      rcases covered with inside | absent
      · rcases List.mem_cons.mp inside with rfl | later
        · right
          exact replacePart_clear (fun none => hidden.nonempty (String.toList_eq_nil_iff.mp none))
            apart text
        · exact .inl later
      · exact .inr ((replacePart_masked part redactedMask text).clear (forall_eq.mpr apart) absent)

theorem patterns_mask : ∀ pattern ∈ patterns, masks pattern.mask := by
  have scalar : ∀ pattern ∈ scalarSecretPatterns, pattern.mask = redactedMask := by
    simp [scalarSecretPatterns, bearerPattern, assignmentPattern, scalarSecret]
  intro pattern known
  rcases List.mem_cons.mp known with rfl | known
  · exact .inl rfl
  · rcases List.mem_cons.mp known with rfl | known
    · exact .inr rfl
    · exact .inl (scalar pattern known)

theorem patterns_clear (word : Char → Bool) {secret : String} (hidden : Opaque secret)
    (selected : List (Rule Char)) (known : ∀ pattern ∈ selected, masks pattern.mask)
    (text : List Char) (absent : ¬ secret.toList <:+: text) :
    ¬ secret.toList <:+: selected.foldl (fun text pattern => pattern.sub word text) text := by
  induction selected generalizing text with
  | nil => exact absent
  | cons pattern selected ih =>
      rw [List.foldl_cons]
      rw [List.forall_mem_cons] at known
      apply ih known.2
      exact (pattern.sub_masked word text).clear
        (forall_eq.mpr (mask_apart hidden known.1)) absent

theorem redactSensitiveText_hides (word : Char → Bool) {sensitiveValues : List String}
    {secret : String} (known : secret ∈ sensitiveValues) (hidden : Opaque secret)
    (value : String) : ¬ Shows secret (redactSensitiveText word sensitiveValues value) := by
  rw [Shows, redactSensitiveText, String.toList_ofList]
  apply patterns_clear word hidden patterns patterns_mask
  exact replaced_clear hidden _ _ (.inl (exactValues_mem known hidden.nonempty))

end AgentLibOS.Redaction
