import AgentLibOS.Library.Masking

namespace AgentLibOS.Library.Matching
open Masking

variable {α : Type*}

/-! ## Regular expressions -/

/-- Expressions of a backtracking matcher: alternatives are tried from the left, and repetition
takes as much as it can. -/
inductive Regex (α : Type*)
  | empty
  | one (accepts : α → Bool)
  | boundary
  | seq (first second : Regex α)
  | alt (left right : Regex α)
  | many (item : Regex α)

namespace Regex

def all : List (Regex α) → Regex α
  | [] => empty
  | [item] => item
  | item :: rest => seq item (all rest)

def any : List (Regex α) → Regex α
  | [] => one fun _ => false
  | [item] => item
  | item :: rest => alt item (any rest)

def optional (item : Regex α) : Regex α := alt item empty

def plus (item : Regex α) : Regex α := seq item (many item)

/-- At least so many times. -/
def atLeast : Nat → Regex α → Regex α
  | 0, item => many item
  | count + 1, item => seq item (atLeast count item)

end Regex

/-- What stands before the text after its first elements. -/
def behind (length : Nat) (previous : Option α) (text : List α) : Option α :=
  (text.take length).getLast?.or previous

/-- The ends of a repetition within so many rounds, none of which is empty. -/
def manyEnds (item : Option α → List α → List Nat) : Nat → Option α → List α → List Nat
  | 0, _, _ => [0]
  | rounds + 1, previous, text =>
      (item previous text).flatMap (fun length =>
        if length = 0 then []
        else (manyEnds item rounds (behind length previous text) (text.drop length)).map
          (length + ·)) ++ [0]

/-- The lengths of the matches at the head of the text, in the order in which they are tried.
`word` tells the word characters that a boundary stands between. -/
def ends (word : α → Bool) : Regex α → Option α → List α → List Nat
  | .empty, _, _ => [0]
  | .one accepts, _, text => if text.head?.any accepts then [1] else []
  | .boundary, previous, text => if previous.any word = text.head?.any word then [] else [0]
  | .seq first second, previous, text =>
      (ends word first previous text).flatMap fun length =>
        (ends word second (behind length previous text) (text.drop length)).map (length + ·)
  | .alt left right, previous, text => ends word left previous text ++ ends word right previous text
  | .many item, previous, text => manyEnds (ends word item) text.length previous text

/-! ## Masking rules -/

/-- A pattern of three parts, of which the middle one is masked. -/
structure Rule (α : Type*) where
  kept : Regex α
  part : Regex α
  tail : Regex α
  mask : List α

/-- The first match of a rule at the head of the text. -/
def Rule.find (word : α → Bool) (rule : Rule α) (previous : Option α) (text : List α) :
    Option (Nat × List α) :=
  let found := (ends word rule.kept previous text).flatMap fun kept =>
    let before := behind kept previous text
    let rest := text.drop kept
    (ends word rule.part before rest).flatMap fun part =>
      (ends word rule.tail (behind part before rest) (rest.drop part)).map fun tail =>
        (kept + part + tail, text.take kept ++ rule.mask ++ (rest.drop part).take tail)
  found.head?

/-- `pattern.sub`. -/
def Rule.sub (word : α → Bool) (rule : Rule α) (text : List α) : List α :=
  substitute (rule.find word) 0 none text

theorem Rule.find_masks {word : α → Bool} {rule : Rule α} (previous : Option α) (text : List α)
    (length : Nat) (replacement : List α)
    (found : rule.find word previous text = some (length, replacement)) :
    Masks (· = rule.mask) text length replacement := by
  have inside := List.mem_of_head? found
  obtain ⟨kept, _, inside⟩ := List.mem_flatMap.mp inside
  obtain ⟨part, _, inside⟩ := List.mem_flatMap.mp inside
  obtain ⟨tail, _, same⟩ := List.mem_map.mp inside
  cases same
  refine ⟨text.take kept, (text.drop kept).take part, rule.mask,
    ((text.drop kept).drop part).take tail, ?_, rfl, rfl⟩
  rw [List.take_add, List.take_add, List.drop_drop]

theorem Rule.sub_masked (word : α → Bool) (rule : Rule α) (text : List α) :
    Masked (· = rule.mask) text (rule.sub word text) :=
  substitute_masked Rule.find_masks 0 none text

end AgentLibOS.Library.Matching
