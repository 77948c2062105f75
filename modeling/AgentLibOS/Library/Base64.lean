import Mathlib.Data.List.DropRight
import Mathlib.Tactic.IntervalCases

namespace AgentLibOS.Library.Base64

/-! ## Digits -/

/-- The padding `=`. -/
def pad : Nat := 61

/-- A digit of the URL-safe alphabet. -/
def digit (value : Nat) : Nat :=
  if value < 26 then value + 65
  else if value < 52 then value + 71
  else if value < 62 then value - 4
  else if value = 62 then 45
  else 95

/-- The value of a digit of either alphabet. -/
def digitValue (c : Nat) : Option Nat :=
  if 65 ≤ c ∧ c ≤ 90 then some (c - 65)
  else if 97 ≤ c ∧ c ≤ 122 then some (c - 71)
  else if 48 ≤ c ∧ c ≤ 57 then some (c + 4)
  else if c = 45 ∨ c = 43 then some 62
  else if c = 95 ∨ c = 47 then some 63
  else none

theorem digitValue_digit {value : Nat} (small : value < 64) : digitValue (digit value) = some value := by
  interval_cases value <;> rfl

theorem digit_ne_pad (value : Nat) : digit value ≠ pad := by
  unfold digit pad
  split_ifs <;> omega

theorem digitValue_pad : digitValue pad = none := rfl

/-! ## Texts -/

def encode : List Nat → List Nat
  | a :: b :: c :: rest =>
      digit (a / 4) :: digit (a % 4 * 16 + b / 16) :: digit (b % 16 * 4 + c / 64) ::
        digit (c % 64) :: encode rest
  | [a, b] => [digit (a / 4), digit (a % 4 * 16 + b / 16), digit (b % 16 * 4), pad]
  | [a] => [digit (a / 4), digit (a % 4 * 16), pad, pad]
  | [] => []

/-- Strict decoding: padding only in the last group, and no other characters. -/
def decode : List Nat → Option (List Nat)
  | [] => some []
  | a :: b :: c :: d :: rest => do
      let x ← digitValue a
      let y ← digitValue b
      if rest = [] ∧ c = pad ∧ d = pad then some [x * 4 + y / 16]
      else
        let z ← digitValue c
        if rest = [] ∧ d = pad then some [x * 4 + y / 16, y % 16 * 16 + z / 4]
        else
          let w ← digitValue d
          let bytes ← decode rest
          some ((x * 4 + y / 16) :: (y % 16 * 16 + z / 4) :: (z % 4 * 64 + w) :: bytes)
  | _ => none

theorem decode_encode {bytes : List Nat} (small : ∀ byte ∈ bytes, byte < 256) :
    decode (encode bytes) = some bytes := by
  fun_induction encode bytes with
  | case1 a b c rest ih =>
      simp only [List.forall_mem_cons] at small
      obtain ⟨smallA, smallB, smallC, later⟩ := small
      have first := digitValue_digit (show a / 4 < 64 by omega)
      have second := digitValue_digit (show a % 4 * 16 + b / 16 < 64 by omega)
      have third := digitValue_digit (show b % 16 * 4 + c / 64 < 64 by omega)
      have fourth := digitValue_digit (show c % 64 < 64 by omega)
      have unpadded₃ : ¬ (encode rest = [] ∧ digit (b % 16 * 4 + c / 64) = pad ∧
          digit (c % 64) = pad) := fun both => digit_ne_pad _ both.2.1
      have unpadded₄ : ¬ (encode rest = [] ∧ digit (c % 64) = pad) := fun both =>
        digit_ne_pad _ both.2
      rw [decode, first, second, third, fourth, ih later]
      simp only [Option.bind_eq_bind, Option.bind_some, if_neg unpadded₃, if_neg unpadded₄,
        Option.some.injEq, List.cons.injEq, and_true]
      omega
  | case2 a b =>
      simp only [List.forall_mem_cons] at small
      obtain ⟨smallA, smallB, -⟩ := small
      have first := digitValue_digit (show a / 4 < 64 by omega)
      have second := digitValue_digit (show a % 4 * 16 + b / 16 < 64 by omega)
      have third := digitValue_digit (show b % 16 * 4 < 64 by omega)
      have unpadded : ¬ (True ∧ digit (b % 16 * 4) = pad ∧ True) := fun both =>
        digit_ne_pad _ both.2.1
      rw [decode, first, second, third]
      simp only [Option.bind_eq_bind, Option.bind_some]
      rw [if_neg unpadded, if_pos ⟨trivial, trivial⟩, Option.some.injEq, List.cons.injEq, List.cons.injEq]
      exact ⟨by omega, by omega, rfl⟩
  | case3 a =>
      simp only [List.forall_mem_cons] at small
      have first := digitValue_digit (show a / 4 < 64 by omega)
      have second := digitValue_digit (show a % 4 * 16 < 64 by omega)
      rw [decode, first, second]
      simp only [Option.bind_eq_bind, Option.bind_some, and_self, if_true, Option.some.injEq,
        List.cons.injEq, and_true]
      omega
  | case4 => rfl

/-! ## Unpadded texts -/

/-- The text without its padding, `rstrip("=")`. -/
def unpadded (text : List Nat) : List Nat := text.rdropWhile (· == pad)

/-- The text with the padding that its length asks for. -/
def padded (text : List Nat) : List Nat := text ++ List.replicate ((4 - text.length % 4) % 4) pad

theorem unpadded_cons {c : Nat} (kept : c ≠ pad) (text : List Nat) :
    unpadded (c :: text) = c :: unpadded text := by
  induction text using List.reverseRecOn with
  | nil => simp [unpadded, List.rdropWhile_singleton, kept]
  | append_singleton text d ih =>
      rw [unpadded, unpadded, ← List.cons_append, List.rdropWhile_concat, List.rdropWhile_concat]
      split_ifs
      · exact ih
      · rfl

theorem padded_cons (a b c d : Nat) (text : List Nat) :
    padded (a :: b :: c :: d :: text) = a :: b :: c :: d :: padded text := by
  have same : (4 - (a :: b :: c :: d :: text).length % 4) % 4 = (4 - text.length % 4) % 4 := by
    simp only [List.length_cons]
    omega
  rw [padded, padded, same]
  rfl

theorem unpadded_pads (count : Nat) : unpadded (List.replicate count pad) = [] :=
  List.rdropWhile_eq_nil_iff.mpr fun c inside => by simp [List.eq_of_mem_replicate inside]

theorem padded_unpadded (bytes : List Nat) : padded (unpadded (encode bytes)) = encode bytes := by
  fun_induction encode bytes with
  | case1 a b c rest ih =>
      rw [unpadded_cons (digit_ne_pad _), unpadded_cons (digit_ne_pad _),
        unpadded_cons (digit_ne_pad _), unpadded_cons (digit_ne_pad _), padded_cons, ih]
  | case2 a b =>
      have pads := unpadded_pads 1
      rw [unpadded_cons (digit_ne_pad _), unpadded_cons (digit_ne_pad _),
        unpadded_cons (digit_ne_pad _)]
      change padded (_ :: _ :: _ :: unpadded (List.replicate 1 pad)) = _
      rw [pads]
      rfl
  | case3 a =>
      have pads := unpadded_pads 2
      rw [unpadded_cons (digit_ne_pad _), unpadded_cons (digit_ne_pad _)]
      change padded (_ :: _ :: unpadded (List.replicate 2 pad)) = _
      rw [pads]
      rfl
  | case4 => rfl

end AgentLibOS.Library.Base64
