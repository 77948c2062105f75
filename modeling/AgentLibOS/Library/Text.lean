import Mathlib.Data.List.DropRight
import Mathlib.Data.List.Infix
import Mathlib.Data.List.TakeWhile

namespace AgentLibOS.Library.Text

variable {α : Type*}

section Pairs
variable [DecidableEq α]

/-- Two adjacent occurrences of `c`. -/
def doubled (c : α) : List α → Bool
  | a :: b :: rest => (a == c && b == c) || doubled c (b :: rest)
  | _ => false

/-- One left-to-right pass that replaces each non-overlapping pair of `c` by a single `c`. -/
def replaceDouble (c : α) : List α → List α
  | a :: b :: rest =>
      if a = c ∧ b = c then c :: replaceDouble c rest else a :: replaceDouble c (b :: rest)
  | short => short

/-- Repeat the pass while a pair is left, for at most `fuel` passes. -/
def collapseLoop (c : α) : Nat → List α → List α
  | 0, text => text
  | fuel + 1, text => if doubled c text then collapseLoop c fuel (replaceDouble c text) else text

/-- Every pass shortens the text, so its length is enough fuel. -/
def collapse (c : α) (text : List α) : List α := collapseLoop c text.length text

/-! ## Pairs of a separator -/

theorem doubled_cons (c a : α) (text : List α) :
    doubled c (a :: text) = (text.head?.any (fun b => a == c && b == c) || doubled c text) := by
  cases text <;> simp [doubled]

theorem doubled_shorter {c : α} {short long : List α} (le : short <+: long)
    (single : doubled c long = false) : doubled c short = false := by
  obtain ⟨rest, rfl⟩ := le
  induction short with
  | nil => rfl
  | cons a short ih =>
      rw [List.cons_append, doubled_cons, Bool.or_eq_false_iff] at single
      rw [doubled_cons, ih single.2, Bool.or_false]
      cases short with
      | nil => rfl
      | cons b short => simpa using single.1

theorem doubled_middle (c : α) (before after : List α) :
    doubled c (before ++ c :: c :: after) = true := by
  induction before with
  | nil => simp [doubled]
  | cons a before ih => rw [List.cons_append, doubled_cons, ih, Bool.or_true]

theorem doubled_split {c other : α} (different : other ≠ c) (before after : List α) :
    doubled c (before ++ other :: after) = (doubled c before || doubled c after) := by
  induction before with
  | nil => cases after <;> simp [doubled_cons, different, doubled]
  | cons a before ih =>
      rw [List.cons_append, doubled_cons, ih, doubled_cons, Bool.or_assoc]
      cases before <;> simp [different]

theorem replaceDouble_length_le (c : α) (text : List α) :
    (replaceDouble c text).length ≤ text.length := by
  fun_induction replaceDouble c text with
  | case1 a b rest pair ih => simp only [List.length_cons]; omega
  | case2 a b rest other ih => simp only [List.length_cons] at ih ⊢; omega
  | case3 short => exact le_rfl

theorem replaceDouble_length_lt (c : α) (text : List α) (pair : doubled c text = true) :
    (replaceDouble c text).length < text.length := by
  fun_induction replaceDouble c text with
  | case1 a b rest here ih =>
      have := replaceDouble_length_le c rest
      simp only [List.length_cons]
      omega
  | case2 a b rest other ih =>
      simp only [doubled, Bool.or_eq_true, Bool.and_eq_true, beq_iff_eq] at pair
      have := ih (pair.resolve_left other)
      simp only [List.length_cons] at this ⊢
      omega
  | case3 short long =>
      cases short with
      | nil => simp [doubled] at pair
      | cons a rest =>
          cases rest with
          | nil => simp [doubled] at pair
          | cons b rest => exact absurd rfl (long a b rest)

theorem replaceDouble_head? (c : α) (text : List α) :
    (replaceDouble c text).head? = text.head? := by
  fun_cases replaceDouble c text with
  | case1 a b rest pair => simp [pair.1]
  | case2 a b rest other => simp
  | case3 short => rfl

theorem collapseLoop_single (c : α) (fuel : Nat) (text : List α) (enough : text.length ≤ fuel) :
    doubled c (collapseLoop c fuel text) = false := by
  induction fuel generalizing text with
  | zero =>
      obtain rfl : text = [] := List.length_eq_zero_iff.mp (Nat.le_zero.mp enough)
      rfl
  | succ fuel ih =>
      by_cases pair : doubled c text = true
      · have shorter := replaceDouble_length_lt c text pair
        simp only [collapseLoop, pair, if_true]
        exact ih _ (by omega)
      · simp [collapseLoop, pair]

theorem collapseLoop_head? (c : α) (fuel : Nat) (text : List α) :
    (collapseLoop c fuel text).head? = text.head? := by
  induction fuel generalizing text with
  | zero => rfl
  | succ fuel ih =>
      by_cases pair : doubled c text = true
      · simp [collapseLoop, pair, ih, replaceDouble_head?]
      · simp [collapseLoop, pair]

theorem collapse_single (c : α) (text : List α) : doubled c (collapse c text) = false :=
  collapseLoop_single c _ text le_rfl

theorem collapse_head? (c : α) (text : List α) : (collapse c text).head? = text.head? :=
  collapseLoop_head? c _ text

theorem collapse_of_single {c : α} {text : List α} (single : doubled c text = false) :
    collapse c text = text := by
  cases text with
  | nil => rfl
  | cons a text => simp [collapse, collapseLoop, single]

end Pairs

/-! ## Stripping -/

/-- Unicode white space. -/
def isSpace (c : Char) : Bool :=
  let n := c.toNat
  (0x9 ≤ n && n ≤ 0xd) || (0x1c ≤ n && n ≤ 0x20) || n == 0x85 || n == 0xa0 || n == 0x1680 ||
    (0x2000 ≤ n && n ≤ 0x200a) || n == 0x2028 || n == 0x2029 || n == 0x202f || n == 0x205f ||
    n == 0x3000

def strip (p : α → Bool) (text : List α) : List α := (text.dropWhile p).rdropWhile p

theorem head?_shorter {short long : List α} (le : short <+: long) {a : α}
    (first : a ∈ short.head?) : a ∈ long.head? := by
  obtain ⟨rest, rfl⟩ := le
  cases short <;> simp_all

theorem strip_head (p : α → Bool) (text : List α) : ∀ a ∈ (strip p text).head?, p a = false := by
  intro a first
  have first' := head?_shorter (List.rdropWhile_prefix p _) first
  have := List.head?_dropWhile_not p text
  rw [Option.mem_def.mp first'] at this
  simpa using this

theorem strip_eq_rdropWhile {p : α → Bool} {text : List α}
    (head : ∀ a ∈ text.head?, p a = false) : strip p text = text.rdropWhile p := by
  cases text with
  | nil => rfl
  | cons a text => simp [strip, head a (by simp)]

theorem strip_eq_self {p : α → Bool} {text : List α} (kept : ∀ a ∈ text, p a = false) :
    strip p text = text := by
  have front : text.dropWhile p = text := by
    cases text with
    | nil => rfl
    | cons a text => simp [kept a List.mem_cons_self]
  rw [strip, front, List.rdropWhile_eq_self_iff]
  intro nonempty
  simp [kept _ (List.getLast_mem nonempty)]

theorem strip_strip (p : α → Bool) (text : List α) : strip p (strip p text) = strip p text := by
  rw [strip_eq_rdropWhile (strip_head p text), strip]
  exact List.rdropWhile_idempotent p _

/-- What `rdropWhile` removes is a block of characters that satisfy the predicate. -/
theorem rdropWhile_append_block (p : α → Bool) (text : List α) :
    ∃ block, text = text.rdropWhile p ++ block ∧ ∀ a ∈ block, p a = true :=
  ⟨text.rtakeWhile p, (List.rdropWhile_append_rtakeWhile).symm,
    fun _ => List.mem_rtakeWhile_imp⟩

theorem rdropWhile_eq_self_of_suffix {p : α → Bool} {text : List α} {a : α}
    (last : [a] <:+ text) (keep : p a = false) : text.rdropWhile p = text := by
  obtain ⟨front, rfl⟩ := last
  rw [List.rdropWhile_concat_neg]
  simpa using keep

end AgentLibOS.Library.Text
