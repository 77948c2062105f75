import Mathlib.Algebra.Order.Group.Int
import Mathlib.Data.List.Basic
import Mathlib.Tactic.Linarith

namespace AgentLibOS.Library.Windows

/-- A charge to a window: when the window started, when the charge was made, how many charges the
window then has, and the limit in force. -/
structure Charge where
  window : ℤ
  reading : ℤ
  count : ℕ
  limit : ℕ
  deriving DecidableEq, Repr

/-- A charge goes to the window before it, with its count, or starts one at least a width later. -/
def ChargeFollows (width : ℤ) (charge : Charge) : Option (ℤ × ℕ) → Prop
  | none => charge.count = 1
  | some (window, count) =>
      (charge.window = window ∧ charge.count = count + 1) ∨
        (window + width ≤ charge.window ∧ charge.count = 1)

/-- The window of the newest charge, and its count. -/
def current (log : List Charge) : Option (ℤ × ℕ) :=
  log.head?.map fun charge => (charge.window, charge.count)

/-- A log of charges to tumbling windows, newest first. -/
inductive Tumbling (width : ℤ) : List Charge → Prop
  | nil : Tumbling width []
  | cons {charge : Charge} {log : List Charge}
      (timely : charge.window ≤ charge.reading ∧ charge.reading < charge.window + width)
      (limited : charge.count ≤ charge.limit) (follows : ChargeFollows width charge (current log))
      (earlier : Tumbling width log) : Tumbling width (charge :: log)

namespace Tumbling
variable {width : ℤ} {log : List Charge}

theorem timely_of_mem (tumbling : Tumbling width log) :
    ∀ charge ∈ log, charge.window ≤ charge.reading ∧ charge.reading < charge.window + width := by
  induction tumbling with
  | nil => exact fun _ member => absurd member List.not_mem_nil
  | cons timely _ _ _ ih =>
      intro charge member
      rcases List.mem_cons.mp member with rfl | older
      · exact timely
      · exact ih charge older

/-- An older charge went to the same window or to one that started a width before. -/
theorem apart (tumbling : Tumbling width log) (positive : 0 ≤ width) :
    log.Pairwise fun newer older =>
      newer.window = older.window ∨ older.window + width ≤ newer.window := by
  induction tumbling with
  | nil => exact .nil
  | @cons charge log _ _ follows _ ih =>
      refine List.pairwise_cons.mpr ⟨fun older member => ?_, ih⟩
      cases log with
      | nil => cases member
      | cons before log =>
          have step : charge.window = before.window ∨ before.window + width ≤ charge.window :=
            follows.imp And.left And.left
          rcases List.mem_cons.mp member with rfl | deeper
          · exact step
          · have further := (List.pairwise_cons.mp ih).1 older deeper
            have grows : before.window ≤ before.window + width := by linarith only [positive]
            omega

/-- A charge counts the charges of its window so far. -/
theorem count_eq (tumbling : Tumbling width log) (positive : 0 < width) :
    ∀ charge ∈ log.head?, (log.filter fun other => other.window == charge.window).length =
      charge.count := by
  induction tumbling with
  | nil => simp
  | @cons charge log timely limited follows earlier ih =>
      intro newest found
      obtain rfl := Option.some.inj found
      have pairs := List.pairwise_cons.mp
        ((Tumbling.cons timely limited follows earlier).apart positive.le)
      rw [List.filter_cons_of_pos (by exact beq_self_eq_true charge.window), List.length_cons]
      cases log with
      | nil => exact follows.symm
      | cons before log =>
          rcases follows with ⟨same, next⟩ | ⟨later, first⟩
          · rw [same, next, ih before rfl]
          · have none : ((before :: log).filter fun other => other.window == charge.window) = [] := by
              refine List.filter_eq_nil_iff.mpr fun other member equal => ?_
              have before_apart := earlier.apart positive.le
              rcases List.mem_cons.mp member with rfl | older
              · have := beq_iff_eq.mp equal
                omega
              · have := beq_iff_eq.mp equal
                have := (List.pairwise_cons.mp before_apart).1 other older
                omega
            rw [none, first, List.length_nil]

/-- A window is charged at most the limit in force at its last charge, and so for the charges of
a window that are selected. -/
theorem window_le (tumbling : Tumbling width log) (positive : 0 < width) (selects : Charge → Bool)
    (window : ℤ) {bound : ℕ}
    (limits : ∀ charge ∈ log, charge.window = window → selects charge = true →
      charge.limit ≤ bound) :
    (log.filter fun charge => charge.window == window && selects charge).length ≤ bound := by
  induction tumbling with
  | nil => exact Nat.zero_le bound
  | @cons charge log timely limited follows earlier ih =>
      cases chosen : charge.window == window && selects charge with
      | false =>
          rw [List.filter_cons_of_neg (by rw [chosen]; exact Bool.false_ne_true)]
          exact ih fun other member => limits other (.tail _ member)
      | true =>
          rw [Bool.and_eq_true, beq_iff_eq] at chosen
          obtain ⟨rfl, selected⟩ := chosen
          have whole := (Tumbling.cons timely limited follows earlier).count_eq positive charge rfl
          calc ((charge :: log).filter fun other =>
                  other.window == charge.window && selects other).length
              ≤ ((charge :: log).filter fun other => other.window == charge.window).length :=
                (List.monotone_filter_right _ fun other both =>
                  (Bool.and_eq_true _ _ ▸ both).1).length_le
            _ = charge.count := whole
            _ ≤ charge.limit := limited
            _ ≤ bound := limits charge (.head _) rfl selected

theorem suffix {newer older : List Charge} (tumbling : Tumbling width (newer ++ older)) :
    Tumbling width older := by
  induction newer with
  | nil => exact tumbling
  | cons later newer ih =>
      cases tumbling with
      | cons _ _ _ earlier => exact ih earlier

/-- A window is charged at most the limit in force at its last charge. -/
theorem last_limit (tumbling : Tumbling width log) (positive : 0 < width)
    {newer older : List Charge} {charge : Charge} (shape : log = newer ++ charge :: older)
    (last : ∀ later ∈ newer, later.window ≠ charge.window) :
    (log.filter fun other => other.window == charge.window).length ≤ charge.limit := by
  subst shape
  have none : (newer.filter fun other => other.window == charge.window) = [] :=
    List.filter_eq_nil_iff.mpr fun later member same => last later member (beq_iff_eq.mp same)
  have rest := tumbling.suffix
  rw [List.filter_append, none, List.nil_append, rest.count_eq positive charge rfl]
  cases rest with
  | cons _ limited _ _ => exact limited

/-- No interval as long as a window has more charges than two limits. -/
theorem interval_le (tumbling : Tumbling width log) (positive : 0 < width) (start : ℤ) {bound : ℕ}
    (limits : ∀ charge ∈ log, start ≤ charge.reading → charge.reading ≤ start + width →
      charge.limit ≤ bound) :
    (log.filter fun charge =>
      decide (start ≤ charge.reading ∧ charge.reading ≤ start + width)).length ≤ 2 * bound := by
  let inside : Charge → Bool := fun charge =>
    decide (start ≤ charge.reading ∧ charge.reading ≤ start + width)
  have limited (window : ℤ) : (log.filter fun charge =>
      charge.window == window && inside charge).length ≤ bound :=
    tumbling.window_le positive inside window fun charge member _ within =>
      limits charge member (of_decide_eq_true within).1 (of_decide_eq_true within).2
  -- two charges inside of the interval went to windows that are less than two widths apart
  have near : ∀ newer ∈ log.filter inside, ∀ older ∈ log.filter inside,
      newer.window < older.window + 2 * width := by
    intro newer first older second
    rw [List.mem_filter] at first second
    have late := (tumbling.timely_of_mem newer first.1).1
    have early := (tumbling.timely_of_mem older second.1).2
    have upper := (of_decide_eq_true first.2).2
    have lower := (of_decide_eq_true second.2).1
    omega
  have pairs := (tumbling.apart positive.le).filter inside
  cases found : log.filter inside with
  | nil => exact Nat.zero_le _
  | cons newest rest =>
      rw [found] at near pairs
      have first := limited newest.window
      rw [← List.filter_filter, found] at first
      have both := List.length_eq_length_filter_add (l := newest :: rest)
        fun charge => charge.window == newest.window
      cases left : (newest :: rest).filter fun charge => !(charge.window == newest.window) with
      | nil =>
          rw [left, List.length_nil] at both
          omega
      | cons second others =>
          have part : (second :: others).Sublist (newest :: rest) := left ▸ List.filter_sublist
          have other : ∀ charge ∈ second :: others, charge.window ≠ newest.window := by
            intro charge member
            rw [← left, List.mem_filter, Bool.not_eq_true', beq_eq_false_iff_ne] at member
            exact member.2
          have before : ∀ charge ∈ second :: others, charge.window + width ≤ newest.window := by
            intro charge member
            rcases List.mem_cons.mp (part.subset member) with rfl | inRest
            · exact absurd rfl (other charge member)
            · exact ((List.pairwise_cons.mp pairs).1 charge inRest).resolve_left
                (other charge member).symm
          -- a third window would be two widths before the newest
          have same : ∀ charge ∈ second :: others, charge.window = second.window := by
            intro charge member
            rcases List.mem_cons.mp member with rfl | deeper
            · rfl
            · have close := near newest (.head _) charge (part.subset member)
              have gap := before second (.head _)
              have order := (List.pairwise_cons.mp (pairs.sublist part)).1 charge deeper
              omega
          have second_le := limited second.window
          rw [← List.filter_filter, found] at second_le
          have whole : (second :: others).filter (fun charge => charge.window == second.window) =
              second :: others :=
            List.filter_eq_self.mpr fun charge member => beq_iff_eq.mpr (same charge member)
          have sub := (part.filter fun charge => charge.window == second.window).length_le
          rw [whole] at sub
          rw [left] at both
          omega

end Tumbling

end AgentLibOS.Library.Windows
