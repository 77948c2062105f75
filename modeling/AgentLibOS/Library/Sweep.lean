import AgentLibOS.Library.Pages
import AgentLibOS.Library.Run

namespace AgentLibOS.Library.Sweep
open Run Pages

universe u

variable {σ : Type u} {ρ κ ε : Type*} [LinearOrder κ]

/-- Page after page of the rows that a state holds, each row processed before the next page is read,
until a page is the last. -/
def sweep (rows : σ → List ρ) (key : ρ → κ) (limit : Nat) (process : σ → ρ → Except ε σ) (spent : ε) :
    Nat → Option κ → σ → Except ε σ
  | 0, _, _ => .error spent
  | fuel + 1, after, state =>
      let left := (rows state).filter fun row => beyond after (key row)
      (left.take limit).foldlM process state >>= fun next =>
        match if limit < left.length then (left.take limit).getLast? else none with
        | none => .ok next
        | some last => sweep rows key limit process spent fuel (some (key last)) next

/-- Processing a row leaves the rows behind it. -/
structure Steady (rows : σ → List ρ) (key : ρ → κ) (process : σ → ρ → Except ε σ) (I : σ → Prop) : Prop where
  sorted : ∀ {state}, I state → (rows state).Pairwise fun left right => key left < key right
  keeps : ∀ {state row next}, I state → row ∈ rows state → process state row = .ok next → I next
  behind : ∀ {state row next}, I state → row ∈ rows state → process state row = .ok next →
    ((rows next).filter fun other => decide (key row < key other)) =
      (rows state).filter fun other => decide (key row < key other)

section
variable {rows : σ → List ρ} {key : ρ → κ} {process : σ → ρ → Except ε σ} {I : σ → Prop}

theorem ok_bind {α β : Type u} (value : α) (next : α → Except ε β) : (Except.ok value >>= next) = next value := rfl

theorem filter_beyond {left right : List ρ} {bound bound' : κ} (below : bound ≤ bound')
    (same : (left.filter fun row => decide (bound < key row)) = right.filter fun row => decide (bound < key row)) :
    (left.filter fun row => decide (bound' < key row)) = right.filter fun row => decide (bound' < key row) := by
  have narrow (list : List ρ) : (list.filter fun row => decide (bound' < key row)) =
      (list.filter fun row => decide (bound < key row)).filter fun row => decide (bound' < key row) := by
    rw [List.filter_filter]
    refine List.filter_congr fun row _ => ?_
    cases further : decide (bound' < key row) with
    | false => rfl
    | true => rw [Bool.true_and, decide_eq_true (below.trans_lt (of_decide_eq_true further))]
  rw [narrow left, narrow right, same]

/-- What is processed in the order of the keys is there until its turn, and the rest stays. -/
theorem Steady.fold (steady : Steady rows key process I) {listed : List ρ} {state last : σ} (holds : I state)
    (sorted : listed.Pairwise fun left right => key left < key right) (inside : ∀ row ∈ listed, row ∈ rows state)
    (done : listed.foldlM process state = .ok last) :
    I last ∧ ∀ bound, (∀ row ∈ listed, key row ≤ bound) →
      ((rows last).filter fun other => decide (bound < key other)) =
        (rows state).filter fun other => decide (bound < key other) := by
  induction listed generalizing state with
  | nil =>
      cases done
      exact ⟨holds, fun _ _ => rfl⟩
  | cons row listed ih =>
      rw [List.foldlM_cons, bind_eq_ok] at done
      obtain ⟨next, first, rest⟩ := done
      have here := inside row List.mem_cons_self
      have behind := steady.behind holds here first
      have still : ∀ other ∈ listed, other ∈ rows next := by
        intro other later
        have kept : other ∈ (rows state).filter fun other => decide (key row < key other) :=
          List.mem_filter.mpr ⟨inside other (List.mem_cons_of_mem _ later),
            decide_eq_true ((List.pairwise_cons.mp sorted).1 other later)⟩
        rw [← behind] at kept
        exact (List.mem_filter.mp kept).1
      obtain ⟨holds', rest'⟩ := ih (steady.keeps holds here first) (List.pairwise_cons.mp sorted).2 still rest
      refine ⟨holds', fun bound below => ?_⟩
      rw [rest' bound fun other later => below other (List.mem_cons_of_mem _ later)]
      exact filter_beyond (below row List.mem_cons_self) behind

/-- The pages process exactly the rows that were there at the start, once each and in order. -/
theorem Steady.sweep_eq (steady : Steady rows key process I) {limit : Nat} (positive : 0 < limit) {spent : ε}
    {fuel : Nat} {after : Option κ} {state : σ} (holds : I state)
    (enough : ((rows state).filter fun row => beyond after (key row)).length < fuel) :
    sweep rows key limit process spent fuel after state =
      ((rows state).filter fun row => beyond after (key row)).foldlM process state := by
  induction fuel generalizing after state with
  | zero => cases enough
  | succ fuel ih =>
      rw [sweep]
      have sorted := (steady.sorted holds).filter fun row => beyond after (key row)
      have found (last : ρ) : (((rows state).filter fun row => beyond after (key row)).take limit).getLast? =
          some last → ((rows state).filter fun row => beyond (some (key last)) (key row)) =
            ((rows state).filter fun row => beyond after (key row)).drop limit :=
        filter_beyond_last (steady.sorted holds)
      have inside : ∀ row ∈ (rows state).filter (fun row => beyond after (key row)), row ∈ rows state :=
        fun row listed => (List.mem_filter.mp listed).1
      generalize (rows state).filter (fun row => beyond after (key row)) = left at *
      conv_rhs => rw [← List.take_append_drop limit left, List.foldlM_append]
      by_cases more : limit < left.length
      · cases ran : (left.take limit).foldlM process state with
        | error fault => rfl
        | ok next =>
            rw [ok_bind, ok_bind]
            cases final : (left.take limit).getLast? with
            | none =>
                have empty := congrArg List.length (List.getLast?_eq_none_iff.mp final)
                rw [List.length_take, List.length_nil] at empty
                omega
            | some last =>
                rw [if_pos more]
                obtain ⟨holds', behind⟩ := steady.fold holds (sorted.sublist (List.take_sublist limit left))
                  (fun row early => inside row (List.mem_of_mem_take early)) ran
                have last_ : ∀ row ∈ left.take limit, key row ≤ key last := by
                  obtain ⟨front, shape⟩ := List.getLast?_eq_some_iff.mp final
                  have ordered := sorted.sublist (List.take_sublist limit left)
                  rw [shape] at ordered ⊢
                  intro row early
                  rcases List.mem_append.mp early with before | here
                  · exact ((List.pairwise_append.mp ordered).2.2 row before last List.mem_cons_self).le
                  · rw [List.mem_singleton.mp here]
                have rest : (rows next).filter (fun row => beyond (some (key last)) (key row)) =
                    left.drop limit := (behind (key last) last_).trans (found last final)
                have shorter : ((rows next).filter fun row => beyond (some (key last)) (key row)).length < fuel := by
                  rw [rest, List.length_drop]
                  omega
                rw [← rest]
                exact ih holds' shorter
      · rw [List.take_of_length_le (Nat.le_of_not_lt more), List.drop_eq_nil_of_le (Nat.le_of_not_lt more)]
        cases left.foldlM process state with
        | error fault => rfl
        | ok next =>
            rw [ok_bind, if_neg more]
            rfl

end

end AgentLibOS.Library.Sweep
