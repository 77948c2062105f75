import Mathlib.Data.List.Nodup
import Mathlib.Data.List.TakeDrop

namespace AgentLibOS.Library

/-- What an item of a conversation does to the pairing of calls with results. -/
inductive ToolStep (α : Type*)
  | skip
  | call (id : α)
  | result (id : α)
  deriving DecidableEq, Repr

/-- The calls that were made and those that have their result. -/
structure Pairing (α : Type*) where
  calls : List α
  completed : List α

namespace Pairing
variable {α : Type*} [DecidableEq α]

def start : Pairing α := ⟨[], []⟩

/-- A call is new, and a result is the first for a call that was made. -/
def advance (pairing : Pairing α) : ToolStep α → Option (Pairing α)
  | .skip => some pairing
  | .call id =>
      if id ∈ pairing.calls then none else some { pairing with calls := id :: pairing.calls }
  | .result id =>
      if id ∉ pairing.calls ∨ id ∈ pairing.completed then none
      else some { pairing with completed := id :: pairing.completed }

def run (pairing : Pairing α) (steps : List (ToolStep α)) : Option (Pairing α) :=
  steps.foldlM advance pairing

def Complete (pairing : Pairing α) : Prop := ∀ id, id ∈ pairing.calls ↔ id ∈ pairing.completed

@[simp] theorem run_nil (pairing : Pairing α) : run pairing [] = some pairing := rfl

theorem run_cons {pairing last : Pairing α} {step : ToolStep α} {steps : List (ToolStep α)} :
    run pairing (step :: steps) = some last ↔
      ∃ next, advance pairing step = some next ∧ run next steps = some last := by
  rw [run, List.foldlM_cons, Option.bind_eq_bind, Option.bind_eq_some_iff]
  rfl

theorem run_append {pairing last : Pairing α} {front back : List (ToolStep α)} :
    run pairing (front ++ back) = some last ↔
      ∃ middle, run pairing front = some middle ∧ run middle back = some last := by
  rw [run, List.foldlM_append, Option.bind_eq_bind, Option.bind_eq_some_iff]
  rfl

theorem advance_call {pairing next : Pairing α} {id : α} :
    advance pairing (.call id) = some next ↔
      id ∉ pairing.calls ∧ next = { pairing with calls := id :: pairing.calls } := by
  rw [advance]
  split_ifs with known <;> simp [known, eq_comm]

theorem advance_result {pairing next : Pairing α} {id : α} :
    advance pairing (.result id) = some next ↔
      (id ∈ pairing.calls ∧ id ∉ pairing.completed) ∧
        next = { pairing with completed := id :: pairing.completed } := by
  rw [advance]
  split_ifs with bad
  · refine iff_of_false (by simp) fun both => ?_
    exact bad.elim (fun unknown => unknown both.1.1) both.1.2
  · rw [not_or, not_not] at bad
    simp [bad, eq_comm]

theorem mem_calls {pairing last : Pairing α} {steps : List (ToolStep α)}
    (done : run pairing steps = some last) (id : α) :
    id ∈ last.calls ↔ id ∈ pairing.calls ∨ .call id ∈ steps := by
  induction steps generalizing pairing with
  | nil =>
      obtain rfl := Option.some.inj done
      simp
  | cons step steps ih =>
      obtain ⟨next, first, rest⟩ := run_cons.mp done
      rw [ih rest, List.mem_cons]
      cases step with
      | skip =>
          obtain rfl := Option.some.inj first
          simp
      | call new =>
          obtain ⟨_, rfl⟩ := advance_call.mp first
          simp only [List.mem_cons, ToolStep.call.injEq]
          tauto
      | result old =>
          obtain ⟨_, rfl⟩ := advance_result.mp first
          simp

theorem mem_completed {pairing last : Pairing α} {steps : List (ToolStep α)}
    (done : run pairing steps = some last) (id : α) :
    id ∈ last.completed ↔ id ∈ pairing.completed ∨ .result id ∈ steps := by
  induction steps generalizing pairing with
  | nil =>
      obtain rfl := Option.some.inj done
      simp
  | cons step steps ih =>
      obtain ⟨next, first, rest⟩ := run_cons.mp done
      rw [ih rest, List.mem_cons]
      cases step with
      | skip =>
          obtain rfl := Option.some.inj first
          simp
      | call new =>
          obtain ⟨_, rfl⟩ := advance_call.mp first
          simp
      | result old =>
          obtain ⟨_, rfl⟩ := advance_result.mp first
          simp only [List.mem_cons, ToolStep.result.injEq]
          tauto

/-- The calls among the steps. -/
def callIds (steps : List (ToolStep α)) : List α :=
  steps.filterMap fun
    | .call id => some id
    | _ => none

theorem mem_callIds {steps : List (ToolStep α)} {id : α} :
    id ∈ callIds steps ↔ .call id ∈ steps := by
  rw [callIds, List.mem_filterMap]
  constructor
  · rintro ⟨step, inside, found⟩
    cases step with
    | call other => exact Option.some.inj found ▸ inside
    | skip => cases found
    | result other => cases found
  · exact fun inside => ⟨_, inside, rfl⟩

/-- No call is made twice. -/
theorem callIds_nodup {pairing last : Pairing α} {steps : List (ToolStep α)}
    (done : run pairing steps = some last) :
    (callIds steps).Nodup ∧ ∀ id ∈ callIds steps, id ∉ pairing.calls := by
  induction steps generalizing pairing with
  | nil => exact ⟨.nil, fun _ inside => absurd inside List.not_mem_nil⟩
  | cons step steps ih =>
      obtain ⟨next, first, rest⟩ := run_cons.mp done
      obtain ⟨distinct, fresh⟩ := ih rest
      cases step with
      | skip =>
          obtain rfl := Option.some.inj first
          exact ⟨distinct, fresh⟩
      | result old =>
          obtain ⟨_, rfl⟩ := advance_result.mp first
          exact ⟨distinct, fresh⟩
      | call new =>
          obtain ⟨unknown, rfl⟩ := advance_call.mp first
          refine ⟨List.nodup_cons.mpr ⟨fun again => fresh new again (.head _), distinct⟩, ?_⟩
          exact List.forall_mem_cons.mpr
            ⟨unknown, fun id inside known => fresh id inside (.tail _ known)⟩

/-! ## Closure -/

/-- Steps without results that run from the start run after calls they do not repeat. -/
theorem run_after (earlier : Pairing α) {pairing last : Pairing α} {steps : List (ToolStep α)}
    (done : run pairing steps = some last) (noResult : ∀ id, .result id ∉ steps)
    (fresh : ∀ id, .call id ∈ steps → id ∉ earlier.calls) :
    run ⟨pairing.calls ++ earlier.calls, earlier.completed⟩ steps =
      some ⟨last.calls ++ earlier.calls, earlier.completed⟩ := by
  induction steps generalizing pairing with
  | nil =>
      obtain rfl := Option.some.inj done
      rfl
  | cons step steps ih =>
      obtain ⟨next, first, rest⟩ := run_cons.mp done
      have later := ih rest (fun id inside => noResult id (.tail _ inside))
        fun id inside => fresh id (.tail _ inside)
      refine run_cons.mpr ⟨_, ?_, later⟩
      cases step with
      | skip =>
          obtain rfl := Option.some.inj first
          rfl
      | call new =>
          obtain ⟨unknown, rfl⟩ := advance_call.mp first
          refine advance_call.mpr ⟨?_, rfl⟩
          rw [List.mem_append, not_or]
          exact ⟨unknown, fresh new (.head _)⟩
      | result old => exact absurd (.head _) (noResult old)

/-- Results for distinct calls that have none complete them, in any order. -/
theorem run_results {ids : List α} (distinct : ids.Nodup) (pairing : Pairing α)
    (open_ : ∀ id ∈ ids, id ∈ pairing.calls ∧ id ∉ pairing.completed) :
    ∃ last, run pairing (ids.map .result) = some last := by
  induction ids generalizing pairing with
  | nil => exact ⟨pairing, rfl⟩
  | cons id ids ih =>
      obtain ⟨apart, distinct⟩ := List.nodup_cons.mp distinct
      have first := open_ id (.head _)
      have later : ∀ other ∈ ids, other ∈ pairing.calls ∧ other ∉ id :: pairing.completed := by
        intro other inside
        have more := open_ other (.tail _ inside)
        refine ⟨more.1, ?_⟩
        rw [List.mem_cons, not_or]
        exact ⟨fun same => apart (same ▸ inside), more.2⟩
      obtain ⟨last, rest⟩ := ih distinct ⟨pairing.calls, id :: pairing.completed⟩ later
      exact ⟨last, run_cons.mpr ⟨_, advance_result.mpr ⟨first, rfl⟩, rest⟩⟩

/-- A complete conversation, a turn of new calls, and their results are a complete conversation. -/
theorem complete_turn {history turn : List (ToolStep α)} {ids : List α} {closed called : Pairing α}
    (before : run start history = some closed) (complete : closed.Complete)
    (after : run start turn = some called) (noResult : ∀ id, .result id ∉ turn)
    (fresh : ∀ id, .call id ∈ turn → .call id ∉ history) (answers : ids.Perm (callIds turn)) :
    ∃ last, run start (history ++ turn ++ ids.map .result) = some last ∧ last.Complete := by
  have known (id : α) : id ∈ closed.calls ↔ .call id ∈ history := by
    rw [mem_calls before]
    simp [start]
  have new (id : α) : id ∈ called.calls ↔ .call id ∈ turn := by
    rw [mem_calls after]
    simp [start]
  have answered (id : α) : id ∈ ids ↔ .call id ∈ turn := answers.mem_iff.trans mem_callIds
  have distinct := answers.nodup_iff.mpr (callIds_nodup after).1
  have middle := run_after closed after noResult
    fun id inside => (known id).not.mpr (fresh id inside)
  have open_ : ∀ id ∈ ids, id ∈ called.calls ++ closed.calls ∧ id ∉ closed.completed := by
    intro id inside
    have made := (answered id).mp inside
    exact ⟨List.mem_append_left _ ((new id).mpr made),
      fun old => fresh id made ((known id).mp ((complete id).mpr old))⟩
  obtain ⟨last, results⟩ := run_results distinct ⟨called.calls ++ closed.calls, closed.completed⟩
    open_
  refine ⟨last, run_append.mpr ⟨_, run_append.mpr ⟨closed, before, middle⟩, results⟩, fun id => ?_⟩
  rw [mem_calls results, mem_completed results, List.mem_append, new, complete]
  have noCall : ToolStep.call id ∉ ids.map .result := by simp
  have given : ToolStep.result id ∈ ids.map .result ↔ id ∈ ids := by simp
  rw [given, answered]
  tauto

/-! ## Pairs -/

/-- A step of a run is taken after the steps before it. -/
theorem step_taken {pairing last : Pairing α} {steps : List (ToolStep α)}
    (done : run pairing steps = some last) {k : ℕ} {step : ToolStep α}
    (here : steps[k]? = some step) :
    ∃ middle next, run pairing (steps.take k) = some middle ∧ advance middle step = some next := by
  have inside : k < steps.length := (List.getElem?_eq_some_iff.mp here).1
  have shape : steps = steps.take k ++ step :: steps.drop (k + 1) := by
    have value := (List.getElem?_eq_some_iff.mp here).2
    rw [← value, List.cons_getElem_drop_succ, List.take_append_drop]
  rw [shape] at done
  obtain ⟨middle, front, rest⟩ := run_append.mp done
  obtain ⟨next, taken, _⟩ := run_cons.mp rest
  exact ⟨middle, next, front, taken⟩

theorem mem_take {β : Type*} {items : List β} {item : β} {k : ℕ} :
    item ∈ items.take k ↔ ∃ j < k, items[j]? = some item := by
  rw [List.mem_iff_getElem?]
  simp only [List.getElem?_take]
  constructor
  · rintro ⟨j, found⟩
    split_ifs at found with below
    exact ⟨j, below, found⟩
  · rintro ⟨j, below, found⟩
    exact ⟨j, by rw [if_pos below, found]⟩

theorem call_once {last : Pairing α} {steps : List (ToolStep α)}
    (done : run start steps = some last) {id : α} {i j : ℕ}
    (first : steps[i]? = some (.call id)) (second : steps[j]? = some (.call id)) : i = j := by
  have once {k k' : ℕ} (earlier : steps[k]? = some (.call id))
      (later : steps[k']? = some (.call id)) : ¬ k < k' := by
    intro less
    obtain ⟨middle, next, front, taken⟩ := step_taken done later
    exact (advance_call.mp taken).1
      ((mem_calls front id).mpr (.inr (mem_take.mpr ⟨k, less, earlier⟩)))
  exact Nat.le_antisymm (Nat.not_lt.mp (once second first)) (Nat.not_lt.mp (once first second))

theorem result_once {last : Pairing α} {steps : List (ToolStep α)}
    (done : run start steps = some last) {id : α} {i j : ℕ}
    (first : steps[i]? = some (.result id)) (second : steps[j]? = some (.result id)) : i = j := by
  have once {k k' : ℕ} (earlier : steps[k]? = some (.result id))
      (later : steps[k']? = some (.result id)) : ¬ k < k' := by
    intro less
    obtain ⟨middle, next, front, taken⟩ := step_taken done later
    exact (advance_result.mp taken).1.2
      ((mem_completed front id).mpr (.inr (mem_take.mpr ⟨k, less, earlier⟩)))
  exact Nat.le_antisymm (Nat.not_lt.mp (once second first)) (Nat.not_lt.mp (once first second))

/-- A result stands behind the call it is for. -/
theorem call_before {last : Pairing α} {steps : List (ToolStep α)}
    (done : run start steps = some last) {id : α} {j : ℕ}
    (here : steps[j]? = some (.result id)) : ∃ i < j, steps[i]? = some (.call id) := by
  obtain ⟨middle, next, front, taken⟩ := step_taken done here
  have made := (mem_calls front id).mp (advance_result.mp taken).1.1
  exact mem_take.mp (made.resolve_left (by simp [start]))

/-- In a complete conversation each call has exactly one result, and that stands behind it. -/
theorem paired {last : Pairing α} {steps : List (ToolStep α)}
    (done : run start steps = some last) (complete : last.Complete) {id : α} {i : ℕ}
    (here : steps[i]? = some (.call id)) :
    ∃ j, i < j ∧ steps[j]? = some (.result id) ∧
      ∀ k, steps[k]? = some (.result id) → k = j := by
  have made : id ∈ last.calls := (mem_calls done id).mpr (.inr (List.mem_of_getElem? here))
  have answered := (mem_completed done id).mp ((complete id).mp made)
  obtain ⟨j, result⟩ := List.mem_iff_getElem?.mp (answered.resolve_left (by simp [start]))
  obtain ⟨i', before, call⟩ := call_before done result
  obtain rfl := call_once done here call
  exact ⟨j, before, result, fun k other => result_once done other result⟩

end Pairing

end AgentLibOS.Library
