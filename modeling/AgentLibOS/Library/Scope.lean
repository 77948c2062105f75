import Mathlib.Tactic.Common

namespace AgentLibOS.Library.Scope

/-- Programs that keep the state they have reached when they raise. -/
abbrev Stateful (σ ε α : Type) := ExceptT ε (StateM σ) α

/-- How the end of a transaction goes. It may raise although what it was to commit has landed. -/
inductive Ending (ε : Type)
  | committed
  | rolledBack (error : ε)
  | uncertain (error : ε) (landed : Bool)

variable {σ ε α β : Type}

def Ending.lands : Ending ε → Bool
  | .committed => true
  | .rolledBack _ => false
  | .uncertain _ landed => landed

def Stateful.run (program : Stateful σ ε α) (state : σ) : Except ε α × σ :=
  StateT.run (ExceptT.run program) state

def raiseIf (error : Option ε) : Stateful σ ε Unit :=
  match error with
  | none => pure ()
  | some err => throw err

/-- Read off a value that may be an error; the state stays. -/
def consult (read : σ → Except ε α) : Stateful σ ε α := fun state => (read state, state)

/-- Change the state, or raise and leave it. -/
def change (update : σ → Except ε σ) : Stateful σ ε Unit := fun state =>
  match update state with
  | .ok state' => (.ok (), state')
  | .error err => (.error err, state)

/-- Run the program; where it raises, or cannot be committed, the state is as before. -/
def transaction (ending : Ending ε) (program : Stateful σ ε α) : Stateful σ ε α := fun state =>
  match program.run state with
  | (.error err, _) => (.error err, state)
  | (.ok value, state') =>
      match ending with
      | .committed => (.ok value, state')
      | .rolledBack err => (.error err, state)
      | .uncertain err landed => (.error err, if landed then state' else state)

/-- A scope whose entry and exit change nothing, but may raise. -/
def guarded (enter release : Option ε) (program : Stateful σ ε α) : Stateful σ ε α := do
  raiseIf enter
  fun state =>
    match release with
    | none => program.run state
    | some err => (.error err, (program.run state).2)

/-! ## What a run that returns has done -/

section Ok
variable {state state' : σ}

theorem run_pure {value result : α} :
    (pure value : Stateful σ ε α).run state = (.ok result, state') ↔
      value = result ∧ state = state' := by
  constructor
  · intro run
    cases run
    exact ⟨rfl, rfl⟩
  · rintro ⟨rfl, rfl⟩
    rfl

theorem run_bind {program : Stateful σ ε α} {next : α → Stateful σ ε β} {result : β} :
    (program >>= next).run state = (.ok result, state') ↔
      ∃ value between, program.run state = (.ok value, between) ∧
        (next value).run between = (.ok result, state') := by
  have unfold_ : (program >>= next).run state = match program.run state with
      | (.ok value, between) => (next value).run between
      | (.error err, between) => (.error err, between) := by
    simp only [Stateful.run, ExceptT.run_bind, StateT.run_bind]
    rcases ran : StateT.run (ExceptT.run program) state with ⟨_ | _, between⟩
    · rfl
    · rfl
  rw [unfold_]
  rcases program.run state with ⟨err | value, between⟩
  · simp
  · simp

theorem run_raiseIf {error : Option ε} {result : Unit} :
    (raiseIf error : Stateful σ ε Unit).run state = (.ok result, state') ↔
      error = none ∧ state = state' := by
  cases error with
  | none =>
      refine run_pure.trans ?_
      simp
  | some err =>
      refine iff_of_false (fun run => ?_) (by simp)
      cases run

theorem run_throw {err : ε} {result : α} :
    ¬ (throw err : Stateful σ ε α).run state = (.ok result, state') := by
  intro run
  cases run

theorem run_consult {read : σ → Except ε α} {result : α} :
    (consult read).run state = (.ok result, state') ↔ read state = .ok result ∧ state = state' := by
  simp [Stateful.run, consult, ExceptT.run, StateT.run]

theorem run_change {update : σ → Except ε σ} {result : Unit} :
    (change update).run state = (.ok result, state') ↔ update state = .ok state' := by
  simp only [Stateful.run, change, ExceptT.run, StateT.run]
  cases update state with
  | ok _ => simp
  | error _ => simp

end Ok

/-! ## Atomicity -/

/-- What a guarded transaction makes durable, if anything. -/
def landed (enter : Option ε) (ending : Ending ε) (program : Stateful σ ε α) (state : σ) :
    Option α :=
  match enter, program.run state with
  | none, (.ok value, _) => if ending.lands then some value else none
  | _, _ => none

/-- A transaction leaves the state its program returned with, or the one it started from. -/
theorem transaction_atomic (ending : Ending ε) (program : Stateful σ ε α) (state : σ) :
    (∃ value, landed none ending program state = some value ∧
      program.run state = (.ok value, ((transaction ending program).run state).2)) ∨
      landed none ending program state = none ∧
        ((transaction ending program).run state).2 = state ∧
        ∃ err, ((transaction ending program).run state).1 = .error err := by
  simp only [Stateful.run, landed, transaction, ExceptT.run, StateT.run]
  rcases ran : program state with ⟨err | value, state'⟩
  · exact Or.inr ⟨rfl, rfl, err, rfl⟩
  · cases ending with
    | committed => exact Or.inl ⟨value, rfl, rfl⟩
    | rolledBack err => exact Or.inr ⟨rfl, rfl, err, rfl⟩
    | uncertain err landed =>
        cases landed
        · exact Or.inr ⟨rfl, rfl, err, rfl⟩
        · exact Or.inl ⟨value, rfl, rfl⟩

/-- The same with a guard around the transaction: raising on the way out undoes nothing. -/
theorem guarded_transaction_atomic (enter release : Option ε) (ending : Ending ε)
    (program : Stateful σ ε α) (state : σ) :
    (∃ value, landed enter ending program state = some value ∧ program.run state =
      (.ok value, ((guarded enter release (transaction ending program)).run state).2)) ∨
      landed enter ending program state = none ∧
        ((guarded enter release (transaction ending program)).run state).2 = state ∧
        ∃ err, ((guarded enter release (transaction ending program)).run state).1 = .error err := by
  cases enter with
  | some err => exact Or.inr ⟨rfl, rfl, err, rfl⟩
  | none =>
      rcases transaction_atomic ending program state with landed | ⟨nothing, kept, err, raised⟩
      · cases release with
        | none => exact Or.inl landed
        | some err => exact Or.inl landed
      · cases release with
        | none => exact Or.inr ⟨nothing, kept, err, raised⟩
        | some err' => exact Or.inr ⟨nothing, kept, err', rfl⟩

theorem run_transaction {ending : Ending ε} {program : Stateful σ ε α} {state state' : σ}
    {value : α} (run : (transaction ending program).run state = (.ok value, state')) :
    program.run state = (.ok value, state') := by
  simp only [Stateful.run, transaction, ExceptT.run, StateT.run] at run ⊢
  rcases ran : program state with ⟨err | result, between⟩
  · rw [ran] at run
    cases run
  · rw [ran] at run
    cases ending <;> cases run
    rfl

end AgentLibOS.Library.Scope
