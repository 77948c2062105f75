import AgentLibOS.Effects.ProtectedOperation

namespace AgentLibOS.Effects
open Library Library.JoinFold Library.Program Capability

/-! ## What a run has done -/

namespace ProviderTrace

def Spent (trace : ProviderTrace) : Prop := ∃ run ∈ trace.all, run.spent = true

def Touched (trace : ProviderTrace) : Prop := ∃ run ∈ trace.all, run.touched = true

/-- The flags of every phase that may have had an effect. -/
def SpentWithin (runs : List PhaseRun) (flags : EffectFlags) : Prop :=
  ∀ run ∈ runs, run.spent = true → run.phase.flags ≤ flags

@[simp] theorem all_dispatched (trace : ProviderTrace) : trace.dispatched.all = trace.all := by
  simp [dispatched, all]

@[simp] theorem all_invoked (trace : ProviderTrace) (phase : ProviderPhase) :
    (trace.invoked phase).all = trace.all ++ [⟨phase, none⟩] := rfl

@[simp] theorem invoked_ended (trace : ProviderTrace) (phase : ProviderPhase)
    (outcome : PhaseOutcome) :
    (trace.invoked phase).ended outcome = ⟨trace.all, some ⟨phase, some outcome⟩⟩ := rfl

end ProviderTrace

theorem PhaseRun.touched_of_spent {run : PhaseRun} (ended : run.outcome.isSome = true)
    (spent : run.spent = true) : run.touched = true := by
  obtain ⟨phase, _ | _ | _ | _⟩ := run <;>
    simp_all [PhaseRun.touched, PhaseRun.spent, PhaseRun.certified]

/-- A phase that ran without leaving a mark in `completed`: it failed, or it may have had an effect
and was not appended. -/
def PhaseRun.unrecorded (completed : List ProviderPhase) (run : PhaseRun) : Bool :=
  run.touched && !(run.outcome == some .returned && completed.contains run.phase)

/-- What the recorded phases tell of `runs` before the operation decides that nothing has started:
their flags cover what was spent, or none had an effect and every trace is recorded. -/
def Accounted (completed : List ProviderPhase) (runs : List PhaseRun) : Prop :=
  if completed.any (·.effectful) then
    ProviderTrace.SpentWithin runs (phaseFlags (false, false) (completed.filter (·.effectful)))
  else ∀ run ∈ runs, run.unrecorded completed = false

instance (completed : List ProviderPhase) (runs : List PhaseRun) :
    Decidable (Accounted completed runs) := by
  unfold Accounted ProviderTrace.SpentWithin
  infer_instance

theorem Accounted.untouched {completed : List ProviderPhase} {runs : List PhaseRun}
    (accounted : Accounted completed runs) (none_ : completed.any (·.effectful) = false)
    {run : PhaseRun} (member : run ∈ runs) : run.touched = false := by
  unfold Accounted at accounted
  rw [if_neg (by simp [none_])] at accounted
  have recorded := accounted run member
  cases touched : run.touched with
  | false => rfl
  | true =>
      simp only [PhaseRun.unrecorded, touched, Bool.true_and, Bool.not_eq_false', Bool.and_eq_true,
        beq_iff_eq, List.contains_eq_mem, decide_eq_true_eq] at recorded
      obtain ⟨returned, inside⟩ := recorded
      have quiet : run.phase.effectful = false := by
        simpa using List.any_eq_false.mp none_ _ inside
      simp [PhaseRun.touched, quiet, returned] at touched

/-- A certified invocation changes nothing of the account. -/
theorem Accounted.certified {completed : List ProviderPhase} {runs : List PhaseRun}
    {phase : ProviderPhase} {outcome : PhaseOutcome} (accounted : Accounted completed runs)
    (certified : outcome = .certifiedNotStarted) :
    Accounted completed (runs ++ [⟨phase, some outcome⟩]) := by
  subst certified
  unfold Accounted at accounted ⊢
  split_ifs at accounted ⊢ with effectful
  · intro run member spent
    rcases List.mem_append.mp member with before | last
    · exact accounted run before spent
    · rw [List.mem_singleton.mp last] at spent
      simp [PhaseRun.spent, PhaseRun.certified] at spent
  · intro run member
    rcases List.mem_append.mp member with before | last
    · exact accounted run before
    · rw [List.mem_singleton.mp last]
      rfl

/-! ## The two settings -/

/-- An operation on its own, about which nothing is forgotten, or one among others, of which the
store must tell what was spent. -/
inductive Setting
  | alone | shared
  deriving DecidableEq

/-- Others change capability rows and what becomes of the reservations for them. -/
def Rely (setting : Setting) (s t : Local) : Prop :=
  t.toCell = { s.toCell with reservations := t.reservations } ∧ (setting = .alone → t = s)

def Restorable (capabilities : String → Option CapabilityRow) (capId : String) : Prop :=
  ∃ row uses, capabilities capId = some row ∧ row.usesRemaining = some uses ∧
    (row.status = .active ∨ row.status = .revoked)

/-- A reservation of a running operation. -/
def HeldReservation (s : Local) (id : String) : Prop :=
  ∃ reservation, s.reservations id = some reservation ∧ reservation.status ≠ .restored ∧
    (¬ s.trace.Touched → reservation.status = .reserved ∧
      Restorable s.capabilities reservation.capId)

structure Held (s : Local) : Prop where
  reservations : ∀ id ∈ s.operation.reservationIds, HeldReservation s id
  envelope : s.envelope = if s.operation.resourceReserved then some .active else none

/-- What a possibly executed phase leaves behind, and what an abort does otherwise. -/
structure NeverErased (s : Local) : Prop where
  kept : s.trace.Spent → s.row.isSome = true
  unrestored : s.trace.Spent → ∀ id ∈ s.operation.reservationIds, ∀ reservation,
    s.reservations id = some reservation → reservation.status ≠ .restored
  unreleased : s.trace.Spent → s.envelope ≠ some .released
  flags : ∀ row, s.row = some row → row.effectState = .finalized →
    ProviderTrace.SpentWithin s.trace.all row.flags
  restored : s.row = none → ∀ id ∈ s.operation.reservationIds,
    (s.reservations id).map (·.status) = some .restored
  released : s.row = none → s.operation.resourceReserved = true → s.envelope = some .released

/-- What a pending row tells of the phases before its last dispatch. -/
structure RowTells (contract : ProtectedOperationContract) (actor : String) (s : Local)
    (row : EffectRow) : Prop where
  prepared : row.transactionState = .prepared → s.trace.all = []
  earlier : (∃ run ∈ s.trace.earlier, run.spent = true) →
    row.completedPhases.any (·.effectful) = true
  evidence : row.protectedOperation = some ⟨contract.name, actor, s.operation.reservationIds⟩

/-- The pending row of a running operation. -/
structure LiveRow (setting : Setting) (contract : ProtectedOperationContract) (actor : String)
    (s : Local) (row : EffectRow) : Prop where
  stored : s.row = some row
  pending : row.effectState = .pending
  state : row.transactionState = .prepared ∨ row.transactionState = .dispatched
  dispatched : s.operation.dispatched = true → row.transactionState = .dispatched
  held : setting = .alone → Held s
  tells : setting = .shared → RowTells contract actor s row

def Kept (setting : Setting) (contract : ProtectedOperationContract) (actor : String)
    (s : Local) : Prop :=
  match setting with
  | .alone => NeverErased s
  | .shared => ∀ row, s.row = some row → row.effectState = .pending → RowTells contract actor s row

/-- The replies under which an operation keeps what it must. -/
def Careful (setting : Setting) (contract : ProtectedOperationContract) (s : Local) :
    Question → Reply → Prop
  | .dispatch phase, reply =>
      match setting with
      | .alone => reply ≠ .returned ∨ ¬ phase.flags ≤ contract.flags →
          s.operation.completedPhases.any (·.effectful) = true ∨
            Accounted s.operation.completedPhases s.trace.all
      | .shared => reply = .returned ∧ phase.flags ≤ contract.flags → s.trace.Spent →
          ∀ row, s.row = some row → row.completedPhases.any (·.effectful) = true
  | .function _, reply =>
      setting = .alone → reply = .notStarted ∨ reply = .notStartedResult →
        Accounted s.operation.completedPhases s.trace.earlier
  | .completion flags, reply =>
      setting = .alone → reply = .returned →
        ProviderTrace.SpentWithin s.trace.all (phaseFlags flags s.operation.completedPhases)
  | _, _ => True

variable {setting : Setting} {contract : ProtectedOperationContract} {actor : String}

theorem Rely.fields {s t : Local} (relied : Rely setting s t) :
    t.operation = s.operation ∧ t.row = s.row ∧ t.trace = s.trace := by
  rw [show t.operation = t.toCell.operation from rfl, show t.row = t.toCell.row from rfl,
    show t.trace = t.toCell.trace from rfl, relied.1]
  exact ⟨rfl, rfl, rfl⟩

theorem Rely.trans {s t u : Local} (left : Rely setting s t) (right : Rely setting t u) :
    Rely setting s u := by
  refine ⟨?_, fun alone => (right.2 alone).trans (left.2 alone)⟩
  rw [right.1, left.1]

theorem Kept.relied {s t : Local} (relied : Rely setting s t) (kept : Kept setting contract actor s) :
    Kept setting contract actor t := by
  cases setting with
  | alone =>
      rw [relied.2 rfl]
      exact kept
  | shared =>
      obtain ⟨operation, row, trace⟩ := relied.fields
      intro row' stored pending
      have tells := kept row' (row ▸ stored) pending
      exact ⟨by rw [trace]; exact tells.prepared, by rw [trace]; exact tells.earlier,
        by rw [operation]; exact tells.evidence⟩

def discipline (setting : Setting) (contract : ProtectedOperationContract) (actor : String) :
    Discipline Local Question Reply where
  rely := Rely setting
  inv := Kept setting contract actor
  allowed := Careful setting contract
  refl := fun _ => ⟨rfl, fun _ => rfl⟩
  trans := Rely.trans
  kept := Kept.relied

theorem Careful.relied {s t : Local} (relied : Rely setting s t) {question : Question}
    {reply : Reply} (careful : Careful setting contract s question reply) :
    Careful setting contract t question reply := by
  cases setting with
  | alone =>
      rw [relied.2 rfl]
      exact careful
  | shared =>
      obtain ⟨-, row, trace⟩ := relied.fields
      cases question with
      | dispatch phase =>
          simp only [Careful] at careful ⊢
          rw [trace, row]
          exact careful
      | function phase => exact nofun
      | completion flags => exact nofun
      | _ => trivial

/-! ## Assertions -/

/-- What holds of an operation whether it runs or not, when no provider function does. -/
structure Ended (setting : Setting) (contract : ProtectedOperationContract) (actor : String)
    (s : Local) : Prop where
  undispatched : s.operation.dispatched = false → s.trace.all = []
  ended : ∀ run ∈ s.trace.all, run.outcome.isSome = true
  within : ∀ run ∈ s.trace.all, run.phase.flags ≤ contract.flags
  recorded : ∀ phase ∈ s.operation.completedPhases,
    ∃ run ∈ s.trace.all, run.phase = phase ∧ run.outcome = some .returned
  kept : Kept setting contract actor s

/-- What holds of an operation between the calls. -/
structure Ready (setting : Setting) (contract : ProtectedOperationContract) (actor : String)
    (s : Local) : Prop extends Ended setting contract actor s where
  live : s.operation.terminal = false → ∃ row, LiveRow setting contract actor s row

/-- An operation that may go on, and what is known of its trace and of its completed phases. -/
structure Active (setting : Setting) (contract : ProtectedOperationContract) (actor : String)
    (knows : ProviderTrace → List ProviderPhase → Prop) (s : Local) : Prop
    extends Ready setting contract actor s where
  active : s.operation.terminal = false
  known : knows s.trace s.operation.completedPhases

/-- An active operation in the middle of a call. -/
structure Running (setting : Setting) (contract : ProtectedOperationContract) (actor : String)
    (knows : ProviderTrace → List ProviderPhase → Prop) (s : Local) : Prop
    extends Active setting contract actor knows s where
  dispatched : s.operation.dispatched = true

/-- An operation that is being closed, with its row in place; in the end it is terminal. -/
structure Closed (setting : Setting) (contract : ProtectedOperationContract) (actor : String)
    (final : Prop) (s : Local) : Prop extends Ended setting contract actor s where
  row : s.row.isSome = true
  terminal : final → s.operation.terminal = true

variable {knows : ProviderTrace → List ProviderPhase → Prop} {s t : Local}

theorem LiveRow.kept {row : EffectRow} (live : LiveRow setting contract actor s row) :
    Kept setting contract actor s := by
  cases setting with
  | alone =>
      obtain ⟨reservations, envelope⟩ := live.held rfl
      refine ⟨fun _ => by rw [live.stored]; rfl, ?_, ?_, ?_, ?_, ?_⟩
      · intro _ id member reservation stored
        obtain ⟨reservation', stored', unrestored, -⟩ := reservations id member
        obtain rfl := Option.some.inj (stored.symm.trans stored')
        exact unrestored
      · intro _
        rw [envelope]
        split_ifs <;> simp
      · intro row' stored finalized
        obtain rfl := Option.some.inj (stored.symm.trans live.stored)
        rw [live.pending] at finalized
        cases finalized
      · simp [live.stored]
      · simp [live.stored]
  | shared =>
      intro row' stored _
      obtain rfl := Option.some.inj (stored.symm.trans live.stored)
      exact live.tells rfl

theorem RowTells.relied {row : EffectRow} (relied : Rely setting s t)
    (tells : RowTells contract actor s row) : RowTells contract actor t row := by
  obtain ⟨operation, -, trace⟩ := relied.fields
  exact ⟨by rw [trace]; exact tells.prepared, by rw [trace]; exact tells.earlier,
    by rw [operation]; exact tells.evidence⟩

theorem LiveRow.relied {row : EffectRow} (relied : Rely setting s t)
    (live : LiveRow setting contract actor s row) : LiveRow setting contract actor t row := by
  obtain ⟨operation, row_, trace⟩ := relied.fields
  exact ⟨row_.trans live.stored, live.pending, live.state, by rw [operation]; exact live.dispatched,
    fun alone => by rw [relied.2 alone]; exact live.held alone,
    fun shared => (live.tells shared).relied relied⟩

theorem Ended.relied (relied : Rely setting s t) (holds : Ended setting contract actor s) :
    Ended setting contract actor t := by
  obtain ⟨operation, -, trace⟩ := relied.fields
  refine ⟨?_, ?_, ?_, ?_, holds.kept.relied relied⟩ <;> rw [trace] <;> try rw [operation]
  · exact holds.undispatched
  · exact holds.ended
  · exact holds.within
  · exact holds.recorded

theorem Ready.relied (relied : Rely setting s t) (ready : Ready setting contract actor s) :
    Ready setting contract actor t := by
  refine ⟨ready.toEnded.relied relied, fun active => ?_⟩
  rw [relied.fields.1] at active
  exact (ready.live active).imp fun _ live => live.relied relied

theorem Active.relied (relied : Rely setting s t) (active : Active setting contract actor knows s) :
    Active setting contract actor knows t := by
  obtain ⟨operation, -, trace⟩ := relied.fields
  exact ⟨active.toReady.relied relied, by rw [operation]; exact active.active,
    by rw [operation, trace]; exact active.known⟩

theorem Running.relied (relied : Rely setting s t)
    (running : Running setting contract actor knows s) : Running setting contract actor knows t :=
  ⟨running.toActive.relied relied, by rw [relied.fields.1]; exact running.dispatched⟩

theorem Closed.relied {final : Prop} (relied : Rely setting s t)
    (closed : Closed setting contract actor final s) : Closed setting contract actor final t :=
  ⟨closed.toEnded.relied relied, by rw [relied.fields.2.1]; exact closed.row,
    by rw [relied.fields.1]; exact closed.terminal⟩

theorem Closed.ready (closed : Closed setting contract actor True s) :
    Ready setting contract actor s :=
  ⟨closed.toEnded, fun active => by rw [closed.terminal trivial] at active; cases active⟩

theorem Running.closed (running : Running setting contract actor knows s) :
    Closed setting contract actor False s := by
  obtain ⟨row, live⟩ := running.live running.active
  exact ⟨running.toEnded, by rw [live.stored]; rfl, nofun⟩

/-- An assertion and what the operation object and the row are. -/
theorem stable_with {assertion : Local → Prop} {E : Operation → Option EffectRow → Prop}
    (stable : Stable (discipline setting contract actor) assertion) :
    Stable (discipline setting contract actor)
      fun s => assertion s ∧ E s.operation s.row := by
  intro s t relied holds
  obtain ⟨operation, row, -⟩ := Rely.fields relied
  exact ⟨stable s t relied holds.1, by rw [operation, row]; exact holds.2⟩

theorem Running.knowing {knows' : ProviderTrace → List ProviderPhase → Prop}
    (running : Running setting contract actor knows s)
    (known : knows' s.trace s.operation.completedPhases) :
    Running setting contract actor knows' s :=
  ⟨⟨running.toReady, running.active, known⟩, running.dispatched⟩

end AgentLibOS.Effects
