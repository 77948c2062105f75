import AgentLibOS.Processes.Transitions

namespace AgentLibOS.Processes
open Library.Text Library.Run

variable {δ : Type}

/-! ## What a write changes -/

/-- The lease of a row stays, ends, or gives way to a newer execution. -/
def LeaseAdvances (row row' : AgentProcess δ) : Prop :=
  row.executionGeneration < row'.executionGeneration ∨
    row'.executionGeneration = row.executionGeneration ∧
      ((row'.executionOwnerId = row.executionOwnerId ∧
          row'.executionLeaseId = row.executionLeaseId ∧
          (row.status = .running → row'.status = .running)) ∨
        row'.executionOwnerId = none ∧ row'.executionLeaseId = none)

structure Advances (row row' : AgentProcess δ) : Prop where
  revision : row.revision ≤ row'.revision
  semantic : row.stateGeneration < row'.stateGeneration ∨
    row'.stateGeneration = row.stateGeneration ∧ row'.semantic = row.semantic
  lease : LeaseAdvances row row'

theorem LeaseAdvances.trans {first second third : AgentProcess δ}
    (before : LeaseAdvances first second) (after : LeaseAdvances second third) :
    LeaseAdvances first third := by
  rcases before with newer | ⟨same, lease⟩
  · left
    rcases after with later | ⟨equal, _⟩ <;> omega
  · rcases after with later | ⟨equal, lease'⟩
    · left
      omega
    · refine Or.inr ⟨equal.trans same, ?_⟩
      rcases lease' with ⟨owner', leaseId', running'⟩ | ended
      · rcases lease with ⟨owner, leaseId, running⟩ | ⟨owner, leaseId⟩
        · exact Or.inl ⟨owner'.trans owner, leaseId'.trans leaseId, running' ∘ running⟩
        · exact Or.inr ⟨owner'.trans owner, leaseId'.trans leaseId⟩
      · exact Or.inr ended

namespace Advances

theorem refl (row : AgentProcess δ) : Advances row row where
  revision := le_rfl
  semantic := Or.inr ⟨rfl, rfl⟩
  lease := Or.inr ⟨rfl, Or.inl ⟨rfl, rfl, id⟩⟩

theorem trans {first second third : AgentProcess δ} (before : Advances first second)
    (after : Advances second third) : Advances first third where
  revision := before.revision.trans after.revision
  semantic := by
    rcases before.semantic with newer | ⟨same, semantic⟩
    · left
      rcases after.semantic with later | ⟨equal, _⟩ <;> omega
    · rcases after.semantic with later | ⟨equal, semantic'⟩
      · left
        omega
      · exact Or.inr ⟨equal.trans same, semantic'.trans semantic⟩
  lease := before.lease.trans after.lease

theorem stateGeneration_le {row row' : AgentProcess δ} (advances : Advances row row') :
    row.stateGeneration ≤ row'.stateGeneration := by
  rcases advances.semantic with newer | ⟨same, _⟩ <;> omega

theorem semantic_eq {row row' : AgentProcess δ} (advances : Advances row row')
    (same : row'.stateGeneration = row.stateGeneration) : row'.semantic = row.semantic :=
  (advances.semantic.resolve_left (by omega)).2

/-- A write that ends the lease of the row or moves to a newer execution. -/
theorem of_unleased {row row' : AgentProcess δ} (revision : row.revision ≤ row'.revision)
    (newer : row.stateGeneration < row'.stateGeneration)
    (execution : row.executionGeneration < row'.executionGeneration ∨
      row'.executionGeneration = row.executionGeneration ∧
        row'.executionOwnerId = none ∧ row'.executionLeaseId = none) : Advances row row' where
  revision := revision
  semantic := Or.inl newer
  lease := execution.imp_right fun ⟨same, ended⟩ => ⟨same, Or.inr ended⟩

end Advances

theorem AgentProcess.valid_of_semantic {row row' : AgentProcess δ}
    (same : row'.semantic = row.semantic) (valid : row.Valid) : row'.Valid := by
  simp only [AgentProcess.semantic, Prod.mk.injEq] at same
  unfold AgentProcess.Valid at valid ⊢
  rw [same.1, same.2.1, same.2.2]
  exact valid

theorem AgentProcess.Valid.waitState_none {row : AgentProcess δ} (valid : row.Valid)
    (status : row.status = .runnable ∨ row.status = .running) : row.waitState = none := by
  unfold Valid validateProcessState at valid
  rw [Bool.and_eq_true] at valid
  rcases status with status | status
  all_goals
    rw [status] at valid
    exact Option.isNone_iff_eq_none.mp valid.1

namespace ProcessStore

@[simp] theorem record_rows (store : ProcessStore δ) (row : AgentProcess δ) :
    (store.record row).rows = Function.update store.rows row.pid (some row) := rfl

@[simp] theorem record_publications (store : ProcessStore δ) (row : AgentProcess δ) :
    (store.record row).publications = store.publications := rfl

/-- Every row is stored under its own pid, stored and published rows are valid, and no published
row waits. -/
structure Sound (store : ProcessStore δ) : Prop where
  keyed : ∀ {pid row}, store.rows pid = some row → row.pid = pid
  valid : ∀ {pid row}, store.rows pid = some row → row.Valid
  published : ∀ publication ∈ store.publications,
    publication.before.Valid ∧ publication.before.waitState = none

theorem empty_sound : (empty : ProcessStore δ).Sound where
  keyed stored := by cases stored
  valid stored := by cases stored
  published _ member := by cases member

/-- One row is written; `target` is the process whose state the write sets. -/
structure Write (store store' : ProcessStore δ) (target : Option String)
    (row' : AgentProcess δ) : Prop where
  rows : store'.rows = Function.update store.rows row'.pid (some row')
  advances : ∀ row, store.rows row'.pid = some row → Advances row row'
  sets : ∀ pid ∈ target, row'.pid = pid ∧
    ∀ row, store.rows pid = some row → row.stateGeneration < row'.stateGeneration
  valid : row'.Valid
  published : ∀ publication ∈ store'.publications,
    publication.before.Valid ∧ publication.before.waitState = none

theorem Write.record {store store' : ProcessStore δ} {pid : String} {row row' : AgentProcess δ}
    {target : Option String} (sound : store.Sound) (stored : store.rows pid = some row)
    (same : row'.pid = row.pid) (advances : Advances row row') (valid : row'.Valid)
    (sets : ∀ other ∈ target, other = pid ∧ row.stateGeneration < row'.stateGeneration)
    (rows : store'.rows = Function.update store.rows row'.pid (some row'))
    (publications : store'.publications = store.publications) :
    Write store store' target row' where
  rows := rows
  advances other found := by
    rw [same, sound.keyed stored, stored] at found
    cases found
    exact advances
  sets other member := by
    obtain ⟨rfl, newer⟩ := sets other member
    refine ⟨same.trans (sound.keyed stored), ?_⟩
    intro other found
    rw [stored] at found
    cases found
    exact newer
  valid := valid
  published publication member := by
    rw [publications] at member
    exact sound.published publication member

theorem Write.sound {store store' : ProcessStore δ} {target : Option String}
    {row' : AgentProcess δ} (write : Write store store' target row') (sound : store.Sound) :
    store'.Sound where
  keyed {pid row} stored := by
    rw [write.rows, Function.update_apply] at stored
    split_ifs at stored with same
    · cases stored
      exact same.symm
    · exact sound.keyed stored
  valid {pid row} stored := by
    rw [write.rows, Function.update_apply] at stored
    split_ifs at stored with same
    · cases stored
      exact write.valid
    · exact sound.valid stored
  published := write.published

/-- No row goes away, and each one advances. -/
def RowsAdvance (store store' : ProcessStore δ) : Prop :=
  ∀ pid row, store.rows pid = some row → ∃ row', store'.rows pid = some row' ∧ Advances row row'

theorem RowsAdvance.of_rows {store store' : ProcessStore δ} (same : store'.rows = store.rows) :
    RowsAdvance store store' := by
  intro pid row stored
  exact ⟨row, by rw [same, stored], Advances.refl row⟩

theorem RowsAdvance.trans {first second third : ProcessStore δ}
    (before : RowsAdvance first second) (after : RowsAdvance second third) :
    RowsAdvance first third := by
  intro pid row stored
  obtain ⟨row', stored', advances⟩ := before pid row stored
  obtain ⟨row'', stored'', advances'⟩ := after pid row' stored'
  exact ⟨row'', stored'', advances.trans advances'⟩

theorem Write.rowsAdvance {store store' : ProcessStore δ} {target : Option String}
    {row' : AgentProcess δ} (write : Write store store' target row') :
    RowsAdvance store store' := by
  intro pid row stored
  rw [write.rows]
  by_cases same : pid = row'.pid
  · subst same
    exact ⟨row', Function.update_self .., write.advances row stored⟩
  · exact ⟨row, by rw [Function.update_of_ne same, stored], Advances.refl row⟩

/-! ## Updates -/

theorem validateProcessStateWrite_new {process : AgentProcess δ} {allow : Bool} {result : Unit}
    (done : validateProcessStateWrite process none allow = .ok result) : process.Valid := by
  simp only [validateProcessStateWrite, bind_eq_ok, require_ok] at done
  obtain ⟨_, valid, _⟩ := done
  exact valid

theorem validateProcessStateWrite_stored {process current : AgentProcess δ} {allow : Bool}
    {result : Unit}
    (done : validateProcessStateWrite process (some current) allow = .ok result) :
    process.Valid ∧
      (allow = true → process.stateGeneration = current.stateGeneration + 1) ∧
      (allow = false → process.semantic = current.semantic ∧
        process.stateGeneration = current.stateGeneration) := by
  simp only [validateProcessStateWrite, bind_eq_ok, require_ok] at done
  obtain ⟨_, valid, _, _, _, kept, bumped⟩ := done
  refine ⟨valid, ?_, ?_⟩
  · intro allowed
    exact bumped.resolve_left (by simp [allowed])
  · intro denied
    exact kept.resolve_left (by simp [denied])

section
variable [DecidableEq δ]

/-- What the fence has established when it lets an update through. -/
structure Fence (ambient : Ambient δ) (admitted : Bool) (current process : AgentProcess δ) :
    Prop where
  revision : current.revision = process.revision
  terminal : current.status.terminal = true →
    assertTerminalMutationAllowed ambient process current process.revision = .ok () ∧
      process.status = current.status
  target : assertExecutionTargetAllowed ambient process.pid current.status = .ok ()
  admission : assertProcessExecAdmissionUpdateOwner ambient admitted current process = .ok ()
  postExec : ∀ mutation ∈ ambient.postExec,
    assertPostExecCompletionAllowed ambient mutation process current process.revision = .ok ()
  worker : ambient.postExec = none → assertWorkerFence ambient process current = .ok ()

theorem processUpdateFence_ok {ambient : Ambient δ} {admitted : Bool}
    {current process : AgentProcess δ} {execution : Nat × Option String × Option String}
    (done : processUpdateFence ambient admitted current process = .ok execution) :
    Fence ambient admitted current process ∧ execution = fencedExecution current process := by
  simp only [processUpdateFence, bind_eq_ok, require_ok] at done
  obtain ⟨_, revision, _, terminal, _, target, _, admission, _, fence, result⟩ := done
  refine ⟨⟨revision, ?_, target, admission, ?_, ?_⟩, (Except.ok.inj result).symm⟩
  · intro ended
    simp only [assertTerminalUpdate, ended, if_true, bind_eq_ok, require_ok] at terminal
    obtain ⟨_, allowed, same⟩ := terminal
    exact ⟨allowed, same⟩
  · intro mutation given
    simp only [assertExecutionFence, Option.mem_def.mp given] at fence
    exact fence
  · intro absent
    simp only [assertExecutionFence, absent] at fence
    exact fence

/-- The row that an update writes. -/
def updatedRow (current process : AgentProcess δ) : AgentProcess δ :=
  { process with
    revision := process.revision + 1
    executionGeneration := (fencedExecution current process).1
    executionOwnerId := (fencedExecution current process).2.1
    executionLeaseId := (fencedExecution current process).2.2
    taskRunId := current.taskRunId
    taskRunEpoch := current.taskRunEpoch }

omit [DecidableEq δ] in
theorem fencedExecution_advances {current process row' : AgentProcess δ}
    (written : row' = updatedRow current process) : LeaseAdvances current row' := by
  subst written
  unfold LeaseAdvances updatedRow fencedExecution
  split_ifs with ended
  · exact Or.inl (Nat.lt_succ_self _)
  · refine Or.inr ⟨rfl, Or.inl ⟨rfl, rfl, ?_⟩⟩
    intro running
    simp only [running, Bool.or_eq_true, Bool.and_eq_true, not_or] at ended
    simpa using ended.2

theorem updateProcess_ok {store store' : ProcessStore δ} {ambient : Ambient δ}
    {process : AgentProcess δ} {allow : Bool}
    (done : store.updateProcess ambient process allow = .ok store') :
    ∃ current, store.rows process.pid = some current ∧
      Fence ambient (store.admitted current) current process ∧
      validateProcessStateWrite process (some current) allow = .ok () ∧
      store' = store.record (updatedRow current process) := by
  unfold updateProcess at done
  cases stored : store.rows process.pid with
  | none =>
      rw [stored] at done
      cases done
  | some current =>
      rw [stored] at done
      simp only [bind_eq_ok] at done
      obtain ⟨⟨generation, ownerId, leaseId⟩, fence, _, written, result⟩ := done
      obtain ⟨fence, execution⟩ := processUpdateFence_ok fence
      refine ⟨current, rfl, fence, written, ?_⟩
      rw [updatedRow, ← execution]
      exact (Except.ok.inj result).symm

theorem updateProcess_write {store store' : ProcessStore δ} {ambient : Ambient δ}
    {process : AgentProcess δ} {allow : Bool} (sound : store.Sound)
    (done : store.updateProcess ambient process allow = .ok store') :
    ∃ row', Write store store' (if allow then some process.pid else none) row' := by
  obtain ⟨current, stored, fence, written, rfl⟩ := updateProcess_ok done
  obtain ⟨valid, bumped, kept⟩ := validateProcessStateWrite_stored written
  have revision : current.revision ≤ (updatedRow current process).revision :=
    (le_of_eq fence.revision).trans (Nat.le_succ _)
  have lease : LeaseAdvances current (updatedRow current process) := fencedExecution_advances rfl
  refine ⟨updatedRow current process, ?_⟩
  cases allow with
  | true =>
      have newer : current.stateGeneration < process.stateGeneration :=
        Nat.lt_of_lt_of_eq (Nat.lt_succ_self _) (bumped rfl).symm
      refine Write.record sound stored (sound.keyed stored).symm ⟨revision, Or.inl newer, lease⟩
        valid ?_ rfl rfl
      intro other member
      exact ⟨(Option.mem_some_iff.mp member).symm, newer⟩
  | false =>
      have same := kept rfl
      refine Write.record sound stored (sound.keyed stored).symm
        ⟨revision, Or.inr ⟨same.2, same.1⟩, lease⟩ valid ?_ rfl rfl
      intro other member
      cases member

theorem patchProcess_ok {store store' : ProcessStore δ} {ambient : Ambient δ} {pid : String}
    {patch : AgentProcess δ → AgentProcess δ} {expectedRevision : Nat}
    {expectedStatus : Option ProcessStatus} {allow : Bool}
    (done : store.patchProcess ambient pid patch expectedRevision expectedStatus allow =
      .ok store') :
    ∃ current, store.rows pid = some current ∧ current.revision = expectedRevision ∧
      (∀ status ∈ expectedStatus, current.status = status) ∧
      store.updateProcess ambient (patch current) allow = .ok store' := by
  unfold patchProcess at done
  cases stored : store.rows pid with
  | none =>
      rw [stored] at done
      cases done
  | some current =>
      rw [stored] at done
      simp only [bind_eq_ok, require_ok] at done
      obtain ⟨_, revision, _, status, done⟩ := done
      exact ⟨current, rfl, revision, status, done⟩

theorem applyProcessStateTransition_ok {store store' : ProcessStore δ} {ambient : Ambient δ}
    {pid : String} {requested : Transition} {expectedRevision : Nat}
    {expectedStatus : Option ProcessStatus} {expectedStateGeneration : Option Nat}
    {allowedStatuses : Option (List ProcessStatus)}
    (done : store.applyProcessStateTransition ambient pid requested expectedRevision
      expectedStatus expectedStateGeneration allowedStatuses = .ok store') :
    ∃ current control, store.rows pid = some current ∧ current.revision = expectedRevision ∧
      (∀ generation ∈ expectedStateGeneration, current.stateGeneration = generation) ∧
      store.updateProcess { ambient with control := control } (requested.patch current) true =
        .ok store' := by
  simp only [applyProcessStateTransition, bind_eq_ok, require_ok] at done
  obtain ⟨_, _, _, _, done⟩ := done
  cases stored : store.rows pid with
  | none =>
      rw [stored] at done
      cases done
  | some row =>
      rw [stored] at done
      simp only [bind_eq_ok, require_ok] at done
      obtain ⟨_, generation, done⟩ := done
      cases allowedStatuses with
      | none =>
          obtain ⟨current, same, revision, _, updated⟩ := patchProcess_ok done
          rw [stored] at same
          cases same
          exact ⟨row, ambient.control, rfl, revision, generation, updated⟩
      | some allowed =>
          simp only [bind_eq_ok, require_ok] at done
          obtain ⟨_, _, _, _, done⟩ := done
          obtain ⟨current, same, revision, _, updated⟩ := patchProcess_ok done
          rw [stored] at same
          cases same
          exact ⟨row, some ⟨pid, allowed⟩, rfl, revision, generation, updated⟩

theorem transition_ok {store store' : ProcessStore δ} {ambient : Ambient δ} {pid : String}
    {requested : Transition} {expectedRevision : Nat} {expectedStatus : Option ProcessStatus}
    {expectedStateGeneration : Option Nat} {allowedStatuses : Option (List ProcessStatus)}
    {read : Option (AgentProcess δ)}
    (done : Processes.transition store ambient pid requested expectedRevision expectedStatus
      expectedStateGeneration allowedStatuses read = .ok store') :
    store.applyProcessStateTransition ambient pid requested expectedRevision expectedStatus
      expectedStateGeneration allowedStatuses = .ok store' := by
  simp only [Processes.transition, bind_eq_ok] at done
  obtain ⟨_, _, _, _, done⟩ := done
  split at done
  · simp only [bind_eq_ok] at done
    obtain ⟨_, _, _, _, _, _, _, _, done⟩ := done
    exact done
  · simp only [bind_eq_ok] at done
    obtain ⟨_, _, _, _, done⟩ := done
    exact done

theorem wake_ok {store store' : ProcessStore δ} {ambient : Ambient δ} {token : ProcessStateToken}
    {control : Bool} {read : Option (AgentProcess δ)}
    (done : Processes.wake store ambient token control read = .ok store') :
    ∃ current, read = some current ∧ current.stateGeneration = token.stateGeneration ∧
      store.applyProcessStateTransition ambient token.pid ⟨.runnable, none, none⟩
        current.revision (some current.status) (some token.stateGeneration)
        (if control then some [current.status] else none) = .ok store' := by
  simp only [Processes.wake, bind_eq_ok, require_ok] at done
  obtain ⟨_, _, done⟩ := done
  cases read with
  | none => cases done
  | some current =>
      simp only [bind_eq_ok, require_ok] at done
      obtain ⟨_, ⟨generation, _⟩, _, _, done⟩ := done
      exact ⟨current, rfl, generation, transition_ok done⟩

theorem applyProcessStateTransition_write {store store' : ProcessStore δ} {ambient : Ambient δ}
    {pid : String} {requested : Transition} {expectedRevision : Nat}
    {expectedStatus : Option ProcessStatus} {expectedStateGeneration : Option Nat}
    {allowedStatuses : Option (List ProcessStatus)} (sound : store.Sound)
    (done : store.applyProcessStateTransition ambient pid requested expectedRevision
      expectedStatus expectedStateGeneration allowedStatuses = .ok store') :
    ∃ row', Write store store' (some pid) row' := by
  obtain ⟨current, control, stored, _, _, updated⟩ := applyProcessStateTransition_ok done
  have write := updateProcess_write sound updated
  rw [Transition.patch_pid, sound.keyed stored] at write
  exact write

/-- Neither kind of transition leaves a terminal status. -/
theorem applyProcessStateTransition_terminal {store store' : ProcessStore δ}
    {ambient : Ambient δ} {target : String} {requested : Transition} {expectedRevision : Nat}
    {expectedStatus : Option ProcessStatus} {expectedStateGeneration : Option Nat}
    {allowedStatuses : Option (List ProcessStatus)} (sound : store.Sound)
    (done : store.applyProcessStateTransition ambient target requested expectedRevision
      expectedStatus expectedStateGeneration allowedStatuses = .ok store') {pid : String}
    {row : AgentProcess δ} (stored : store.rows pid = some row)
    (ended : row.status.terminal = true) :
    ∃ row', store'.rows pid = some row' ∧ row'.status = row.status := by
  obtain ⟨current, control, found, _, _, updated⟩ := applyProcessStateTransition_ok done
  obtain ⟨again, found', fence, _, rfl⟩ := updateProcess_ok updated
  rw [Transition.patch_pid, sound.keyed found, found] at found'
  cases found'
  have same : (updatedRow current (requested.patch current)).pid = target := by
    change current.pid = target
    exact sound.keyed found
  rw [record_rows, same]
  by_cases here : pid = target
  · subst here
    rw [stored] at found
    cases found
    exact ⟨_, Function.update_self .., (fence.terminal ended).2⟩
  · exact ⟨row, by rw [Function.update_of_ne here, stored], rfl⟩

theorem patchProcess_write {store store' : ProcessStore δ} {ambient : Ambient δ} {pid : String}
    {patch : AgentProcess δ → AgentProcess δ} {expectedRevision : Nat}
    {expectedStatus : Option ProcessStatus} (sound : store.Sound)
    (done : store.patchProcess ambient pid patch expectedRevision expectedStatus false =
      .ok store') : ∃ row', Write store store' none row' := by
  obtain ⟨current, _, _, _, updated⟩ := patchProcess_ok done
  exact updateProcess_write sound updated

end

/-! ## Claims and completions -/

theorem claimed_advances (row : AgentProcess δ) (ownerId leaseId : String) :
    Advances row (claimed row ownerId leaseId) :=
  Advances.of_unleased (Nat.le_succ _) (Nat.lt_succ_self _) (Or.inl (Nat.lt_succ_self _))

theorem claimed_write {store : ProcessStore δ} {pid : String} {row : AgentProcess δ}
    (ownerId leaseId : String) (sound : store.Sound) (stored : store.rows pid = some row) :
    Write store (store.record (claimed row ownerId leaseId)) (some pid)
      (claimed row ownerId leaseId) := by
  refine Write.record sound stored rfl (claimed_advances row ownerId leaseId) rfl ?_ rfl rfl
  intro other member
  exact ⟨(Option.mem_some_iff.mp member).symm, Nat.lt_succ_self _⟩

theorem claimExecution_ok {store store' : ProcessStore δ} {pid ownerId leaseId : String}
    {taskRunEpoch : Option Nat} {runAdmits : Bool}
    (done : store.claimExecution pid ownerId leaseId taskRunEpoch runAdmits = .ok store') :
    ∃ row, store.rows pid = some row ∧ row.status = .runnable ∧
      store' = store.record (claimed row ownerId leaseId) := by
  simp only [claimExecution, bind_eq_ok, require_ok] at done
  obtain ⟨_, _, done⟩ := done
  cases stored : store.rows pid with
  | none =>
      rw [stored] at done
      cases done
  | some row =>
      rw [stored] at done
      simp only [bind_eq_ok, require_ok] at done
      obtain ⟨_, ⟨status, _⟩, done⟩ := done
      exact ⟨row, rfl, status, (Except.ok.inj done).symm⟩

theorem claimHostProcessExec_ok {store store' : ProcessStore δ} {pid ownerId leaseId : String}
    {expectedRevision expectedStateGeneration expectedExecutionGeneration : Nat}
    {taskRunEpoch : Option Nat} {runAdmits : Bool}
    (done : store.claimHostProcessExec pid ownerId leaseId expectedRevision
      expectedStateGeneration expectedExecutionGeneration taskRunEpoch runAdmits = .ok store') :
    ∃ row, store.rows pid = some row ∧ row.status = .runnable ∧
      store' = store.record (claimed row ownerId leaseId) := by
  simp only [claimHostProcessExec, bind_eq_ok, require_ok] at done
  obtain ⟨_, _, done⟩ := done
  cases stored : store.rows pid with
  | none =>
      rw [stored] at done
      cases done
  | some row =>
      rw [stored] at done
      simp only [bind_eq_ok, require_ok] at done
      obtain ⟨_, ⟨status, _⟩, done⟩ := done
      exact ⟨row, rfl, status, (Except.ok.inj done).symm⟩

theorem claimWorkerProcessExec_ok {store store' : ProcessStore δ} {pid : String}
    {token : ProcessExecutionToken} {ownerId leaseId : String}
    {expectedRevision expectedStateGeneration : Nat} {taskRunEpoch : Option Nat}
    {runAdmits : Bool}
    (done : store.claimWorkerProcessExec pid token ownerId leaseId expectedRevision
      expectedStateGeneration taskRunEpoch runAdmits = .ok store') :
    ∃ row, store.rows pid = some row ∧ token.pid = pid ∧ row.status = .running ∧
      holdsLease row token ∧ store' = store.record (claimed row ownerId leaseId) := by
  simp only [claimWorkerProcessExec, bind_eq_ok, require_ok] at done
  obtain ⟨_, ⟨_, owned, _⟩, done⟩ := done
  cases stored : store.rows pid with
  | none =>
      rw [stored] at done
      cases done
  | some row =>
      rw [stored] at done
      simp only [bind_eq_ok, require_ok] at done
      obtain ⟨_, ⟨status, _, _, lease, _⟩, done⟩ := done
      exact ⟨row, rfl, owned, status, lease, (Except.ok.inj done).symm⟩

/-- The row that a completion writes. -/
def completedRow (row : AgentProcess δ) (requested : Transition) : AgentProcess δ :=
  { requested.patch row with
    revision := row.revision + 1
    executionGeneration := row.executionGeneration + (if requested.status.terminal then 1 else 0)
    executionOwnerId := none
    executionLeaseId := none }

theorem completeExecution_ok {store store' : ProcessStore δ} {token : ProcessExecutionToken}
    {requested : Transition} (done : store.completeExecution token requested = .ok store') :
    ∃ row, store.rows token.pid = some row ∧ row.status = .running ∧ holdsLease row token ∧
      row.taskRunEpoch = token.taskRunEpoch ∧
      validateProcessState requested.status requested.waitState requested.outcome = true ∧
      store' = store.record (completedRow row requested) := by
  simp only [completeExecution, bind_eq_ok, require_ok] at done
  obtain ⟨_, valid, _, _, done⟩ := done
  cases stored : store.rows token.pid with
  | none =>
      rw [stored] at done
      cases done
  | some row =>
      rw [stored] at done
      simp only [bind_eq_ok, require_ok] at done
      obtain ⟨_, ⟨status, lease, epoch⟩, done⟩ := done
      exact ⟨row, rfl, status, lease, epoch, valid, (Except.ok.inj done).symm⟩

theorem completeExecution_write {store store' : ProcessStore δ} {token : ProcessExecutionToken}
    {requested : Transition} (sound : store.Sound)
    (done : store.completeExecution token requested = .ok store') :
    ∃ row', Write store store' (some token.pid) row' := by
  obtain ⟨row, stored, _, _, _, valid, rfl⟩ := completeExecution_ok done
  refine ⟨completedRow row requested, Write.record sound stored rfl ?_ valid ?_ rfl rfl⟩
  · apply Advances.of_unleased (Nat.le_succ _) (Nat.lt_succ_self _)
    unfold completedRow
    split_ifs
    · exact Or.inl (Nat.lt_succ_self _)
    · exact Or.inr ⟨rfl, rfl, rfl⟩
  · intro other member
    exact ⟨(Option.mem_some_iff.mp member).symm, Nat.lt_succ_self _⟩

/-- The row that a release writes. -/
def releasedRow (row : AgentProcess δ) : AgentProcess δ :=
  { row with
    revision := row.revision + 1
    executionGeneration := row.executionGeneration + 1
    executionOwnerId := none
    executionLeaseId := none }

theorem releaseExecution_ok {store store' : ProcessStore δ} {token : ProcessExecutionToken}
    (done : store.releaseExecution token = .ok store') :
    ∃ row, store.rows token.pid = some row ∧ holdsLease row token ∧
      row.taskRunEpoch = token.taskRunEpoch ∧
      store'.rows = Function.update store.rows row.pid (some (releasedRow row)) ∧
      store'.publications = store.publications := by
  unfold releaseExecution at done
  cases stored : store.rows token.pid with
  | none =>
      rw [stored] at done
      cases done
  | some row =>
      rw [stored] at done
      simp only [bind_eq_ok, require_ok] at done
      obtain ⟨_, ⟨lease, epoch⟩, done⟩ := done
      cases done
      exact ⟨row, rfl, lease, epoch, rfl, rfl⟩

theorem releaseExecution_write {store store' : ProcessStore δ} {token : ProcessExecutionToken}
    (sound : store.Sound) (done : store.releaseExecution token = .ok store') :
    ∃ row', Write store store' none row' := by
  obtain ⟨row, stored, _, _, rows, publications⟩ := releaseExecution_ok done
  have valid : (releasedRow row).Valid := by
    change row.Valid
    exact sound.valid stored
  refine ⟨releasedRow row, Write.record sound stored rfl ?_ valid ?_ rows publications⟩
  · exact ⟨Nat.le_succ _, Or.inr ⟨rfl, rfl⟩, Or.inl (Nat.lt_succ_self _)⟩
  · intro other member
    cases member

/-- The row that the recovery of a stale execution writes. -/
def recoveredRow (row : AgentProcess δ) (receipt : StaleExecution) : AgentProcess δ :=
  { row with
    status := .paused
    waitState := some (.staleExecution receipt)
    outcome := none
    stateGeneration := row.stateGeneration + 1
    revision := row.revision + 1
    executionGeneration := row.executionGeneration + 1
    executionOwnerId := none
    executionLeaseId := none }

theorem recoverOneStaleExecution_ok {store store' : ProcessStore δ} {sha256 : String → Digest}
    {pid ownerId : String}
    (done : store.recoverOneStaleExecution sha256 pid ownerId = .ok store') :
    ∃ row receipt, store.rows pid = some row ∧ row.status = .running ∧
      row.executionOwnerId ≠ some ownerId ∧
      store' = store.record (recoveredRow row receipt) := by
  unfold recoverOneStaleExecution at done
  cases stored : store.rows pid with
  | none =>
      rw [stored] at done
      cases done
  | some row =>
      rw [stored] at done
      simp only [bind_eq_ok, require_ok] at done
      obtain ⟨_, ⟨status, other⟩, done⟩ := done
      cases made : staleReceipt sha256 ownerId row with
      | none =>
          rw [made] at done
          cases done
      | some receipt =>
          rw [made] at done
          exact ⟨row, receipt, rfl, status, other, (Except.ok.inj done).symm⟩

theorem recoverOneStaleExecution_write {store store' : ProcessStore δ}
    {sha256 : String → Digest} {pid ownerId : String} (sound : store.Sound)
    (done : store.recoverOneStaleExecution sha256 pid ownerId = .ok store') :
    ∃ row', Write store store' (some pid) row' := by
  obtain ⟨row, receipt, stored, _, _, rfl⟩ := recoverOneStaleExecution_ok done
  refine ⟨recoveredRow row receipt, Write.record sound stored rfl ?_ rfl ?_ rfl rfl⟩
  · exact Advances.of_unleased (Nat.le_succ _) (Nat.lt_succ_self _) (Or.inl (Nat.lt_succ_self _))
  · intro other member
    exact ⟨(Option.mem_some_iff.mp member).symm, Nat.lt_succ_self _⟩

/-- A row whose TaskRun is taken over. -/
def rebound (runId : String) (runtimeEpoch : Nat) (row : AgentProcess δ) : AgentProcess δ :=
  if row.taskRunId = some runId then { row with taskRunEpoch := some runtimeEpoch } else row

theorem claimTaskRunEpoch_ok {store store' : ProcessStore δ} {runId : String}
    {runtimeEpoch : Nat} {admits : Bool}
    (done : store.claimTaskRunEpoch runId runtimeEpoch admits = .ok store') :
    store' = { store with
      rows := fun pid => (store.rows pid).map (rebound runId runtimeEpoch) } := by
  simp only [claimTaskRunEpoch, bind_eq_ok, require_ok] at done
  obtain ⟨_, _, _, _, done⟩ := done
  exact (Except.ok.inj done).symm

theorem rebound_keeps (runId : String) (runtimeEpoch : Nat) (row : AgentProcess δ) :
    (rebound runId runtimeEpoch row).pid = row.pid ∧
      (rebound runId runtimeEpoch row).semantic = row.semantic ∧
      Advances row (rebound runId runtimeEpoch row) := by
  unfold rebound
  split_ifs
  · exact ⟨rfl, rfl, le_rfl, Or.inr ⟨rfl, rfl⟩, Or.inr ⟨rfl, Or.inl ⟨rfl, rfl, id⟩⟩⟩
  · exact ⟨rfl, rfl, Advances.refl row⟩

theorem claimTaskRunEpoch_keeps {store store' : ProcessStore δ} {runId : String}
    {runtimeEpoch : Nat} {admits : Bool} (sound : store.Sound)
    (done : store.claimTaskRunEpoch runId runtimeEpoch admits = .ok store') :
    store'.Sound ∧ RowsAdvance store store' := by
  obtain rfl := claimTaskRunEpoch_ok done
  refine ⟨⟨?_, ?_, sound.published⟩, ?_⟩
  · intro pid row stored
    obtain ⟨earlier, found, rfl⟩ := Option.map_eq_some_iff.mp stored
    exact (rebound_keeps ..).1.trans (sound.keyed found)
  · intro pid row stored
    obtain ⟨earlier, found, rfl⟩ := Option.map_eq_some_iff.mp stored
    exact AgentProcess.valid_of_semantic (rebound_keeps ..).2.1 (sound.valid found)
  · intro pid row stored
    exact ⟨rebound runId runtimeEpoch row, by simp [stored], (rebound_keeps ..).2.2⟩

/-! ## New and restored rows -/

theorem insertProcess_ok {store store' : ProcessStore δ} {process : AgentProcess δ}
    (done : store.insertProcess process = .ok store') :
    process.Valid ∧ store.rows process.pid = none ∧ store' = store.record process := by
  simp only [insertProcess, bind_eq_ok, require_ok] at done
  obtain ⟨_, written, _, _, _, absent, done⟩ := done
  exact ⟨validateProcessStateWrite_new written, absent, (Except.ok.inj done).symm⟩

theorem insertProcess_write {store store' : ProcessStore δ} {process : AgentProcess δ}
    (sound : store.Sound) (done : store.insertProcess process = .ok store') :
    Write store store' (some process.pid) process := by
  obtain ⟨valid, absent, rfl⟩ := insertProcess_ok done
  refine ⟨rfl, ?_, ?_, valid, sound.published⟩
  · intro row stored
    rw [absent] at stored
    cases stored
  · intro pid member
    cases member
    refine ⟨rfl, ?_⟩
    intro row stored
    rw [absent] at stored
    cases stored

/-- The row that a restore writes: its epoch is above every value that the process has had. -/
def replacedRow (store : ProcessStore δ) (process : AgentProcess δ) : AgentProcess δ :=
  let existing := (store.rows process.pid).elim ⟨0, 0, 0⟩ AgentProcess.concurrency
  let epoch := store.reserveProcessRestoreEpoch process.pid
    ⟨max process.revision existing.revision,
      max process.executionGeneration existing.executionGeneration,
      max process.stateGeneration existing.stateGeneration⟩
  { process with
    revision := epoch.revision
    executionGeneration := epoch.executionGeneration
    stateGeneration := epoch.stateGeneration
    executionOwnerId := none
    executionLeaseId := none }

theorem replacedRow_newer {store : ProcessStore δ} (process : AgentProcess δ)
    {row : AgentProcess δ} (stored : store.rows process.pid = some row) :
    row.revision < (store.replacedRow process).revision ∧
      row.stateGeneration < (store.replacedRow process).stateGeneration ∧
      row.executionGeneration < (store.replacedRow process).executionGeneration := by
  simp only [replacedRow, stored, Option.elim_some, reserveProcessRestoreEpoch,
    AgentProcess.concurrency]
  omega

theorem replaceProcessForRestore_ok {store store' : ProcessStore δ} {process : AgentProcess δ}
    (done : store.replaceProcessForRestore process = .ok store') :
    (store.replacedRow process).Valid ∧
      store'.rows = Function.update store.rows process.pid (some (store.replacedRow process)) ∧
      store'.publications = store.publications := by
  obtain ⟨valid, _, rfl⟩ := insertProcess_ok done
  exact ⟨valid, Function.update_idem .., rfl⟩

theorem replaceProcessForRestore_write {store store' : ProcessStore δ}
    {process : AgentProcess δ} (sound : store.Sound)
    (done : store.replaceProcessForRestore process = .ok store') :
    Write store store' (some process.pid) (store.replacedRow process) := by
  obtain ⟨valid, rows, publications⟩ := replaceProcessForRestore_ok done
  refine ⟨rows, ?_, ?_, valid, publications ▸ sound.published⟩
  · intro row stored
    obtain ⟨revision, state, execution⟩ := replacedRow_newer process stored
    exact Advances.of_unleased revision.le state (Or.inl execution)
  · intro pid member
    cases member
    exact ⟨rfl, fun row stored => (replacedRow_newer process stored).2.1⟩

/-! ## Exec publications -/

theorem admitExec_ok {store store' : ProcessStore δ}
    {publicationId pid ownerId leaseId : String}
    {claim : Except ProcessFault (ProcessStore δ)}
    (done : store.admitExec publicationId pid ownerId leaseId claim = .ok store') :
    ∃ before admitted token, store.rows pid = some before ∧ claim = .ok admitted ∧
      store' = { admitted with
        publications := ⟨publicationId, pid, before, token, .planning⟩ ::
          admitted.publications } := by
  unfold admitExec at done
  cases stored : store.rows pid with
  | none =>
      rw [stored] at done
      cases done
  | some before =>
      rw [stored] at done
      simp only [bind_eq_ok, require_ok] at done
      obtain ⟨admitted, claim, _, _, done⟩ := done
      exact ⟨before, admitted, _, rfl, claim, (Except.ok.inj done).symm⟩

theorem admitExec_write {store store' : ProcessStore δ}
    {publicationId pid ownerId leaseId : String}
    {claim : Except ProcessFault (ProcessStore δ)} (sound : store.Sound)
    (claimant : ∀ admitted, claim = .ok admitted →
      ∃ row, store.rows pid = some row ∧ (row.status = .runnable ∨ row.status = .running) ∧
        admitted = store.record (claimed row ownerId leaseId))
    (done : store.admitExec publicationId pid ownerId leaseId claim = .ok store') :
    ∃ row', Write store store' (some pid) row' := by
  obtain ⟨before, admitted, token, stored, claim, rfl⟩ := admitExec_ok done
  obtain ⟨row, found, status, rfl⟩ := claimant admitted claim
  have write := claimed_write ownerId leaseId sound found
  refine ⟨claimed row ownerId leaseId, write.rows, write.advances, write.sets, write.valid, ?_⟩
  intro publication member
  rcases List.mem_cons.mp member with rfl | member
  · rw [stored] at found
    cases found
    exact ⟨sound.valid stored, (sound.valid stored).waitState_none status⟩
  · exact write.published publication member

theorem getRuntimePublication_mem {store : ProcessStore δ} {publicationId : String}
    {publication : ExecPublication δ}
    (found : store.getRuntimePublication publicationId = some publication) :
    publication ∈ store.publications := List.mem_of_find?_eq_some found

/-- The row that the commit of an exec writes. -/
def committedRow (row : AgentProcess δ) : AgentProcess δ :=
  { row with
    status := .runnable
    waitState := none
    outcome := none
    stateGeneration := row.stateGeneration + 1
    revision := row.revision + 1
    executionOwnerId := none
    executionLeaseId := none }

theorem commitProcessExecEpoch_ok {store store' : ProcessStore δ} {ambient : Ambient δ}
    {pid publicationId : String} {configured : Bool} {expectedRevision : Nat}
    (done : store.commitProcessExecEpoch ambient pid publicationId configured expectedRevision =
      .ok store') :
    ∃ token row, ambient.executionToken = some token ∧ token.pid = pid ∧
      store.rows pid = some row ∧ row.status = .running ∧ holdsLease row token ∧
      store' = store.record (committedRow row) := by
  unfold commitProcessExecEpoch at done
  split at done
  · next token publication row given found stored =>
      simp only [bind_eq_ok, require_ok] at done
      obtain ⟨_, ⟨_, _, _, owned, _⟩, _, ⟨_, status, lease⟩, done⟩ := done
      exact ⟨token, row, given, owned, stored, status, lease, (Except.ok.inj done).symm⟩
  · cases done

theorem commitProcessExecEpoch_write {store store' : ProcessStore δ} {ambient : Ambient δ}
    {pid publicationId : String} {configured : Bool} {expectedRevision : Nat}
    (sound : store.Sound)
    (done : store.commitProcessExecEpoch ambient pid publicationId configured expectedRevision =
      .ok store') : ∃ row', Write store store' (some pid) row' := by
  obtain ⟨_, row, _, _, stored, _, _, rfl⟩ := commitProcessExecEpoch_ok done
  refine ⟨committedRow row, Write.record sound stored rfl ?_ rfl ?_ rfl rfl⟩
  · exact Advances.of_unleased (Nat.le_succ _) (Nat.lt_succ_self _)
      (Or.inr ⟨rfl, rfl, rfl⟩)
  · intro other member
    exact ⟨(Option.mem_some_iff.mp member).symm, Nat.lt_succ_self _⟩

theorem restoreProcessForExec_ok {store store' : ProcessStore δ} {ambient : Ambient δ}
    {pid publicationId : String} {claimedPhase : Bool} {expectedRevision : Nat}
    {capabilities : List String}
    (done : store.restoreProcessForExec ambient pid publicationId claimedPhase expectedRevision
      capabilities = .ok store') :
    ∃ publication row, publication ∈ store.publications ∧ publication.pid = pid ∧
      (∀ token ∈ ambient.executionToken, token = publication.token) ∧
      store.rows pid = some row ∧ row.status = .running ∧ holdsLease row publication.token ∧
      store' = store.record (restoredForExec row publication.before capabilities) := by
  unfold restoreProcessForExec at done
  split at done
  · next publication row found stored =>
      simp only [bind_eq_ok, require_ok] at done
      obtain ⟨_, ⟨target, _, _, token⟩, _, ⟨_, status, _, lease⟩, done⟩ := done
      exact ⟨publication, row, getRuntimePublication_mem found, target, token, stored, status,
        lease, (Except.ok.inj done).symm⟩
  · cases done

theorem restoredForExec_valid {row before : AgentProcess δ} {capabilities : List String}
    (valid : before.Valid) : (restoredForExec row before capabilities).Valid := by
  unfold AgentProcess.Valid restoredForExec
  dsimp only
  split_ifs
  · rfl
  · exact valid

theorem restoreProcessForExec_write {store store' : ProcessStore δ} {ambient : Ambient δ}
    {pid publicationId : String} {claimedPhase : Bool} {expectedRevision : Nat}
    {capabilities : List String} (sound : store.Sound)
    (done : store.restoreProcessForExec ambient pid publicationId claimedPhase expectedRevision
      capabilities = .ok store') : ∃ row', Write store store' (some pid) row' := by
  obtain ⟨publication, row, member, _, _, stored, _, _, rfl⟩ := restoreProcessForExec_ok done
  refine ⟨restoredForExec row publication.before capabilities, Write.record sound stored rfl ?_
    (restoredForExec_valid (sound.published publication member).1) ?_ rfl rfl⟩
  · exact Advances.of_unleased (Nat.le_succ _) (Nat.lt_succ_self _) (Or.inl (Nat.lt_succ_self _))
  · intro other member
    exact ⟨(Option.mem_some_iff.mp member).symm, Nat.lt_succ_self _⟩

end ProcessStore

end AgentLibOS.Processes
