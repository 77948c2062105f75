import AgentLibOS.Processes.Writes

namespace AgentLibOS.Processes
open Library.Run

variable {δ : Type}

/-! ## Events -/

namespace ProcessEvent

/-- The process whose status, wait state and outcome the event sets. -/
def target : ProcessEvent δ → Option String
  | .insert process | .replaceForRestore process => some process.pid
  | .transition _ pid .. => some pid
  | .wake _ token .. => some token.pid
  | .claim pid .. => some pid
  | .admitHostExec _ pid .. => some pid
  | .admitWorkerExec _ pid .. => some pid
  | .complete token _ => some token.pid
  | .recoverStale pid _ => some pid
  | .commitExec _ pid .. => some pid
  | .restoreExec _ pid .. => some pid
  | .update .. | .patch .. | .release _ | .claimTaskRunEpoch .. | .advancePublication .. => none

/-- A call of the transition service. -/
def service : ProcessEvent δ → Bool
  | .transition .. | .wake .. => true
  | _ => false

end ProcessEvent

namespace ProcessStore
variable {sha256 : String → Digest}

theorem advanceRuntimePublication_sound {store : ProcessStore δ} (sound : store.Sound)
    (publicationId : String) (state : PublicationState) :
    (store.advanceRuntimePublication publicationId state).Sound := by
  refine ⟨sound.keyed, sound.valid, ?_⟩
  intro publication member
  obtain ⟨earlier, listed, rfl⟩ := List.mem_map.mp member
  split_ifs <;> exact sound.published earlier listed

variable [DecidableEq δ]

/-- An event that succeeds writes one row, unless it sets no state at all. -/
theorem exec_write {store store' : ProcessStore δ} {event : ProcessEvent δ}
    (sound : store.Sound) (done : store.exec sha256 event = .ok store') :
    (event.target = none ∧ store'.Sound ∧ RowsAdvance store store') ∨
      ∃ row', Write store store' event.target row' := by
  cases event with
  | insert process => exact Or.inr ⟨_, insertProcess_write sound done⟩
  | transition ambient pid requested expectedRevision expectedStatus expectedStateGeneration
      allowedStatuses read =>
      exact Or.inr (applyProcessStateTransition_write sound (transition_ok done))
  | wake ambient token control read =>
      obtain ⟨_, _, _, applied⟩ := wake_ok done
      exact Or.inr (applyProcessStateTransition_write sound applied)
  | update ambient process => exact Or.inr (updateProcess_write sound done)
  | patch ambient pid patch expectedRevision expectedStatus =>
      exact Or.inr (patchProcess_write sound done)
  | claim pid ownerId leaseId taskRunEpoch runAdmits =>
      obtain ⟨row, stored, _, rfl⟩ := claimExecution_ok done
      exact Or.inr ⟨_, claimed_write ownerId leaseId sound stored⟩
  | admitHostExec publicationId pid ownerId leaseId expectedRevision expectedStateGeneration
      expectedExecutionGeneration taskRunEpoch runAdmits =>
      refine Or.inr (admitExec_write sound ?_ done)
      intro admitted claim
      obtain ⟨row, stored, status, same⟩ := claimHostProcessExec_ok claim
      exact ⟨row, stored, Or.inl status, same⟩
  | admitWorkerExec publicationId pid token ownerId leaseId expectedRevision
      expectedStateGeneration taskRunEpoch runAdmits =>
      refine Or.inr (admitExec_write sound ?_ done)
      intro admitted claim
      obtain ⟨row, stored, _, status, _, same⟩ := claimWorkerProcessExec_ok claim
      exact ⟨row, stored, Or.inr status, same⟩
  | complete token requested => exact Or.inr (completeExecution_write sound done)
  | release token => exact Or.inr (releaseExecution_write sound done)
  | recoverStale pid ownerId => exact Or.inr (recoverOneStaleExecution_write sound done)
  | claimTaskRunEpoch runId runtimeEpoch admits =>
      exact Or.inl ⟨rfl, claimTaskRunEpoch_keeps sound done⟩
  | commitExec ambient pid publicationId configured expectedRevision =>
      exact Or.inr (commitProcessExecEpoch_write sound done)
  | restoreExec ambient pid publicationId claimedPhase expectedRevision capabilities =>
      exact Or.inr (restoreProcessForExec_write sound done)
  | replaceForRestore process => exact Or.inr ⟨_, replaceProcessForRestore_write sound done⟩
  | advancePublication publicationId state =>
      cases done
      exact Or.inl ⟨rfl, advanceRuntimePublication_sound sound publicationId state,
        RowsAdvance.of_rows rfl⟩

theorem exec_sound {store store' : ProcessStore δ} {event : ProcessEvent δ}
    (sound : store.Sound) (done : store.exec sha256 event = .ok store') : store'.Sound := by
  rcases exec_write sound done with ⟨_, sound', _⟩ | ⟨row', write⟩
  · exact sound'
  · exact write.sound sound

theorem exec_rowsAdvance {store store' : ProcessStore δ} {event : ProcessEvent δ}
    (sound : store.Sound) (done : store.exec sha256 event = .ok store') :
    RowsAdvance store store' := by
  rcases exec_write sound done with ⟨_, _, advance⟩ | ⟨row', write⟩
  · exact advance
  · exact write.rowsAdvance

/-- An event that sets the state of a process moves it to a newer state generation. -/
theorem exec_newer {store store' : ProcessStore δ} {event : ProcessEvent δ}
    (sound : store.Sound) (done : store.exec sha256 event = .ok store') {pid : String}
    (target : event.target = some pid) {row : AgentProcess δ}
    (stored : store.rows pid = some row) :
    ∃ row', store'.rows pid = some row' ∧ row.stateGeneration < row'.stateGeneration := by
  rcases exec_write sound done with ⟨absent, _⟩ | ⟨row', write⟩
  · rw [absent] at target
    cases target
  · obtain ⟨same, newer⟩ := write.sets pid target
    refine ⟨row', ?_, newer row stored⟩
    rw [write.rows, same, Function.update_self]

/-! ## Runs -/

theorem step_sound {store : ProcessStore δ} (event : ProcessEvent δ) (sound : store.Sound) :
    (step sha256 store event).Sound := by
  rcases transact_cases (exec sha256) store event with done | same
  · exact exec_sound sound done
  · rw [step, same]
    exact sound

theorem step_rowsAdvance {store : ProcessStore δ} (event : ProcessEvent δ)
    (sound : store.Sound) : RowsAdvance store (step sha256 store event) := by
  rcases transact_cases (exec sha256) store event with done | same
  · exact exec_rowsAdvance sound done
  · exact RowsAdvance.of_rows (congrArg rows same)

variable (sha256) in
theorem run_sound (events : List (ProcessEvent δ)) {store : ProcessStore δ}
    (sound : store.Sound) : (run (step sha256) store events).Sound :=
  stable_run (fun _ event sound => step_sound event sound) events sound

variable (sha256) in
theorem run_rowsAdvance (events : List (ProcessEvent δ)) {store : ProcessStore δ}
    (sound : store.Sound) : RowsAdvance store (run (step sha256) store events) := by
  induction events generalizing store with
  | nil => exact RowsAdvance.of_rows rfl
  | cons event events ih =>
      exact (step_rowsAdvance event sound).trans (ih (step_sound event sound))

/-! ## Wait tokens -/

theorem service_terminal {store : ProcessStore δ} {event : ProcessEvent δ} (sound : store.Sound)
    (service : event.service = true) {pid : String} {row : AgentProcess δ}
    (stored : store.rows pid = some row) (ended : row.status.terminal = true) :
    ∃ row', (step sha256 store event).rows pid = some row' ∧ row'.status = row.status := by
  rcases transact_cases (exec sha256) store event with done | same
  · cases event with
    | transition ambient target requested expectedRevision expectedStatus expectedStateGeneration
        allowedStatuses read =>
        exact applyProcessStateTransition_terminal sound (transition_ok done) stored ended
    | wake ambient token control read =>
        obtain ⟨_, _, _, applied⟩ := wake_ok done
        exact applyProcessStateTransition_terminal sound applied stored ended
    | _ => cases service
  · rw [step, same]
    exact ⟨row, stored, rfl⟩

omit [DecidableEq δ] in
theorem waitToken_ok {row : AgentProcess δ} {token : ProcessStateToken}
    (done : waitToken row = .ok token) :
    token.pid = row.pid ∧ token.stateGeneration = row.stateGeneration ∧
      row.waitState = some token.waitState := by
  unfold waitToken at done
  cases waiting : row.waitState with
  | none =>
      rw [waiting] at done
      cases done
  | some waitState =>
      rw [waiting] at done
      simp only [bind_eq_ok, require_ok] at done
      obtain ⟨_, _, done⟩ := done
      cases done
      exact ⟨rfl, rfl, rfl⟩

/-- A wake succeeds on the state generation of its token only. -/
theorem exec_wake_current {store store' : ProcessStore δ} {ambient : Ambient δ}
    {token : ProcessStateToken} {control : Bool} {read : Option (AgentProcess δ)}
    (done : store.exec sha256 (.wake ambient token control read) = .ok store') :
    ∃ current, store.rows token.pid = some current ∧
      current.stateGeneration = token.stateGeneration := by
  obtain ⟨_, _, _, applied⟩ := wake_ok done
  obtain ⟨current, _, stored, _, generation, _⟩ := applyProcessStateTransition_ok applied
  exact ⟨current, stored, generation _ rfl⟩

/-- Once the process is past the generation of a token, no wake with it succeeds again. -/
theorem wake_refused {store : ProcessStore δ} {token : ProcessStateToken} (sound : store.Sound)
    {row : AgentProcess δ} (stored : store.rows token.pid = some row)
    (newer : token.stateGeneration < row.stateGeneration) (events : List (ProcessEvent δ))
    (ambient : Ambient δ) (control : Bool) (read : Option (AgentProcess δ))
    (final : ProcessStore δ) :
    (run (step sha256) store events).exec sha256 (.wake ambient token control read) ≠
      .ok final := by
  intro done
  obtain ⟨current, found, generation⟩ := exec_wake_current done
  obtain ⟨row', stored', advances⟩ := run_rowsAdvance sha256 events sound _ _ stored
  rw [stored'] at found
  cases found
  have := advances.stateGeneration_le
  omega

/-- A wake that succeeds finds the process as its token saw it: in between, every event that would
have set the state was refused. -/
theorem exec_wake_undisturbed {first final : ProcessStore δ} {between : List (ProcessEvent δ)}
    (sound : first.Sound) {row : AgentProcess δ} {token : ProcessStateToken}
    (stored : first.rows token.pid = some row)
    (generation : token.stateGeneration = row.stateGeneration) {ambient : Ambient δ}
    {control : Bool} {read : Option (AgentProcess δ)}
    (done : (run (step sha256) first between).exec sha256 (.wake ambient token control read) =
      .ok final) {front back : List (ProcessEvent δ)} (split : between = front ++ back) :
    ∃ middle, (run (step sha256) first front).rows token.pid = some middle ∧
      middle.stateGeneration = row.stateGeneration ∧ middle.semantic = row.semantic := by
  obtain ⟨current, found, unchanged⟩ := exec_wake_current done
  rw [split, run_append] at found
  have soundFront := run_sound sha256 front sound
  obtain ⟨middle, stored', before⟩ := run_rowsAdvance sha256 front sound _ _ stored
  obtain ⟨last, found', after⟩ := run_rowsAdvance sha256 back soundFront _ _ stored'
  rw [found'] at found
  cases found
  have low := before.stateGeneration_le
  have high := after.stateGeneration_le
  have same : middle.stateGeneration = row.stateGeneration := by omega
  exact ⟨middle, stored', same, before.semantic_eq same⟩

/-- For every run: state generations never decrease, and grow with every change of the state;
stored states are valid; the transition service leaves no terminal status; a wake succeeds only when
no state transition of the process succeeded since its token was taken, and only once. -/
theorem wake_generation_safe (sha256 : String → Digest) (past between : List (ProcessEvent δ))
    (pid : String) :
    let first := run (step sha256) empty past
    let later := run (step sha256) first between
    (∀ row, first.getProcess pid = some row → row.Valid) ∧
    (∀ row, first.getProcess pid = some row →
      ∃ row', later.getProcess pid = some row' ∧ row.stateGeneration ≤ row'.stateGeneration ∧
        (row'.semantic ≠ row.semantic → row.stateGeneration < row'.stateGeneration)) ∧
    (∀ row event, first.getProcess pid = some row → row.status.terminal = true →
      event.service = true →
        ∃ row', (step sha256 first event).getProcess pid = some row' ∧
          row'.status = row.status) ∧
    ∀ row token, first.getProcess pid = some row → waitToken row = .ok token →
      ∀ ambient control read final,
        later.exec sha256 (.wake ambient token control read) = .ok final →
        (∀ front back, between = front ++ back →
          ∃ middle, (run (step sha256) first front).getProcess pid = some middle ∧
            middle.stateGeneration = row.stateGeneration ∧ middle.semantic = row.semantic) ∧
        (∀ front event back, between = front ++ event :: back → event.target = some pid →
          ∀ next, (run (step sha256) first front).exec sha256 event ≠ .ok next) ∧
        ∀ events ambient' control' read' final',
          (run (step sha256) final events).exec sha256 (.wake ambient' token control' read') ≠
            .ok final' := by
  intro first later
  have sound : first.Sound := run_sound sha256 past empty_sound
  refine ⟨fun row stored => sound.valid stored, ?_, ?_, ?_⟩
  · intro row stored
    obtain ⟨row', stored', advances⟩ := run_rowsAdvance sha256 between sound _ _ stored
    refine ⟨row', stored', advances.stateGeneration_le, ?_⟩
    intro changed
    exact advances.semantic.resolve_right fun same => changed same.2
  · intro row event stored ended service
    exact service_terminal sound service stored ended
  · intro row token stored taken ambient control read final done
    obtain ⟨owned, generation, _⟩ := waitToken_ok taken
    have target : token.pid = pid := owned.trans (sound.keyed stored)
    rw [← target] at stored ⊢
    have undisturbed := fun front back => @exec_wake_undisturbed _ _ _ _ _ _ sound _ _ stored generation _ _ _ done front back
    refine ⟨undisturbed, ?_, ?_⟩
    · intro front event back split sets next accepted
      obtain ⟨middle, stored', unchanged, _⟩ := undisturbed front (event :: back) split
      have soundFront := run_sound sha256 front sound
      obtain ⟨row', written, newer⟩ :=
        exec_newer soundFront accepted sets stored'
      obtain ⟨after, stored'', unchanged', _⟩ := undisturbed (front ++ [event]) back (by simp [split])
      rw [run_append, run_cons, run_nil, step, transact_of_ok accepted, written] at stored''
      cases stored''
      omega
    · have soundLater : later.Sound := run_sound sha256 between sound
      obtain ⟨current, found, unchanged⟩ := exec_wake_current done
      obtain ⟨row', stored', newer⟩ := exec_newer soundLater done rfl found
      have soundFinal := exec_sound soundLater done
      intro events ambient' control' read' final'
      exact wake_refused soundFinal stored' (by omega) events ambient' control' read' final'

end ProcessStore
end AgentLibOS.Processes
