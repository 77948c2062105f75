import AgentLibOS.Processes.Generations

namespace AgentLibOS.Processes
open Library.Run

variable {δ : Type}

namespace ProcessEvent

/-- The process whose row the event writes. -/
def subject : ProcessEvent δ → Option String
  | .update _ process => some process.pid
  | .patch _ pid .. => some pid
  | .release token => some token.pid
  | event => event.target

def ambient : ProcessEvent δ → Option (Ambient δ)
  | .transition ambient .. | .wake ambient .. | .update ambient _ | .patch ambient .. |
    .commitExec ambient .. | .restoreExec ambient .. => some ambient
  | _ => none

/-- The execution token that the event acts for. -/
def presents : ProcessEvent δ → Option ProcessExecutionToken
  | .complete token _ | .release token => some token
  | .admitWorkerExec _ _ token .. => some token
  | event => event.ambient.bind (·.executionToken)

def claims : ProcessEvent δ → Option String
  | .claim pid .. => some pid
  | .admitHostExec _ pid .. => some pid
  | .admitWorkerExec _ pid .. => some pid
  | _ => none

/-- The process whose running execution the event brings to an end or takes over. -/
def ends : ProcessEvent δ → Option String
  | .complete token _ | .release token => some token.pid
  | .recoverStale pid _ => some pid
  | .commitExec _ pid .. | .restoreExec _ pid .. => some pid
  | .replaceForRestore process => some process.pid
  | event => event.claims

end ProcessEvent

namespace ProcessStore

/-! ## Current and older tokens -/

/-- The process runs under this token. -/
def Current (store : ProcessStore δ) (token : ProcessExecutionToken) : Prop :=
  ∃ row, store.rows token.pid = some row ∧ row.status = .running ∧ leaseToken row = some token

/-- The process runs under the generation, owner and lease of this token. -/
def Leased (store : ProcessStore δ) (token : ProcessExecutionToken) : Prop :=
  ∃ row, store.rows token.pid = some row ∧ row.status = .running ∧ holdsLease row token

/-- The process has been given up or taken over by another execution. -/
def Older (store : ProcessStore δ) (token : ProcessExecutionToken) : Prop :=
  ∃ row, store.rows token.pid = some row ∧ token.generation ≤ row.executionGeneration ∧
    ¬ holdsLease row token

theorem leaseToken_holds {row : AgentProcess δ} {token : ProcessExecutionToken}
    (leased : leaseToken row = some token) : holdsLease row token := by
  unfold leaseToken at leased
  split at leased
  · next ownerId leaseId owner lease =>
      cases leased
      exact ⟨rfl, owner, lease⟩
  · cases leased

theorem Current.leased {store : ProcessStore δ} {token : ProcessExecutionToken}
    (current : Current store token) : Leased store token := by
  obtain ⟨row, stored, running, leased⟩ := current
  exact ⟨row, stored, running, leaseToken_holds leased⟩

theorem Current.unique {store : ProcessStore δ} {token token' : ProcessExecutionToken}
    (current : Current store token) (current' : Current store token')
    (same : token.pid = token'.pid) : token = token' := by
  obtain ⟨row, stored, _, leased⟩ := current
  obtain ⟨row', stored', _, leased'⟩ := current'
  rw [← same, stored] at stored'
  cases stored'
  exact Option.some.inj (leased.symm.trans leased')

theorem Older.not_leased {store : ProcessStore δ} {token : ProcessExecutionToken}
    (older : Older store token) : ¬ Leased store token := by
  rintro ⟨row, stored, _, holds⟩
  obtain ⟨row', stored', _, lost⟩ := older
  rw [stored] at stored'
  cases stored'
  exact lost holds

/-- A lease that is lost stays lost: a row comes back to a generation only without a lease. -/
theorem advances_lost {row row' : AgentProcess δ} {token : ProcessExecutionToken}
    (advances : Advances row row') (past : token.generation ≤ row.executionGeneration)
    (lost : ¬ holdsLease row token) :
    token.generation ≤ row'.executionGeneration ∧ ¬ holdsLease row' token := by
  rcases advances.lease with newer | ⟨same, ⟨owner, lease, _⟩ | ⟨owner, _⟩⟩
  · refine ⟨by omega, ?_⟩
    intro holds
    have := holds.1
    omega
  · refine ⟨by omega, ?_⟩
    intro holds
    apply lost
    exact ⟨same.symm.trans holds.1, owner.symm.trans holds.2.1, lease.symm.trans holds.2.2⟩
  · refine ⟨by omega, ?_⟩
    intro holds
    cases owner.symm.trans holds.2.1

theorem advances_held {row row' : AgentProcess δ} {token : ProcessExecutionToken}
    (advances : Advances row row') (running : row.status = .running)
    (holds : holdsLease row token) :
    row'.status = .running ∧ holdsLease row' token ∨
      token.generation ≤ row'.executionGeneration ∧ ¬ holdsLease row' token := by
  rcases advances.lease with newer | ⟨same, ⟨owner, lease, runs⟩ | ⟨owner, _⟩⟩
  · right
    have generation := holds.1
    refine ⟨by omega, ?_⟩
    intro again
    have := again.1
    omega
  · left
    exact ⟨runs running, same.trans holds.1, owner.trans holds.2.1, lease.trans holds.2.2⟩
  · right
    refine ⟨by rw [same, holds.1], ?_⟩
    intro again
    cases owner.symm.trans again.2.1

section
variable [DecidableEq δ] {sha256 : String → Digest}

theorem Older.run {store : ProcessStore δ} {token : ProcessExecutionToken}
    (older : Older store token) (sound : store.Sound) (events : List (ProcessEvent δ)) :
    Older (run (step sha256) store events) token := by
  obtain ⟨row, stored, past, lost⟩ := older
  obtain ⟨row', stored', advances⟩ := run_rowsAdvance sha256 events sound _ _ stored
  exact ⟨row', stored', advances_lost advances past lost⟩

theorem Leased.run {store : ProcessStore δ} {token : ProcessExecutionToken}
    (leased : Leased store token) (sound : store.Sound) (events : List (ProcessEvent δ)) :
    Leased (run (step sha256) store events) token ∨
      Older (run (step sha256) store events) token := by
  obtain ⟨row, stored, running, holds⟩ := leased
  obtain ⟨row', stored', advances⟩ := run_rowsAdvance sha256 events sound _ _ stored
  rcases advances_held advances running holds with kept | ended
  · exact Or.inl ⟨row', stored', kept⟩
  · exact Or.inr ⟨row', stored', ended⟩

end

/-! ## Claims -/

theorem claimed_current {store store' : ProcessStore δ} {pid ownerId leaseId : String}
    {row : AgentProcess δ} (sound : store.Sound) (stored : store.rows pid = some row)
    (rows : store'.rows = (store.record (claimed row ownerId leaseId)).rows) :
    ∃ token, token.pid = pid ∧ token.generation = row.executionGeneration + 1 ∧
      token.ownerId = ownerId ∧ token.leaseId = leaseId ∧ Current store' token := by
  have same : (claimed row ownerId leaseId).pid = pid := by
    change row.pid = pid
    exact sound.keyed stored
  refine ⟨⟨pid, row.executionGeneration + 1, ownerId, leaseId, row.taskRunEpoch⟩, rfl, rfl, rfl,
    rfl, claimed row ownerId leaseId, ?_, rfl, ?_⟩
  · rw [rows, record_rows, same, Function.update_self]
  · simp only [leaseToken, claimed, sound.keyed stored]

/-- Each claim issues the token of a new generation. -/
theorem exec_claims [DecidableEq δ] {sha256 : String → Digest} {store store' : ProcessStore δ}
    {event : ProcessEvent δ} (sound : store.Sound)
    (done : store.exec sha256 event = .ok store') {pid : String}
    (claims : event.claims = some pid) :
    ∃ row token, store.rows pid = some row ∧ token.pid = pid ∧
      token.generation = row.executionGeneration + 1 ∧ Current store' token := by
  cases event with
  | claim target ownerId leaseId taskRunEpoch runAdmits =>
      cases claims
      obtain ⟨row, stored, _, rfl⟩ := claimExecution_ok done
      obtain ⟨token, owned, generation, _, _, current⟩ := claimed_current sound stored rfl
      exact ⟨row, token, stored, owned, generation, current⟩
  | admitHostExec publicationId target ownerId leaseId expectedRevision expectedStateGeneration
      expectedExecutionGeneration taskRunEpoch runAdmits =>
      cases claims
      obtain ⟨_, admitted, _, _, claim, rfl⟩ := admitExec_ok done
      obtain ⟨row, stored, _, rfl⟩ := claimHostProcessExec_ok claim
      obtain ⟨token, owned, generation, _, _, current⟩ := claimed_current sound stored rfl
      exact ⟨row, token, stored, owned, generation, current⟩
  | admitWorkerExec publicationId target presented ownerId leaseId expectedRevision
      expectedStateGeneration taskRunEpoch runAdmits =>
      cases claims
      obtain ⟨_, admitted, _, _, claim, rfl⟩ := admitExec_ok done
      obtain ⟨row, stored, _, _, _, rfl⟩ := claimWorkerProcessExec_ok claim
      obtain ⟨token, owned, generation, _, _, current⟩ := claimed_current sound stored rfl
      exact ⟨row, token, stored, owned, generation, current⟩
  | _ => cases claims

/-! ## Ended executions -/

theorem Older.of_write {store store' : ProcessStore δ} {row : AgentProcess δ}
    {token : ProcessExecutionToken} (row' : AgentProcess δ) (sound : store.Sound)
    (stored : store.rows token.pid = some row) (holds : holdsLease row token)
    (same : row'.pid = row.pid)
    (rows : store'.rows = Function.update store.rows row'.pid (some row'))
    (ended : row.executionGeneration < row'.executionGeneration ∨
      row.executionGeneration ≤ row'.executionGeneration ∧ row'.executionOwnerId = none) :
    Older store' token := by
  have generation := holds.1
  refine ⟨row', ?_, by omega, ?_⟩
  · rw [rows, same, sound.keyed stored, Function.update_self]
  · intro again
    rcases ended with newer | ⟨_, owner⟩
    · have := again.1
      omega
    · cases owner.symm.trans again.2.1

theorem Older.of_claim {store store' : ProcessStore δ} {pid : String}
    {token : ProcessExecutionToken} (leased : Leased store token) (own : token.pid = pid)
    (claimed : ∃ row newer, store.rows pid = some row ∧ newer.pid = pid ∧
      newer.generation = row.executionGeneration + 1 ∧ Current store' newer) :
    Older store' token := by
  obtain ⟨row, stored, _, holds⟩ := leased
  obtain ⟨current, newer, found, owned, generation, row', stored', _, leased'⟩ := claimed
  rw [← own, stored] at found
  cases found
  have past := holds.1
  have next := (leaseToken_holds leased').1
  refine ⟨row', ?_, by omega, ?_⟩
  · rw [own, ← owned]
    exact stored'
  · intro again
    have := again.1
    omega

theorem exec_ends [DecidableEq δ] {sha256 : String → Digest} {store store' : ProcessStore δ}
    {event : ProcessEvent δ} {token : ProcessExecutionToken} (sound : store.Sound)
    (done : store.exec sha256 event = .ok store') (ends : event.ends = some token.pid)
    (leased : Leased store token) : Older store' token := by
  obtain ⟨row, stored, running, holds⟩ := leased
  cases event with
  | claim pid ownerId leaseId taskRunEpoch runAdmits =>
      exact Older.of_claim ⟨row, stored, running, holds⟩ rfl (exec_claims sound done ends)
  | admitHostExec publicationId pid ownerId leaseId expectedRevision expectedStateGeneration
      expectedExecutionGeneration taskRunEpoch runAdmits =>
      exact Older.of_claim ⟨row, stored, running, holds⟩ rfl (exec_claims sound done ends)
  | admitWorkerExec publicationId pid presented ownerId leaseId expectedRevision
      expectedStateGeneration taskRunEpoch runAdmits =>
      exact Older.of_claim ⟨row, stored, running, holds⟩ rfl (exec_claims sound done ends)
  | complete presented requested =>
      obtain ⟨current, found, _, _, _, _, rfl⟩ := completeExecution_ok done
      rw [Option.some.inj ends, stored] at found
      cases found
      exact Older.of_write (completedRow row requested) sound stored holds rfl rfl
        (Or.inr ⟨Nat.le_add_right .., rfl⟩)
  | release presented =>
      obtain ⟨current, found, _, _, rows, _⟩ := releaseExecution_ok done
      rw [Option.some.inj ends, stored] at found
      cases found
      exact Older.of_write (releasedRow row) sound stored holds rfl rows
        (Or.inl (Nat.lt_succ_self _))
  | recoverStale pid ownerId =>
      obtain ⟨current, receipt, found, _, _, rfl⟩ := recoverOneStaleExecution_ok done
      rw [Option.some.inj ends, stored] at found
      cases found
      exact Older.of_write (recoveredRow row receipt) sound stored holds rfl rfl
        (Or.inl (Nat.lt_succ_self _))
  | commitExec ambient pid publicationId configured expectedRevision =>
      obtain ⟨_, current, _, _, found, _, _, rfl⟩ := commitProcessExecEpoch_ok done
      rw [Option.some.inj ends, stored] at found
      cases found
      exact Older.of_write (committedRow row) sound stored holds rfl rfl
        (Or.inr ⟨le_rfl, rfl⟩)
  | restoreExec ambient pid publicationId claimedPhase expectedRevision capabilities =>
      obtain ⟨publication, current, _, _, _, found, _, _, rfl⟩ := restoreProcessForExec_ok done
      rw [Option.some.inj ends, stored] at found
      cases found
      exact Older.of_write (restoredForExec row publication.before capabilities) sound stored
        holds rfl rfl
        (Or.inl (Nat.lt_succ_self _))
  | replaceForRestore process =>
      obtain ⟨_, rows, _⟩ := replaceProcessForRestore_ok done
      rw [← Option.some.inj ends] at stored
      have stored' : store.rows token.pid = some row := (Option.some.inj ends) ▸ stored
      exact Older.of_write (store.replacedRow process) sound stored' holds
        (sound.keyed stored).symm rows (Or.inl (replacedRow_newer process stored).2.2)
  | _ => cases ends

/-! ## Fenced writes -/

/-- A trusted scope names the row exactly, right after the execution of the token has ended. -/
def TrustedAfterEnd (ambient : Ambient δ) (row : AgentProcess δ)
    (token : ProcessExecutionToken) : Prop :=
  row.executionGeneration = token.generation + 1 ∧ row.executionOwnerId = none ∧
    row.executionLeaseId = none ∧
    ((∃ mutation ∈ ambient.terminal, row.status.terminal = true ∧
        mutation.targetPid = token.pid ∧ mutation.expectedRevision = row.revision ∧
        mutation.expectedGeneration = row.executionGeneration ∧
        mutation.executionToken = some token) ∨
      ∃ mutation ∈ ambient.postExec, row.status = .runnable ∧
        mutation.targetPid = token.pid ∧ mutation.expectedRevision = row.revision ∧
        mutation.expectedGeneration = row.executionGeneration ∧
        mutation.executionToken = token ∧ mutation.receipt = true)

theorem assertTerminalMutationAllowed_ok {ambient : Ambient δ} {process current : AgentProcess δ}
    {expectedRevision : Nat} {token : ProcessExecutionToken} {result : Unit}
    (done : assertTerminalMutationAllowed ambient process current expectedRevision = .ok result)
    (presented : ambient.executionToken = some token) (own : token.pid = process.pid) :
    current.executionGeneration = token.generation + 1 ∧ current.executionOwnerId = none ∧
      current.executionLeaseId = none ∧
      ∃ mutation ∈ ambient.terminal, mutation.targetPid = token.pid ∧
        mutation.expectedRevision = expectedRevision ∧
        mutation.expectedGeneration = current.executionGeneration ∧
        mutation.executionToken = some token := by
  unfold assertTerminalMutationAllowed at done
  cases given : ambient.terminal with
  | none =>
      rw [given] at done
      cases done
  | some mutation =>
      rw [given] at done
      simp only [presented, bind_eq_ok, require_ok] at done
      obtain ⟨_, ⟨target, revision, generation, _, same, owner, lease⟩, next⟩ := done
      exact ⟨next.resolve_left (not_not_intro own), owner, lease, mutation, rfl,
        target.trans own.symm, revision, generation, same⟩

section
variable [DecidableEq δ]

theorem assertPostExecCompletionAllowed_ok {ambient : Ambient δ} {mutation : PostExecMutation}
    {process current : AgentProcess δ} {expectedRevision : Nat} {token : ProcessExecutionToken}
    {result : Unit}
    (done : assertPostExecCompletionAllowed ambient mutation process current expectedRevision =
      .ok result)
    (presented : ambient.executionToken = some token) (own : token.pid = process.pid) :
    current.executionGeneration = token.generation + 1 ∧ current.executionOwnerId = none ∧
      current.executionLeaseId = none ∧ current.status = .runnable ∧
      mutation.targetPid = token.pid ∧ mutation.expectedRevision = expectedRevision ∧
      mutation.expectedGeneration = current.executionGeneration ∧
      mutation.executionToken = token ∧ mutation.receipt = true := by
  simp only [assertPostExecCompletionAllowed, bind_eq_ok, require_ok] at done
  obtain ⟨_, ⟨target, revision, generation, same, _, next, runnable, owner, lease, receipt⟩, _⟩ :=
    done
  have equal : mutation.executionToken = token := Option.some.inj (same.symm.trans presented)
  rw [equal] at next
  exact ⟨next, owner, lease, runnable, target.trans own.symm, revision, generation, equal, receipt⟩

omit [DecidableEq δ] in
theorem assertWorkerFence_ok {ambient : Ambient δ} {process current : AgentProcess δ}
    {token : ProcessExecutionToken} {result : Unit}
    (done : assertWorkerFence ambient process current = .ok result)
    (presented : ambient.executionToken = some token) (own : token.pid = process.pid)
    (live : current.status.terminal = false) : holdsLease current token := by
  simp only [assertWorkerFence, presented, own, live, and_self, if_true, require_ok] at done
  exact done.2

/-- An update for a token that has lost its lease needs a trusted scope. -/
theorem updateProcess_fenced {store store' : ProcessStore δ} {ambient : Ambient δ}
    {process : AgentProcess δ} {allow : Bool}
    (done : store.updateProcess ambient process allow = .ok store')
    {token : ProcessExecutionToken} (presented : ambient.executionToken = some token)
    (own : token.pid = process.pid) {row : AgentProcess δ}
    (stored : store.rows token.pid = some row) (lost : ¬ holdsLease row token) :
    TrustedAfterEnd ambient row token := by
  obtain ⟨current, found, fence, _, _⟩ := updateProcess_ok done
  rw [← own, stored] at found
  cases found
  cases live : row.status.terminal with
  | true =>
      obtain ⟨allowed, _⟩ := fence.terminal live
      obtain ⟨next, owner, lease, mutation, given, target, revision, facts⟩ :=
        assertTerminalMutationAllowed_ok allowed presented own
      exact ⟨next, owner, lease,
        Or.inl ⟨mutation, given, live, target, revision.trans fence.revision.symm, facts⟩⟩
  | false =>
      cases given : ambient.postExec with
      | some mutation =>
          obtain ⟨next, owner, lease, runnable, target, revision, facts⟩ :=
            assertPostExecCompletionAllowed_ok (fence.postExec mutation given) presented own
          exact ⟨next, owner, lease, Or.inr ⟨mutation, given, runnable, target,
            revision.trans fence.revision.symm, facts⟩⟩
      | none => exact absurd (assertWorkerFence_ok (fence.worker given) presented own live) lost

theorem applyProcessStateTransition_fenced {store store' : ProcessStore δ} {ambient : Ambient δ}
    {pid : String} {requested : Transition} {expectedRevision : Nat}
    {expectedStatus : Option ProcessStatus} {expectedStateGeneration : Option Nat}
    {allowedStatuses : Option (List ProcessStatus)} (sound : store.Sound)
    (done : store.applyProcessStateTransition ambient pid requested expectedRevision
      expectedStatus expectedStateGeneration allowedStatuses = .ok store')
    {token : ProcessExecutionToken} (presented : ambient.executionToken = some token)
    (own : token.pid = pid) {row : AgentProcess δ} (stored : store.rows token.pid = some row)
    (lost : ¬ holdsLease row token) : TrustedAfterEnd ambient row token := by
  obtain ⟨current, control, found, _, _, updated⟩ := applyProcessStateTransition_ok done
  have own' : token.pid = (requested.patch current).pid := by
    rw [Transition.patch_pid, sound.keyed found]
    exact own
  have fenced := updateProcess_fenced updated presented own' stored lost
  exact fenced

theorem exec_fenced {sha256 : String → Digest} {store store' : ProcessStore δ}
    {event : ProcessEvent δ} (sound : store.Sound)
    (done : store.exec sha256 event = .ok store') {token : ProcessExecutionToken}
    (presents : event.presents = some token) (subject : event.subject = some token.pid)
    {row : AgentProcess δ} (stored : store.rows token.pid = some row)
    (lost : ¬ holdsLease row token) :
    ∃ ambient, event.ambient = some ambient ∧ TrustedAfterEnd ambient row token := by
  cases event with
  | transition ambient pid requested expectedRevision expectedStatus expectedStateGeneration
      allowedStatuses read =>
      exact ⟨ambient, rfl, applyProcessStateTransition_fenced sound (transition_ok done) presents
        (Option.some.inj subject).symm stored lost⟩
  | wake ambient wakeToken control read =>
      obtain ⟨_, _, _, applied⟩ := wake_ok done
      exact ⟨ambient, rfl, applyProcessStateTransition_fenced sound applied presents
        (Option.some.inj subject).symm stored lost⟩
  | update ambient process =>
      exact ⟨ambient, rfl, updateProcess_fenced done presents (Option.some.inj subject).symm stored
        lost⟩
  | patch ambient pid patch expectedRevision expectedStatus =>
      obtain ⟨current, found, _, _, updated⟩ := patchProcess_ok done
      have own : token.pid = current.pid :=
        (Option.some.inj subject).symm.trans (sound.keyed found).symm
      exact ⟨ambient, rfl, updateProcess_fenced updated presents own stored lost⟩
  | admitWorkerExec publicationId pid presented ownerId leaseId expectedRevision
      expectedStateGeneration taskRunEpoch runAdmits =>
      obtain ⟨_, admitted, _, _, claim, _⟩ := admitExec_ok done
      obtain ⟨current, found, _, _, holds, _⟩ := claimWorkerProcessExec_ok claim
      cases presents
      cases subject
      rw [stored] at found
      cases found
      exact absurd holds lost
  | complete presented requested =>
      obtain ⟨current, found, _, holds, _⟩ := completeExecution_ok done
      cases presents
      rw [stored] at found
      cases found
      exact absurd holds lost
  | release presented =>
      obtain ⟨current, found, holds, _⟩ := releaseExecution_ok done
      cases presents
      rw [stored] at found
      cases found
      exact absurd holds lost
  | commitExec ambient pid publicationId configured expectedRevision =>
      obtain ⟨presented, current, given, owned, found, _, holds, _⟩ :=
        commitProcessExecEpoch_ok done
      rw [show ambient.executionToken = some token from presents] at given
      cases given
      rw [← owned, stored] at found
      cases found
      exact absurd holds lost
  | restoreExec ambient pid publicationId claimedPhase expectedRevision capabilities =>
      obtain ⟨publication, current, _, _, same, found, _, holds, _⟩ :=
        restoreProcessForExec_ok done
      rw [← same token presents] at holds
      cases subject
      rw [stored] at found
      cases found
      exact absurd holds lost
  | _ => cases presents

/-- For every run: one token at most is current, each claim opens a new execution generation, a
token that has lost its execution never gets it back, and a write for it to its process is refused
outside the trusted scopes that follow the end of its execution. -/
theorem stale_execution_fenced (sha256 : String → Digest) (past later : List (ProcessEvent δ)) :
    let first := run (step sha256) empty past
    let last := run (step sha256) first later
    (∀ token token', Current first token → Current first token' → token.pid = token'.pid →
      token = token') ∧
    (∀ pid row, first.getProcess pid = some row →
      ∃ row', last.getProcess pid = some row' ∧
        row.executionGeneration ≤ row'.executionGeneration) ∧
    (∀ event pid next, event.claims = some pid → first.exec sha256 event = .ok next →
      ∃ row token, first.getProcess pid = some row ∧ token.pid = pid ∧
        token.generation = row.executionGeneration + 1 ∧ Current next token) ∧
    (∀ token, Current first token → Leased last token ∨ Older last token) ∧
    (∀ token event next, event.ends = some token.pid → Leased first token →
      first.exec sha256 event = .ok next → Older next token) ∧
    (∀ token, Older first token → Older last token ∧ ¬ Current last token) ∧
    ∀ token event row, first.getProcess token.pid = some row → ¬ holdsLease row token →
      event.presents = some token → event.subject = some token.pid →
        ((∃ fault, first.exec sha256 event = .error fault) ∧ step sha256 first event = first) ∨
          ∃ ambient, event.ambient = some ambient ∧ TrustedAfterEnd ambient row token := by
  intro first last
  have sound : first.Sound := run_sound sha256 past empty_sound
  refine ⟨?_, ?_, ?_, ?_, ?_, ?_, ?_⟩
  · intro token token' current current' same
    exact current.unique current' same
  · intro pid row stored
    obtain ⟨row', stored', advances⟩ := run_rowsAdvance sha256 later sound _ _ stored
    refine ⟨row', stored', ?_⟩
    rcases advances.lease with newer | ⟨same, _⟩ <;> omega
  · intro event pid next claims done
    exact exec_claims sound done claims
  · intro token current
    exact current.leased.run sound later
  · intro token event next ends leased done
    exact exec_ends sound done ends leased
  · intro token older
    have after : Older last token := older.run sound later
    exact ⟨after, fun current => after.not_leased current.leased⟩
  · intro token event row stored lost presents subject
    cases attempt : first.exec sha256 event with
    | error fault =>
        left
        refine ⟨⟨fault, rfl⟩, ?_⟩
        rw [step, transact, attempt]
    | ok next =>
        right
        exact exec_fenced sound attempt presents subject stored lost

end

/-- A worker that has completed its process. -/
def endedToken : ProcessExecutionToken := ⟨"pid_1", 1, "worker", "lease_1", none⟩

def endedEvents : List (ProcessEvent Nat) :=
  [.insert
    { pid := "pid_1", status := .runnable, waitState := none, outcome := none,
      stateGeneration := 0, revision := 0, executionGeneration := 0, executionOwnerId := none,
      executionLeaseId := none, taskRunId := none, taskRunEpoch := none, capabilities := [],
      fields := 0 },
    .claim "pid_1" "worker" "lease_1" none true,
    .complete endedToken ⟨.exited, none, some (.exited none)⟩]

/-- A write of that worker in the trusted scope of its terminal process. -/
def endedWrite : ProcessEvent Nat :=
  .patch ⟨some endedToken, none, some ⟨"pid_1", 2, 2, [.exited], some endedToken⟩, none, none⟩
    "pid_1" ⟨[], 1⟩ 2 none

def zeroDigest (_ : String) : Digest := ⟨String.ofList (List.replicate 64 '0'), by decide⟩

/-- A write for an older token goes through in a trusted scope. -/
theorem older_token_writes :
    let last := run (step zeroDigest) empty endedEvents
    Older last endedToken ∧ endedWrite.presents = some endedToken ∧
      endedWrite.subject = some endedToken.pid ∧
      (last.getProcess "pid_1").map (·.fields) = some 0 ∧
      ((step zeroDigest last endedWrite).getProcess "pid_1").map (·.fields) = some 1 := by
  refine ⟨⟨_, rfl, ?_, ?_⟩, rfl, rfl, ?_, ?_⟩
  all_goals decide

end ProcessStore
end AgentLibOS.Processes
