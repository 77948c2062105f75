import AgentLibOS.Processes.Store

namespace AgentLibOS.Processes
open Library.Run

variable {δ : Type}

def AgentProcess.concurrency (process : AgentProcess δ) : Concurrency :=
  ⟨process.revision, process.executionGeneration, process.stateGeneration⟩

namespace ProcessStore

/-! ## New and restored rows -/

def insertProcess (store : ProcessStore δ) (process : AgentProcess δ) :
    Except ProcessFault (ProcessStore δ) := do
  validateProcessStateWrite process none false
  require (∀ epoch ∈ process.taskRunEpoch, 0 < epoch) .validation
  require (store.rows process.pid = none) .validation
  .ok (store.record process)

/-- `reserve_process_restore_epoch`: values above every one observed and above the floors. -/
def reserveProcessRestoreEpoch (store : ProcessStore δ) (pid : String) (floor : Concurrency) :
    Concurrency :=
  let current := store.counters pid
  ⟨max current.revision floor.revision + 1,
    max current.executionGeneration floor.executionGeneration + 1,
    max current.stateGeneration floor.stateGeneration + 1⟩

def replaceProcessForRestore (store : ProcessStore δ) (process : AgentProcess δ) :
    Except ProcessFault (ProcessStore δ) :=
  let existing := (store.rows process.pid).elim ⟨0, 0, 0⟩ AgentProcess.concurrency
  let epoch := store.reserveProcessRestoreEpoch process.pid
    ⟨max process.revision existing.revision,
      max process.executionGeneration existing.executionGeneration,
      max process.stateGeneration existing.stateGeneration⟩
  { store with
    rows := Function.update store.rows process.pid none
    counters := Function.update store.counters process.pid epoch }.insertProcess
      { process with
        revision := epoch.revision
        executionGeneration := epoch.executionGeneration
        stateGeneration := epoch.stateGeneration
        executionOwnerId := none
        executionLeaseId := none }

/-! ## Exec publications -/

/-- The admission of an exec: a claim and the publication that keeps the row from before it. -/
def admitExec (store : ProcessStore δ) (publicationId pid ownerId leaseId : String)
    (claim : Except ProcessFault (ProcessStore δ)) : Except ProcessFault (ProcessStore δ) :=
  match store.rows pid with
  | none => .error .missing
  | some before => do
      let admitted ← claim
      require (∀ publication ∈ store.publications, publication.publicationId ≠ publicationId)
        .validation
      let token : ProcessExecutionToken :=
        ⟨pid, before.executionGeneration + 1, ownerId, leaseId, before.taskRunEpoch⟩
      .ok { admitted with
        publications := ⟨publicationId, pid, before, token, .planning⟩ :: admitted.publications }

def advanceRuntimePublication (store : ProcessStore δ) (publicationId : String)
    (state : PublicationState) : ProcessStore δ :=
  { store with publications := store.publications.map fun publication =>
      if publication.publicationId = publicationId then { publication with state := state }
      else publication }

def getRuntimePublication (store : ProcessStore δ) (publicationId : String) :
    Option (ExecPublication δ) :=
  store.publications.find? (·.publicationId == publicationId)

/-- `configured` is whether the publication has reached the phase `skills_configured`. -/
def commitProcessExecEpoch (store : ProcessStore δ) (ambient : Ambient δ) (pid : String)
    (publicationId : String) (configured : Bool) (expectedRevision : Nat) :
    Except ProcessFault (ProcessStore δ) :=
  match ambient.executionToken, store.getRuntimePublication publicationId, store.rows pid with
  | some token, some publication, some row => do
      require (publication.pid = pid ∧ publication.state = .applying ∧ configured = true ∧
        token.pid = pid ∧ publication.token.generation = token.generation ∧
        publication.token.ownerId = token.ownerId ∧
        publication.token.leaseId = token.leaseId) .revisionConflict
      require (row.revision = expectedRevision ∧ row.status = .running ∧ holdsLease row token)
        .revisionConflict
      .ok (store.record { row with
        status := .runnable
        waitState := none
        outcome := none
        stateGeneration := row.stateGeneration + 1
        revision := row.revision + 1
        executionOwnerId := none
        executionLeaseId := none })
  | _, _, _ => .error .revisionConflict

/-- The row that compensation writes; every caller fences the execution. -/
def restoredForExec (row before : AgentProcess δ) (capabilities : List String) : AgentProcess δ :=
  { row with
    status := if before.status = .running then .runnable else before.status
    waitState := if before.status = .running then none else before.waitState
    outcome := if before.status = .running then none else before.outcome
    stateGeneration := row.stateGeneration + 1
    revision := row.revision + 1
    executionGeneration := row.executionGeneration + 1
    executionOwnerId := none
    executionLeaseId := none
    capabilities := capabilities
    fields := before.fields }

/-- `claimedPhase` is whether the rollback of the publication is compensating or claimed. -/
def restoreProcessForExec (store : ProcessStore δ) (ambient : Ambient δ) (pid : String)
    (publicationId : String) (claimedPhase : Bool) (expectedRevision : Nat)
    (capabilities : List String) : Except ProcessFault (ProcessStore δ) :=
  match store.getRuntimePublication publicationId, store.rows pid with
  | some publication, some row => do
      require (publication.pid = pid ∧ publication.state = .rollbackPending ∧
        claimedPhase = true ∧ (∀ token ∈ ambient.executionToken, token = publication.token))
        .revisionConflict
      require (row.revision = expectedRevision ∧ row.status = .running ∧
        row.stateGeneration = publication.before.stateGeneration + 1 ∧
        holdsLease row publication.token) .rejected
      .ok (store.record (restoredForExec row publication.before capabilities))
  | _, _ => .error .revisionConflict

end ProcessStore

/-! ## The transition service -/

/-- The identity of one persisted process wait generation. -/
structure ProcessStateToken where
  pid : String
  stateGeneration : Nat
  waitState : ProcessWaitState

def waitToken (process : AgentProcess δ) : Except ProcessFault ProcessStateToken :=
  match process.waitState with
  | none => .error .revisionConflict
  | some waitState => do
      require (waitState.condition = true) .revisionConflict
      .ok ⟨process.pid, process.stateGeneration, waitState⟩

def sameWaitDomain : ProcessWaitState → ProcessWaitState → Bool
  | .human current, .human requested =>
      current.ids ⊆ requested.ids || requested.ids ⊆ current.ids
  | current, requested => current == requested

/-- `require_wait_registration_preserves_owner` for a condition wait. -/
def requireWaitRegistrationPreservesOwner (process : AgentProcess δ)
    (waitState : ProcessWaitState) : Except ProcessFault Unit :=
  match process.waitState with
  | none => require (process.status ≠ .suspended) .process
  | some current => require (sameWaitDomain current waitState = true) .process

section Service
variable [DecidableEq δ]

/-- `read` is what the call got from `get_process` before its write. -/
def transition (store : ProcessStore δ) (ambient : Ambient δ) (pid : String)
    (requested : Transition) (expectedRevision : Nat) (expectedStatus : Option ProcessStatus)
    (expectedStateGeneration : Option Nat) (allowedStatuses : Option (List ProcessStatus))
    (read : Option (AgentProcess δ)) : Except ProcessFault (ProcessStore δ) := do
  require (validateProcessState requested.status requested.waitState requested.outcome = true)
    .validation
  require (requested.waitState.any (·.stale) = false) .validation
  match requested.waitState.filter (·.condition), read with
  | some waitState, some current => do
      require (current.revision = expectedRevision) .revisionConflict
      require (∀ generation ∈ expectedStateGeneration, current.stateGeneration = generation)
        .revisionConflict
      requireWaitRegistrationPreservesOwner current waitState
  | _, _ => .ok ()
  require (∀ allowed ∈ allowedStatuses, allowed ≠ []) .validation
  store.applyProcessStateTransition ambient pid requested expectedRevision expectedStatus
    expectedStateGeneration allowedStatuses

/-- `read` is what the call got from `get_process` before its write. -/
def wake (store : ProcessStore δ) (ambient : Ambient δ) (token : ProcessStateToken)
    (control : Bool) (read : Option (AgentProcess δ)) : Except ProcessFault (ProcessStore δ) := do
  require (token.waitState.condition = true) .revisionConflict
  match read with
  | none => .error .revisionConflict
  | some current => do
      require (current.stateGeneration = token.stateGeneration ∧
        current.waitState = some token.waitState) .revisionConflict
      require (current.status ∈ [.waitingEvent, .waitingHuman, .waitingTool])
        .revisionConflict
      transition store ambient token.pid ⟨.runnable, none, none⟩ current.revision
        (some current.status) (some token.stateGeneration)
        (if control then some [current.status] else none) none

end Service

/-! ## Events -/

/-- What a patch sets. -/
structure ProcessPatch (δ : Type) where
  capabilities : List String
  fields : δ

/-- `owner` and `lease` of a claim are drawn by the claimant; `runAdmits` is the answer of the
TaskRun table. -/
inductive ProcessEvent (δ : Type)
  | insert (process : AgentProcess δ)
  | transition (ambient : Ambient δ) (pid : String) (requested : Transition)
      (expectedRevision : Nat) (expectedStatus : Option ProcessStatus)
      (expectedStateGeneration : Option Nat) (allowedStatuses : Option (List ProcessStatus))
      (read : Option (AgentProcess δ))
  | wake (ambient : Ambient δ) (token : ProcessStateToken) (control : Bool)
      (read : Option (AgentProcess δ))
  | update (ambient : Ambient δ) (process : AgentProcess δ)
  | patch (ambient : Ambient δ) (pid : String) (patch : ProcessPatch δ) (expectedRevision : Nat)
      (expectedStatus : Option ProcessStatus)
  | claim (pid ownerId leaseId : String) (taskRunEpoch : Option Nat) (runAdmits : Bool)
  | admitHostExec (publicationId pid ownerId leaseId : String)
      (expectedRevision expectedStateGeneration expectedExecutionGeneration : Nat)
      (taskRunEpoch : Option Nat) (runAdmits : Bool)
  | admitWorkerExec (publicationId pid : String) (token : ProcessExecutionToken)
      (ownerId leaseId : String) (expectedRevision expectedStateGeneration : Nat)
      (taskRunEpoch : Option Nat) (runAdmits : Bool)
  | complete (token : ProcessExecutionToken) (requested : Transition)
  | release (token : ProcessExecutionToken)
  | recoverStale (pid ownerId : String)
  | claimTaskRunEpoch (runId : String) (runtimeEpoch : Nat) (admits : Bool)
  | commitExec (ambient : Ambient δ) (pid publicationId : String) (configured : Bool)
      (expectedRevision : Nat)
  | restoreExec (ambient : Ambient δ) (pid publicationId : String) (claimedPhase : Bool)
      (expectedRevision : Nat) (capabilities : List String)
  | replaceForRestore (process : AgentProcess δ)
  | advancePublication (publicationId : String) (state : PublicationState)

namespace ProcessStore
variable [DecidableEq δ] (sha256 : String → Digest)

def exec (store : ProcessStore δ) : ProcessEvent δ → Except ProcessFault (ProcessStore δ)
  | .insert process => store.insertProcess process
  | .transition ambient pid requested expectedRevision expectedStatus expectedStateGeneration
      allowedStatuses read =>
      Processes.transition store ambient pid requested expectedRevision expectedStatus
        expectedStateGeneration allowedStatuses read
  | .wake ambient token control read => Processes.wake store ambient token control read
  | .update ambient process => store.updateProcess ambient process false
  | .patch ambient pid patch expectedRevision expectedStatus =>
      store.patchProcess ambient pid
        (fun current => { current with capabilities := patch.capabilities, fields := patch.fields })
        expectedRevision expectedStatus false
  | .claim pid ownerId leaseId taskRunEpoch runAdmits =>
      store.claimExecution pid ownerId leaseId taskRunEpoch runAdmits
  | .admitHostExec publicationId pid ownerId leaseId expectedRevision expectedStateGeneration
      expectedExecutionGeneration taskRunEpoch runAdmits =>
      store.admitExec publicationId pid ownerId leaseId
        (store.claimHostProcessExec pid ownerId leaseId expectedRevision expectedStateGeneration
          expectedExecutionGeneration taskRunEpoch runAdmits)
  | .admitWorkerExec publicationId pid token ownerId leaseId expectedRevision
      expectedStateGeneration taskRunEpoch runAdmits =>
      store.admitExec publicationId pid ownerId leaseId
        (store.claimWorkerProcessExec pid token ownerId leaseId expectedRevision
          expectedStateGeneration taskRunEpoch runAdmits)
  | .complete token requested => store.completeExecution token requested
  | .release token => store.releaseExecution token
  | .recoverStale pid ownerId => store.recoverOneStaleExecution sha256 pid ownerId
  | .claimTaskRunEpoch runId runtimeEpoch admits =>
      store.claimTaskRunEpoch runId runtimeEpoch admits
  | .commitExec ambient pid publicationId configured expectedRevision =>
      store.commitProcessExecEpoch ambient pid publicationId configured expectedRevision
  | .restoreExec ambient pid publicationId claimedPhase expectedRevision capabilities =>
      store.restoreProcessForExec ambient pid publicationId claimedPhase expectedRevision
        capabilities
  | .replaceForRestore process => store.replaceProcessForRestore process
  | .advancePublication publicationId state =>
      .ok (store.advanceRuntimePublication publicationId state)

/-- An event whose call fails leaves the store as it was. -/
def step (store : ProcessStore δ) (event : ProcessEvent δ) : ProcessStore δ :=
  transact (exec sha256) store event

end ProcessStore
end AgentLibOS.Processes
