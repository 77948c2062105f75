import AgentLibOS.Library.Run
import AgentLibOS.Processes.State
import Mathlib.Logic.Function.Basic
import Mathlib.Order.Lattice.Nat

namespace AgentLibOS.Processes
open Library.Text Library.Run

/-- `rejected` stands for a store call that returns `None` or `False`. -/
inductive ProcessFault
  | revisionConflict | validation | process | missing | rejected
  deriving DecidableEq, Repr

def require (condition : Prop) [Decidable condition] (fault : ProcessFault) :
    Except ProcessFault Unit :=
  if condition then .ok () else .error fault

theorem require_ok {condition : Prop} [Decidable condition] {fault : ProcessFault} {result : Unit} :
    require condition fault = .ok result ↔ condition := by
  unfold require
  split_ifs with holds <;> simp [holds]

variable {δ : Type}

/-! ## The ambient scopes of a write -/

structure ControlMutation where
  targetPid : String
  allowedStatuses : List ProcessStatus

structure TerminalMutation where
  targetPid : String
  expectedRevision : Nat
  expectedGeneration : Nat
  allowedStatuses : List ProcessStatus
  executionToken : Option ProcessExecutionToken

/-- `receipt` is whether the committed publication and its operation name these values, `handle`
whether the appended capability is the exact ToolResult handle. -/
structure PostExecMutation where
  targetPid : String
  expectedRevision : Nat
  expectedGeneration : Nat
  executionToken : ProcessExecutionToken
  receipt : Bool
  handle : String → Bool

/-- `admits` is what the stages of the intent decide about a write over the stored row. -/
structure TakeoverIntent (δ : Type) where
  targetPid : String
  sourceStateGeneration : Nat
  sourceExecutionToken : ProcessExecutionToken
  admits : AgentProcess δ → AgentProcess δ → Bool

structure Ambient (δ : Type) where
  executionToken : Option ProcessExecutionToken
  control : Option ControlMutation
  terminal : Option TerminalMutation
  postExec : Option PostExecMutation
  takeover : Option (TakeoverIntent δ)

/-- A Host call outside every scope. -/
def Ambient.host : Ambient δ := ⟨none, none, none, none, none⟩

/-! ## The store -/

inductive PublicationState
  | planning | applying | reconciliationPending | committed | rollbackPending | rolledBack
  | failed | manual
  deriving DecidableEq, Repr

def PublicationState.open_ : PublicationState → Bool
  | .planning | .applying | .rollbackPending | .failed | .manual => true
  | _ => false

/-- A publication of kind `process_exec` with the row and the token of its plan. -/
structure ExecPublication (δ : Type) where
  publicationId : String
  pid : String
  before : AgentProcess δ
  token : ProcessExecutionToken
  state : PublicationState

/-- The `runtime_counters` of one process. -/
structure Concurrency where
  revision : Nat
  executionGeneration : Nat
  stateGeneration : Nat
  deriving DecidableEq, Repr

structure ProcessStore (δ : Type) where
  rows : String → Option (AgentProcess δ)
  counters : String → Concurrency
  publications : List (ExecPublication δ)

namespace ProcessStore

def empty : ProcessStore δ := ⟨fun _ => none, fun _ => ⟨0, 0, 0⟩, []⟩

def getProcess (store : ProcessStore δ) (pid : String) : Option (AgentProcess δ) := store.rows pid

def setRow (store : ProcessStore δ) (row : AgentProcess δ) : ProcessStore δ :=
  { store with rows := Function.update store.rows row.pid (some row) }

def observeProcessConcurrency (store : ProcessStore δ) (pid : String)
    (revision executionGeneration : Nat) (stateGeneration : Option Nat) : ProcessStore δ :=
  let current := store.counters pid
  let raised : Concurrency :=
    ⟨max current.revision revision, max current.executionGeneration executionGeneration,
      max current.stateGeneration (stateGeneration.getD 0)⟩
  { store with counters := Function.update store.counters pid raised }

/-- A row that is written and observed with its state generation. -/
def record (store : ProcessStore δ) (row : AgentProcess δ) : ProcessStore δ :=
  (store.setRow row).observeProcessConcurrency row.pid row.revision row.executionGeneration
    (some row.stateGeneration)

/-! ## The fence of a process update -/

/-- `_validate_process_state_write`. -/
def validateProcessStateWrite (process : AgentProcess δ) (persisted : Option (AgentProcess δ))
    (allowStateTransition : Bool) : Except ProcessFault Unit := do
  require (validateProcessState process.status process.waitState process.outcome = true) .validation
  require ((process.waitState.any (·.stale)) = false ∨
    ∃ current ∈ persisted, process.waitState = current.waitState) .validation
  match persisted with
  | none => .ok ()
  | some current =>
      require (allowStateTransition = true ∨ (process.semantic = current.semantic ∧
        process.stateGeneration = current.stateGeneration)) .validation
      require (allowStateTransition = false ∨
        process.stateGeneration = current.stateGeneration + 1) .revisionConflict

def assertTerminalMutationAllowed (ambient : Ambient δ) (process current : AgentProcess δ)
    (expectedRevision : Nat) : Except ProcessFault Unit :=
  match ambient.terminal with
  | none => .error .revisionConflict
  | some mutation => do
      require (mutation.targetPid = process.pid ∧ mutation.expectedRevision = expectedRevision ∧
        mutation.expectedGeneration = current.executionGeneration ∧
        current.status ∈ mutation.allowedStatuses ∧
        mutation.executionToken = ambient.executionToken ∧
        current.executionOwnerId = none ∧ current.executionLeaseId = none) .revisionConflict
      match ambient.executionToken with
      | none => .ok ()
      | some token =>
          require (token.pid ≠ process.pid ∨
            current.executionGeneration = token.generation + 1) .revisionConflict

def assertExecutionTargetAllowed (ambient : Ambient δ) (targetPid : String)
    (currentStatus : ProcessStatus) : Except ProcessFault Unit := do
  require (∀ intent ∈ ambient.takeover, intent.targetPid = targetPid) .revisionConflict
  require ((∀ token ∈ ambient.executionToken, token.pid = targetPid) ∨
    ∃ mutation ∈ ambient.control, mutation.targetPid = targetPid ∧
      currentStatus ∈ mutation.allowedStatuses) .revisionConflict

/-- The token that the lease of a row stands for. -/
def leaseToken (row : AgentProcess δ) : Option ProcessExecutionToken :=
  match row.executionOwnerId, row.executionLeaseId with
  | some ownerId, some leaseId =>
      some ⟨row.pid, row.executionGeneration, ownerId, leaseId, row.taskRunEpoch⟩
  | _, _ => none

def takeoverWriteAllowed (ambient : Ambient δ) (current process : AgentProcess δ)
    (currentToken : ProcessExecutionToken) : Bool :=
  ambient.takeover.any fun intent =>
    intent.targetPid == process.pid && intent.sourceExecutionToken == currentToken &&
      intent.sourceStateGeneration == current.stateGeneration && intent.admits current process

/-- `admitted` is whether an open exec publication holds exactly the lease of the row. -/
def assertProcessExecAdmissionUpdateOwner (ambient : Ambient δ) (admitted : Bool)
    (current process : AgentProcess δ) : Except ProcessFault Unit :=
  if current.status ≠ .running then .ok ()
  else
    match leaseToken current with
    | none => .ok ()
    | some currentToken =>
        if ambient.takeover.isNone && ambient.executionToken == some currentToken then .ok ()
        else do
          let takeoverWrite := takeoverWriteAllowed ambient current process currentToken
          require (ambient.takeover.isNone = true ∨ takeoverWrite = true) .revisionConflict
          require (admitted = false ∨ takeoverWrite = true) .revisionConflict

/-- The row names an execution of exactly this token. -/
def holdsLease (row : AgentProcess δ) (token : ProcessExecutionToken) : Prop :=
  row.executionGeneration = token.generation ∧ row.executionOwnerId = some token.ownerId ∧
    row.executionLeaseId = some token.leaseId

instance (row : AgentProcess δ) (token : ProcessExecutionToken) : Decidable (holdsLease row token) :=
  inferInstanceAs (Decidable (_ ∧ _))

section
variable [DecidableEq δ]

/-- Everything but the capabilities is as in the stored row. -/
def sameExceptCapabilities (current process : AgentProcess δ) : Prop :=
  process.semantic = current.semantic ∧ process.stateGeneration = current.stateGeneration ∧
    process.revision = current.revision ∧
    process.executionGeneration = current.executionGeneration ∧
    process.executionOwnerId = current.executionOwnerId ∧
    process.executionLeaseId = current.executionLeaseId ∧ process.fields = current.fields

instance (current process : AgentProcess δ) : Decidable (sameExceptCapabilities current process) :=
  inferInstanceAs (Decidable (_ ∧ _))

def assertPostExecCompletionAllowed (ambient : Ambient δ) (mutation : PostExecMutation)
    (process current : AgentProcess δ) (expectedRevision : Nat) : Except ProcessFault Unit := do
  require (mutation.targetPid = process.pid ∧ mutation.expectedRevision = expectedRevision ∧
    mutation.expectedGeneration = current.executionGeneration ∧
    ambient.executionToken = some mutation.executionToken ∧
    mutation.executionToken.pid = process.pid ∧
    current.executionGeneration = mutation.executionToken.generation + 1 ∧
    current.status = .runnable ∧ current.executionOwnerId = none ∧
    current.executionLeaseId = none ∧ mutation.receipt = true) .revisionConflict
  require (sameExceptCapabilities current process ∧
    ∃ handle ∈ process.capabilities.getLast?, mutation.handle handle = true ∧
      process.capabilities = current.capabilities ++ [handle]) .revisionConflict

/-- The fence of a worker that writes its own process. -/
def assertWorkerFence (ambient : Ambient δ) (process current : AgentProcess δ) :
    Except ProcessFault Unit :=
  match ambient.executionToken with
  | none => .ok ()
  | some token =>
      if token.pid = process.pid ∧ current.status.terminal = false then
        require (current.status = .running ∧ holdsLease current token) .revisionConflict
      else .ok ()

/-- A terminal row keeps its status, and is written in a trusted scope only. -/
def assertTerminalUpdate (ambient : Ambient δ) (process current : AgentProcess δ)
    (expectedRevision : Nat) : Except ProcessFault Unit :=
  if current.status.terminal then do
    assertTerminalMutationAllowed ambient process current expectedRevision
    require (process.status = current.status) .revisionConflict
  else .ok ()

def assertExecutionFence (ambient : Ambient δ) (process current : AgentProcess δ)
    (expectedRevision : Nat) : Except ProcessFault Unit :=
  match ambient.postExec with
  | some mutation =>
      assertPostExecCompletionAllowed ambient mutation process current expectedRevision
  | none => assertWorkerFence ambient process current

/-- The generation, owner and lease that an update writes. -/
def fencedExecution (current process : AgentProcess δ) : Nat × Option String × Option String :=
  if process.status.terminal || (current.status == .running && process.status != .running) then
    (current.executionGeneration + 1, none, none)
  else (current.executionGeneration, current.executionOwnerId, current.executionLeaseId)

/-- `_process_update_fence`. -/
def processUpdateFence (ambient : Ambient δ) (admitted : Bool) (current process : AgentProcess δ) :
    Except ProcessFault (Nat × Option String × Option String) := do
  let expectedRevision := process.revision
  require (current.revision = expectedRevision) .revisionConflict
  assertTerminalUpdate ambient process current expectedRevision
  assertExecutionTargetAllowed ambient process.pid current.status
  assertProcessExecAdmissionUpdateOwner ambient admitted current process
  assertExecutionFence ambient process current expectedRevision
  .ok (fencedExecution current process)

/-- An open exec publication holds exactly the lease of the row. -/
def admitted (store : ProcessStore δ) (row : AgentProcess δ) : Bool :=
  store.publications.any fun publication =>
    publication.pid == row.pid && publication.state.open_ &&
      decide (holdsLease row publication.token)

/-- `_update_process`. -/
def updateProcess (store : ProcessStore δ) (ambient : Ambient δ) (process : AgentProcess δ)
    (allowStateTransition : Bool) : Except ProcessFault (ProcessStore δ) :=
  match store.rows process.pid with
  | none => .error .revisionConflict
  | some current => do
      let (executionGeneration, executionOwnerId, executionLeaseId) ←
        processUpdateFence ambient (store.admitted current) current process
      validateProcessStateWrite process (some current) allowStateTransition
      .ok (store.record { process with
        revision := process.revision + 1
        executionGeneration := executionGeneration
        executionOwnerId := executionOwnerId
        executionLeaseId := executionLeaseId
        taskRunId := current.taskRunId
        taskRunEpoch := current.taskRunEpoch })

/-- `_patch_process`, with the patch as a change of the current row. -/
def patchProcess (store : ProcessStore δ) (ambient : Ambient δ) (pid : String)
    (patch : AgentProcess δ → AgentProcess δ) (expectedRevision : Nat)
    (expectedStatus : Option ProcessStatus) (allowStateTransition : Bool) :
    Except ProcessFault (ProcessStore δ) :=
  match store.rows pid with
  | none => .error .revisionConflict
  | some current => do
      require (current.revision = expectedRevision) .revisionConflict
      require (∀ status ∈ expectedStatus, current.status = status) .revisionConflict
      store.updateProcess ambient (patch current) allowStateTransition

/-- `allowedStatuses` is given for a control transition only. -/
def applyProcessStateTransition (store : ProcessStore δ) (ambient : Ambient δ)
    (pid : String) (transition : Transition) (expectedRevision : Nat)
    (expectedStatus : Option ProcessStatus) (expectedStateGeneration : Option Nat)
    (allowedStatuses : Option (List ProcessStatus)) :
    Except ProcessFault (ProcessStore δ) := do
  require (validateProcessState transition.status transition.waitState transition.outcome = true)
    .validation
  require (transition.waitState.any (·.stale) = false) .validation
  match store.rows pid with
  | none => .error .revisionConflict
  | some current => do
      require (∀ generation ∈ expectedStateGeneration, current.stateGeneration = generation)
        .revisionConflict
      match allowedStatuses with
      | none =>
          store.patchProcess ambient pid transition.patch expectedRevision expectedStatus true
      | some allowed => do
          require (allowed ≠ []) .validation
          require (current.status ∈ allowed) .revisionConflict
          store.patchProcess { ambient with control := some ⟨pid, allowed⟩ } pid
            transition.patch expectedRevision (some current.status) true

end

/-! ## Claims and completions -/

/-- What every claim writes over the row; the status of a worker claim is running already. -/
def claimed (row : AgentProcess δ) (ownerId leaseId : String) : AgentProcess δ :=
  { row with
    status := .running
    waitState := none
    outcome := none
    stateGeneration := row.stateGeneration + 1
    revision := row.revision + 1
    executionGeneration := row.executionGeneration + 1
    executionOwnerId := some ownerId
    executionLeaseId := some leaseId }

/-- `runAdmits` is whether the process has no TaskRun, or its Run has this epoch, is live and is
before its deadline. -/
def claimExecution (store : ProcessStore δ) (pid ownerId leaseId : String)
    (taskRunEpoch : Option Nat) (runAdmits : Bool) : Except ProcessFault (ProcessStore δ) := do
  require (ownerId ≠ "" ∧ ∀ epoch ∈ taskRunEpoch, 0 < epoch) .validation
  match store.rows pid with
  | none => .error .rejected
  | some row => do
      require (row.status = .runnable ∧ (∀ epoch ∈ taskRunEpoch, row.taskRunEpoch = some epoch) ∧
        runAdmits = true) .rejected
      .ok (store.record (claimed row ownerId leaseId))

def claimHostProcessExec (store : ProcessStore δ) (pid ownerId leaseId : String)
    (expectedRevision expectedStateGeneration expectedExecutionGeneration : Nat)
    (taskRunEpoch : Option Nat) (runAdmits : Bool) : Except ProcessFault (ProcessStore δ) := do
  require (ownerId ≠ "" ∧ ∀ epoch ∈ taskRunEpoch, 0 < epoch) .validation
  match store.rows pid with
  | none => .error .rejected
  | some row => do
      require (row.status = .runnable ∧ row.revision = expectedRevision ∧
        row.stateGeneration = expectedStateGeneration ∧
        row.executionGeneration = expectedExecutionGeneration ∧
        row.executionOwnerId = none ∧ row.executionLeaseId = none ∧ row.waitState = none ∧
        (∀ epoch ∈ taskRunEpoch, row.taskRunEpoch = some epoch) ∧ runAdmits = true) .rejected
      .ok (store.record (claimed row ownerId leaseId))

def claimWorkerProcessExec (store : ProcessStore δ) (pid : String)
    (executionToken : ProcessExecutionToken) (ownerId leaseId : String)
    (expectedRevision expectedStateGeneration : Nat) (taskRunEpoch : Option Nat)
    (runAdmits : Bool) : Except ProcessFault (ProcessStore δ) := do
  require (ownerId ≠ "" ∧ executionToken.pid = pid ∧ ∀ epoch ∈ taskRunEpoch, 0 < epoch) .validation
  match store.rows pid with
  | none => .error .rejected
  | some row => do
      require (row.status = .running ∧ row.revision = expectedRevision ∧
        row.stateGeneration = expectedStateGeneration ∧ holdsLease row executionToken ∧
        row.waitState = none ∧ (∀ epoch ∈ taskRunEpoch, row.taskRunEpoch = some epoch) ∧
        runAdmits = true) .rejected
      .ok (store.record (claimed row ownerId leaseId))

def completeExecution (store : ProcessStore δ) (token : ProcessExecutionToken)
    (transition : Transition) : Except ProcessFault (ProcessStore δ) := do
  require (validateProcessState transition.status transition.waitState transition.outcome = true)
    .validation
  require (transition.waitState.any (·.stale) = false) .validation
  match store.rows token.pid with
  | none => .error .rejected
  | some row => do
      require (row.status = .running ∧ holdsLease row token ∧
        row.taskRunEpoch = token.taskRunEpoch) .rejected
      .ok (store.record { transition.patch row with
        revision := row.revision + 1
        executionGeneration :=
          row.executionGeneration + (if transition.status.terminal then 1 else 0)
        executionOwnerId := none
        executionLeaseId := none })

def releaseExecution (store : ProcessStore δ) (token : ProcessExecutionToken) :
    Except ProcessFault (ProcessStore δ) :=
  match store.rows token.pid with
  | none => .error .rejected
  | some row => do
      require (holdsLease row token ∧ row.taskRunEpoch = token.taskRunEpoch) .rejected
      let released := { row with
        revision := row.revision + 1
        executionGeneration := row.executionGeneration + 1
        executionOwnerId := none
        executionLeaseId := none }
      .ok ((store.setRow released).observeProcessConcurrency row.pid released.revision
        released.executionGeneration none)

/-- `_stale_execution_identity_sha256`. -/
def identityDigest (sha256 : String → Digest) (value : Option String) : Option Digest :=
  (value.filter (· != "")).map sha256

def staleReceipt (sha256 : String → Digest) (ownerId : String) (row : AgentProcess δ) :
    Option StaleExecution :=
  (nonEmptyString row.pid).map fun pid =>
    { pid := pid
      recoveredByOwnerSha256 := sha256 ownerId
      priorOwnerSha256 := identityDigest sha256 row.executionOwnerId
      priorLeaseSha256 := identityDigest sha256 row.executionLeaseId
      priorExecutionGeneration := row.executionGeneration
      recoveredExecutionGeneration := row.executionGeneration + 1
      recoveredStateGeneration := row.stateGeneration + 1
      executionPositive := Nat.succ_pos _
      statePositive := Nat.succ_pos _ }

/-- `_recover_one_stale_execution`. -/
def recoverOneStaleExecution (store : ProcessStore δ) (sha256 : String → Digest)
    (pid ownerId : String) : Except ProcessFault (ProcessStore δ) :=
  match store.rows pid with
  | none => .error .rejected
  | some row => do
      require (row.status = .running ∧ row.executionOwnerId ≠ some ownerId) .rejected
      match staleReceipt sha256 ownerId row with
      | none => .error .validation
      | some receipt =>
          .ok (store.record { row with
            status := .paused
            waitState := some (.staleExecution receipt)
            outcome := none
            stateGeneration := row.stateGeneration + 1
            revision := row.revision + 1
            executionGeneration := row.executionGeneration + 1
            executionOwnerId := none
            executionLeaseId := none })

/-- `admits` is what the TaskRun table answers: the Run has the expected revision, an older epoch
and the right kind of status. -/
def claimTaskRunEpoch (store : ProcessStore δ) (runId : String) (runtimeEpoch : Nat)
    (admits : Bool) : Except ProcessFault (ProcessStore δ) := do
  require (0 < runtimeEpoch) .validation
  require (admits = true) .rejected
  .ok { store with rows := fun pid => (store.rows pid).map fun row =>
    if row.taskRunId = some runId then { row with taskRunEpoch := some runtimeEpoch } else row }

end ProcessStore
end AgentLibOS.Processes
