import AgentLibOS.Capability.Value
import AgentLibOS.Library.Run
import AgentLibOS.Library.Table
import AgentLibOS.Processes.State

namespace AgentLibOS.TaskRuns
open Library.Text Capability Processes

/-! ## JSON -/

/-- What `json.dumps` depends on: the text of a float and the number of nested containers it
follows. -/
structure JsonEncoder where
  floatText : ℚ → String
  maxDepth : Nat

def escapedLength (c : Char) : Nat :=
  if c.toNat ∈ [8, 9, 10, 12, 13, 34, 92] then 2
  else if 32 ≤ c.toNat ∧ c.toNat ≤ 126 then 1
  else if c.toNat ≤ 65535 then 6
  else 12

def quotedLength (text : String) : Nat :=
  text.toList.foldl (fun total c => total + escapedLength c) 2

mutual

def jsonLength (floatText : ℚ → String) : Value → Option Nat
  | .none => some 4
  | .bool value => some (if value then 4 else 5)
  | .int value =>
      if (toString value.natAbs).length ≤ 4300 then some (toString value).length else none
  | .float (.finite value) => some (floatText value).length
  | .float _ => none
  | .str text => some (quotedLength text)
  | .list items => (listLength floatText items).map (· + (2 + (items.length - 1)))
  | .dict entries => (dictLength floatText entries).map (· + (2 + (entries.length - 1)))

def listLength (floatText : ℚ → String) : List Value → Option Nat
  | [] => some 0
  | item :: items => do
      let first ← jsonLength floatText item
      let rest ← listLength floatText items
      some (first + rest)

def dictLength (floatText : ℚ → String) : Dict → Option Nat
  | [] => some 0
  | (key, value) :: entries => do
      let first ← jsonLength floatText value
      let rest ← dictLength floatText entries
      some (quotedLength key + 1 + first + rest)

end

mutual

/-- How deep the containers nest. -/
def jsonDepth : Value → Nat
  | .list items => 1 + listDepth items
  | .dict entries => 1 + dictDepth entries
  | _ => 0

def listDepth : List Value → Nat
  | [] => 0
  | item :: items => max (jsonDepth item) (listDepth items)

def dictDepth : Dict → Nat
  | [] => 0
  | (_, value) :: entries => max (jsonDepth value) (dictDepth entries)

end

mutual

/-- Values and object keys. -/
def jsonNodes : Value → Nat
  | .list items => 1 + listNodes items
  | .dict entries => 1 + dictNodes entries
  | _ => 1

def listNodes : List Value → Nat
  | [] => 0
  | item :: items => jsonNodes item + listNodes items

def dictNodes : Dict → Nat
  | [] => 0
  | (_, value) :: entries => 1 + jsonNodes value + dictNodes entries

end

/-- The length of `canonical_task_run_json`, which is ASCII. -/
def JsonEncoder.canonicalLength (encoder : JsonEncoder) (value : Value) : Option Nat :=
  if jsonDepth value ≤ encoder.maxDepth then jsonLength encoder.floatText value else none

/-- `bounded_json_loads` accepts the canonical text of the value. -/
def JsonEncoder.readable (encoder : JsonEncoder) (maxBytes : Nat) (value : Value) : Bool :=
  (encoder.canonicalLength value).any (· ≤ maxBytes) && decide (jsonDepth value ≤ 256) &&
    decide (jsonNodes value ≤ 100000)

structure TaskRunConfig where
  encoder : JsonEncoder
  commandResultMaxBytes : Nat

/-! ## Task runs -/

inductive TaskRunStatus
  | queued | running | waitingHuman | waitingProcess | waitingMessage | waitingTool | paused
  | cancelling | finalizing | needsAttention | succeeded | failed | cancelled
  deriving DecidableEq, Repr

namespace TaskRunStatus

def value : TaskRunStatus → String
  | queued => "queued"
  | running => "running"
  | waitingHuman => "waiting_human"
  | waitingProcess => "waiting_process"
  | waitingMessage => "waiting_message"
  | waitingTool => "waiting_tool"
  | paused => "paused"
  | cancelling => "cancelling"
  | finalizing => "finalizing"
  | needsAttention => "needs_attention"
  | succeeded => "succeeded"
  | failed => "failed"
  | cancelled => "cancelled"

def all : List TaskRunStatus :=
  [queued, running, waitingHuman, waitingProcess, waitingMessage, waitingTool, paused, cancelling,
    finalizing, needsAttention, succeeded, failed, cancelled]

def ofValue (text : String) : Option TaskRunStatus := all.find? (·.value == text)

/-- `TASK_RUN_TERMINAL_STATUSES`. -/
def terminal : TaskRunStatus → Bool
  | succeeded | failed | cancelled => true
  | _ => false

end TaskRunStatus

inductive TaskRunRetention
  | purgeOnTerminal | permanent
  deriving DecidableEq, Repr

/-- The columns of `task_runs` that an update writes or compares. -/
structure TaskRunRecord where
  runId : String
  status : TaskRunStatus
  retention : TaskRunRetention
  revision : Nat
  runtimeEpoch : Nat
  rootPid : Option String
  activePid : Option String
  pauseGeneration : Nat
  cancelGeneration : Nat
  bindingHash : Option String
  blockers : List Value
  requirementCount : Nat
  satisfiedRequirementCount : Nat
  stepCount : Nat
  completedStepCount : Nat
  resultRef : Option String
  updatedAt : String
  startedAt : Option String
  completedAt : Option String
  finalizedAt : Option String
  payloadsPurgedAt : Option String

def requireText (value : String) : Bool :=
  !(strip isSpace value.toList).isEmpty && !value.toList.contains '\x00'

namespace TaskRunRecord

/-- The checks of `__post_init__` on columns that an update writes; the others passed when the row
was inserted. -/
def valid (encoder : JsonEncoder) (run : TaskRunRecord) : Bool :=
  decide (run.satisfiedRequirementCount ≤ run.requirementCount) &&
    decide (run.completedStepCount ≤ run.stepCount) && run.rootPid.all requireText &&
    run.activePid.all requireText && run.bindingHash.all requireText &&
    (encoder.canonicalLength (.list run.blockers)).any (· ≤ 16384)

/-- The `CHECK` clauses of the table. -/
def checked (run : TaskRunRecord) : Bool :=
  decide (run.satisfiedRequirementCount ≤ run.requirementCount) &&
    decide (run.completedStepCount ≤ run.stepCount) &&
    (run.rootPid.isSome || run.status == .queued) &&
    (run.status.terminal == run.completedAt.isSome) &&
    (run.payloadsPurgedAt.isNone || run.status.terminal) &&
    (!run.status.terminal || run.retention == .permanent || run.payloadsPurgedAt.isSome)

end TaskRunRecord

/-! ## Updates -/

inductive TaskRunFault
  | validation | value | integrity | revisionConflict | commandConflict
  deriving DecidableEq, Repr

inductive TextColumn
  | rootPid | activePid | bindingHash | resultRef | startedAt | completedAt | finalizedAt
  | payloadsPurgedAt
  deriving DecidableEq, Repr

inductive CounterColumn
  | pauseGeneration | cancelGeneration | requirementCount | satisfiedRequirementCount | stepCount
  | completedStepCount
  deriving DecidableEq, Repr

/-- One entry of the `updates` mapping; `other` is a name outside `allowed`. -/
inductive TaskRunUpdate
  | status (value : String)
  | text (column : TextColumn) (value : Option String)
  | counter (column : CounterColumn) (value : Int)
  | blockers (value : List Value)
  | updatedAt (value : String)
  | other (name : String)

def TaskRunRecord.setText (run : TaskRunRecord) (value : Option String) :
    TextColumn → TaskRunRecord
  | .rootPid => { run with rootPid := value }
  | .activePid => { run with activePid := value }
  | .bindingHash => { run with bindingHash := value }
  | .resultRef => { run with resultRef := value }
  | .startedAt => { run with startedAt := value }
  | .completedAt => { run with completedAt := value }
  | .finalizedAt => { run with finalizedAt := value }
  | .payloadsPurgedAt => { run with payloadsPurgedAt := value }

def TaskRunRecord.setCounter (run : TaskRunRecord) (value : Nat) : CounterColumn → TaskRunRecord
  | .pauseGeneration => { run with pauseGeneration := value }
  | .cancelGeneration => { run with cancelGeneration := value }
  | .requirementCount => { run with requirementCount := value }
  | .satisfiedRequirementCount => { run with satisfiedRequirementCount := value }
  | .stepCount => { run with stepCount := value }
  | .completedStepCount => { run with completedStepCount := value }

namespace TaskRunUpdate

def allowed : TaskRunUpdate → Bool
  | .other _ => false
  | _ => true

/-- The row after one encoded assignment. -/
def assign (encoder : JsonEncoder) (run : TaskRunRecord) :
    TaskRunUpdate → Except TaskRunFault TaskRunRecord
  | .status value =>
      match TaskRunStatus.ofValue value with
      | some parsed => .ok { run with status := parsed }
      | none => .error .value
  | .text column value => .ok (run.setText value column)
  | .counter column value =>
      if 0 ≤ value then .ok (run.setCounter value.toNat column) else .error .validation
  | .blockers value =>
      if (encoder.canonicalLength (.list value)).isSome = true then
        .ok { run with blockers := value }
      else .error .value
  | .updatedAt value => .ok { run with updatedAt := value }
  | .other _ => .error .validation

end TaskRunUpdate

/-- What an update can never write. -/
def TaskRunRecord.identity (run : TaskRunRecord) : String × TaskRunRetention × Nat × Nat :=
  (run.runId, run.retention, run.revision, run.runtimeEpoch)

theorem setText_identity (run : TaskRunRecord) (value : Option String) (column : TextColumn) :
    (run.setText value column).identity = run.identity := by
  cases column <;> rfl

theorem setCounter_identity (run : TaskRunRecord) (value : Nat) (column : CounterColumn) :
    (run.setCounter value column).identity = run.identity := by
  cases column <;> rfl

theorem assign_identity {encoder : JsonEncoder} {run run' : TaskRunRecord} {update : TaskRunUpdate}
    (done : update.assign encoder run = .ok run') : run'.identity = run.identity := by
  cases update with
  | status value =>
      simp only [TaskRunUpdate.assign] at done
      split at done
      · cases done
        rfl
      · cases done
  | text column value =>
      cases done
      exact setText_identity run value column
  | counter column value =>
      simp only [TaskRunUpdate.assign] at done
      split_ifs at done
      cases done
      exact setCounter_identity run value.toNat column
  | blockers value =>
      simp only [TaskRunUpdate.assign] at done
      split_ifs at done
      cases done
      rfl
  | updatedAt value =>
      cases done
      rfl
  | other name => cases done

theorem assigns_identity {encoder : JsonEncoder} {updates : List TaskRunUpdate}
    {run run' : TaskRunRecord}
    (done : updates.foldlM (TaskRunUpdate.assign encoder) run = .ok run') :
    run'.identity = run.identity :=
  Library.Run.foldlM_keeps (I := fun row => row.identity = run.identity)
    (fun step same => (assign_identity step).trans same) done rfl

/-! ## Resume points, commands and the ledger -/

structure TaskRunResumePoint where
  runId : String
  pid : String
  taskRunEpoch : Nat
  processRevision : Nat
  contextGeneration : String
  safePointSeq : Nat
  bindingHash : String
  imageBindingHash : String
  toolBindingHash : String
  providerBindingHash : String
  transcriptPayloadId : String
  integritySha256 : Digest
  createdAt : String
  updatedAt : String
  summaryPayloadId : Option String
  pendingActionPayloadId : Option String
  lastEffectSeq : Nat
  complete : Bool
  deriving DecidableEq

structure TaskRunCommand where
  commandId : String
  clientRequestId : Option String
  runId : String
  commandKind : String
  requestHash : Digest
  result : Dict
  resultRevision : Nat
  createdAt : String

/-- The two commands are the same request. -/
def TaskRunCommand.sameRequest (left right : TaskRunCommand) : Bool :=
  left.commandId == right.commandId && left.clientRequestId == right.clientRequestId &&
    left.runId == right.runId && left.commandKind == right.commandKind &&
    decide (left.requestHash = right.requestHash)

/-- One of the two idempotency keys is the same. -/
def TaskRunCommand.sharesKey (left right : TaskRunCommand) : Bool :=
  left.commandId == right.commandId ||
    (right.clientRequestId.isSome && left.clientRequestId == right.clientRequestId)

inductive TaskRunLedgerKind
  | requirement | process | llmTurn | toolCall | humanWait | messageWait | checkpoint | effect
  | statusTransition
  deriving DecidableEq, Repr

structure TaskRunLedgerItem where
  itemId : String
  runId : String
  seq : Nat
  kind : TaskRunLedgerKind
  status : String
  label : String
  occurredAt : String
  requirementId : Option String
  pid : Option String
  operationId : Option String
  effectId : Option String
  humanRequestId : Option String
  llmCallId : Option String
  checkpointId : Option String
  objectTaskId : Option String
  payloadId : Option String
  metadata : Dict

/-- The items agree in everything except their place in the ledger. -/
def TaskRunLedgerItem.sameItem (left right : TaskRunLedgerItem) : Bool :=
  left.itemId == right.itemId && left.runId == right.runId && left.kind == right.kind &&
    left.status == right.status && left.label == right.label &&
    left.occurredAt == right.occurredAt && left.requirementId == right.requirementId &&
    left.pid == right.pid && left.operationId == right.operationId &&
    left.effectId == right.effectId && left.humanRequestId == right.humanRequestId &&
    left.llmCallId == right.llmCallId && left.checkpointId == right.checkpointId &&
    left.objectTaskId == right.objectTaskId && left.payloadId == right.payloadId &&
    Value.eq (.dict left.metadata) (.dict right.metadata)

end AgentLibOS.TaskRuns
