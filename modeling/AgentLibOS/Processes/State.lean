import AgentLibOS.Library.Text
import Mathlib.Data.List.Nodup

namespace AgentLibOS.Processes
open Library.Text

inductive ProcessStatus
  | created | runnable | running | waitingEvent | waitingTool | waitingHuman | paused | suspended
  | exited | failed | killed
  deriving DecidableEq, Repr

def ProcessStatus.terminal : ProcessStatus → Bool
  | .exited | .failed | .killed => true
  | _ => false

/-! ## Wait states -/

/-- A text that `_non_empty_string` returns. -/
structure Label where
  value : String
  filled : value.toList ≠ []
  stripped : strip isSpace value.toList = value.toList
  deriving DecidableEq

def nonEmptyString (value : String) : Option Label :=
  if filled : (String.ofList (strip isSpace value.toList)).toList ≠ [] then
    some ⟨String.ofList (strip isSpace value.toList), filled, by
      rw [String.toList_ofList, strip_strip]⟩
  else none

/-- A canonical SHA-256. -/
structure Digest where
  value : String
  canonical : (decide (value.length = 64) &&
    value.toList.all fun c => c ∈ "0123456789abcdef".toList) = true
  deriving DecidableEq

/-- The filters that a message wait carries; an absent one selects everything. -/
structure MessageFilters where
  kind : Option String
  sender : Option String
  channel : Option String
  correlationId : Option String
  replyTo : Option String
  messageIds : Option (List String)
  deriving DecidableEq, Repr

structure RequestIds where
  ids : List Label
  nonempty : ids ≠ []
  distinct : ids.Nodup
  deriving DecidableEq

/-- The receipt of a fenced stale execution, with hashed identities only. -/
structure StaleExecution where
  pid : Label
  recoveredByOwnerSha256 : Digest
  priorOwnerSha256 : Option Digest
  priorLeaseSha256 : Option Digest
  priorExecutionGeneration : Nat
  recoveredExecutionGeneration : Nat
  recoveredStateGeneration : Nat
  executionPositive : 0 < recoveredExecutionGeneration
  statePositive : 0 < recoveredStateGeneration
  deriving DecidableEq

inductive ProcessWaitState
  | child (childPid : Label)
  | message (filters : MessageFilters)
  | human (requestIds : RequestIds)
  | tool (operationId : Label)
  | paused (reasonOid : Option Label)
  | hostResume (reasonOid : Label)
  | staleExecution (receipt : StaleExecution)
  deriving DecidableEq

namespace ProcessWaitState

/-- `_CONDITION_WAIT_TYPES`. -/
def condition : ProcessWaitState → Bool
  | .child _ | .message _ | .human _ | .tool _ => true
  | _ => false

def stale : ProcessWaitState → Bool
  | .staleExecution _ => true
  | _ => false

end ProcessWaitState

inductive ProcessOutcome
  | exited (resultOid : Option Label)
  | failed (resultOid code : Option Label)
  | killed (reasonOid code : Option Label)
  deriving DecidableEq

/-! ## Status, wait state and outcome -/

def waitStateFits : ProcessStatus → Option ProcessWaitState → Bool
  | .waitingEvent, some (.child _) | .waitingEvent, some (.message _) => true
  | .waitingHuman, some (.human _) => true
  | .waitingTool, some (.tool _) => true
  | .paused, some (.paused _) | .paused, some (.hostResume _) |
    .paused, some (.staleExecution _) => true
  | .waitingEvent, _ | .waitingHuman, _ | .waitingTool, _ | .paused, _ => false
  | _, waitState => waitState.isNone

def outcomeFits : ProcessStatus → Option ProcessOutcome → Bool
  | .exited, some (.exited _) => true
  | .failed, some (.failed ..) => true
  | .killed, some (.killed ..) => true
  | .exited, _ | .failed, _ | .killed, _ => false
  | _, outcome => outcome.isNone

/-- `validate_process_state_fields`. -/
def validateProcessState (status : ProcessStatus) (waitState : Option ProcessWaitState)
    (outcome : Option ProcessOutcome) : Bool :=
  waitStateFits status waitState && outcomeFits status outcome

/-! ## Processes -/

/-- Fences the writes of one claimed scheduler quantum. -/
structure ProcessExecutionToken where
  pid : String
  generation : Nat
  ownerId : String
  leaseId : String
  taskRunEpoch : Option Nat
  deriving DecidableEq, Repr

/-- A row of `processes`; `fields` are the columns that a patch may set, the capabilities apart. -/
structure AgentProcess (δ : Type) where
  pid : String
  status : ProcessStatus
  waitState : Option ProcessWaitState
  outcome : Option ProcessOutcome
  stateGeneration : Nat
  revision : Nat
  executionGeneration : Nat
  executionOwnerId : Option String
  executionLeaseId : Option String
  taskRunId : Option String
  taskRunEpoch : Option Nat
  capabilities : List String
  fields : δ

namespace AgentProcess
variable {δ : Type}

/-- The part of a row that only a semantic transition may change. -/
def semantic (process : AgentProcess δ) :
    ProcessStatus × Option ProcessWaitState × Option ProcessOutcome :=
  (process.status, process.waitState, process.outcome)

def Valid (process : AgentProcess δ) : Prop :=
  validateProcessState process.status process.waitState process.outcome = true

end AgentProcess

structure Transition where
  status : ProcessStatus
  waitState : Option ProcessWaitState
  outcome : Option ProcessOutcome

/-- What `apply_process_state_transition` patches. -/
def Transition.patch {δ : Type} (transition : Transition) (current : AgentProcess δ) : AgentProcess δ :=
  { current with
    status := transition.status
    waitState := transition.waitState
    outcome := transition.outcome
    stateGeneration := current.stateGeneration + 1 }

@[simp] theorem Transition.patch_pid {δ : Type} (transition : Transition)
    (current : AgentProcess δ) : (transition.patch current).pid = current.pid := rfl

end AgentLibOS.Processes
