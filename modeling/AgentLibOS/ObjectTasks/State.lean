import AgentLibOS.Library.Assoc
import AgentLibOS.Messages.Manager

namespace AgentLibOS.ObjectTasks
open Library Library.Run Processes Messages

/-! ## Records -/

inductive ObjectTaskStatus
  | queued | running | waitingHuman | waitingProcess | waitingMessage | succeeded | failed | cancelled
  | abandoned | supersededByRestore | resultUnavailableAfterReopen
  deriving DecidableEq, Repr

namespace ObjectTaskStatus

def value : ObjectTaskStatus → String
  | .queued => "queued"
  | .running => "running"
  | .waitingHuman => "waiting_human"
  | .waitingProcess => "waiting_process"
  | .waitingMessage => "waiting_message"
  | .succeeded => "succeeded"
  | .failed => "failed"
  | .cancelled => "cancelled"
  | .abandoned => "abandoned"
  | .supersededByRestore => "superseded_by_restore"
  | .resultUnavailableAfterReopen => "result_unavailable_after_reopen"

/-- `OBJECT_TASK_TERMINAL_STATUSES`. -/
def terminal : ObjectTaskStatus → Bool
  | .queued | .running | .waitingHuman | .waitingProcess | .waitingMessage => false
  | _ => true

/-- `_WAITING_NOTIFICATION_STATUSES`. -/
def waiting : ObjectTaskStatus → Bool
  | .waitingHuman | .waitingProcess | .waitingMessage => true
  | _ => false

end ObjectTaskStatus

inductive NotificationPhase
  | waiting | completed | failed | cancelled | abandoned | resultUnavailableAfterReopen
  deriving DecidableEq, Repr

def NotificationPhase.value : NotificationPhase → String
  | .waiting => "waiting"
  | .completed => "completed"
  | .failed => "failed"
  | .cancelled => "cancelled"
  | .abandoned => "abandoned"
  | .resultUnavailableAfterReopen => "result_unavailable_after_reopen"

/-- `_TERMINAL_NOTIFICATION_PHASES`. -/
def terminalPhase : ObjectTaskStatus → Option NotificationPhase
  | .succeeded => some .completed
  | .failed => some .failed
  | .cancelled => some .cancelled
  | .abandoned => some .abandoned
  | .resultUnavailableAfterReopen => some .resultUnavailableAfterReopen
  | _ => none

/-- `_phase_for_status`. -/
def phaseForStatus (status : ObjectTaskStatus) : Option NotificationPhase :=
  match terminalPhase status with
  | some phase => some phase
  | none => if status.waiting then some .waiting else none

inductive ObjectTaskNotificationStatus
  | none | delivered | undeliveredTerminal | failed
  deriving DecidableEq, Repr

structure ObjectTaskOwnerWatch where
  enabled : Bool
  events : List String
  kind : String
  channel : String
  deriving DecidableEq

structure ObjectTaskNotification where
  recipientPid : Option String
  kind : String
  channel : String
  subject : Option String
  messageId : Option String
  status : ObjectTaskNotificationStatus
  error : Option String
  deriving DecidableEq

/-- A value of the `wait` dictionary; `other` is one that nothing here reads. -/
inductive WaitValue (V : Type)
  | text (value : String) | null | flag (value : Bool) | other (value : V)

abbrev Wait (V : Type) := List (String × WaitValue V)

def Wait.set {V : Type} (wait : Wait V) (changes : List (String × WaitValue V)) : Wait V :=
  changes.foldl (fun wait change => Assoc.put wait change.1 change.2) wait

def WaitValue.ofOption {V : Type} : Option String → WaitValue V
  | some value => .text value
  | none => .null

structure ObjectTask (V : Type) where
  taskId : String
  ownerOid : String
  creatorPid : String
  runnerPid : Option String
  tool : String
  toolId : Option String
  status : ObjectTaskStatus
  notification : ObjectTaskNotification
  ownerWatch : ObjectTaskOwnerWatch
  resultOid : Option String
  error : Option String
  wait : Wait V
  createdAt : String
  updatedAt : String
  startedAt : Option String
  completedAt : Option String

/-- The payload of a task's message. -/
structure NotificationPayload (V : Type) where
  type : String
  phase : String
  taskId : String
  ownerOid : String
  tool : String
  status : String
  resultOid : Option String
  error : Option String
  wait : Wait V

variable {V δ : Type}

/-! ## The store -/

/-- The rows of `object_tasks`, and the payload column that `MessageStore` leaves out. -/
structure TaskStore (V δ : Type) where
  base : MessageStore δ
  payloads : String → Option (NotificationPayload V)
  tasks : List (ObjectTask V)

namespace TaskStore

def empty : TaskStore V δ := ⟨.empty, fun _ => none, []⟩

def getObjectTask (store : TaskStore V δ) (taskId : String) : Option (ObjectTask V) :=
  store.tasks.find? fun row => row.taskId = taskId

/-- `update_object_task`, which changes no row when there is none. -/
def updateObjectTask (store : TaskStore V δ) (task : ObjectTask V) : TaskStore V δ :=
  { store with tasks := store.tasks.map fun row => if row.taskId = task.taskId then task else row }

def getProcessMessage (store : TaskStore V δ) (messageId : String) : Option ProcessMessage :=
  store.base.messages.find? fun message => message.messageId = messageId

end TaskStore

inductive TaskFault
  | notFound | capabilityDenied | process (fault : ProcessFault) | other
  deriving DecidableEq, Repr

/-- `except (CapabilityDenied, ProcessError)`; a revision conflict is a `ProcessError`. -/
def TaskFault.refusal : TaskFault → Bool
  | .capabilityDenied | .process .process | .process .revisionConflict => true
  | _ => false

def liftFault {α : Type} (result : Except ProcessFault α) : Except TaskFault α :=
  result.mapError .process

/-! ## Notifications -/

/-- What one notification draws, and what becomes of it outside the tasks: `denied` when the
recipient may not see the labels, `diagnosis` and `settlement` what the two handlers record (`none`
when they fail too), `commits` whether the transaction commits. -/
structure NotifyAttempt (δ : Type) where
  ambient : Ambient δ
  messageId : String
  now : String
  denied : Bool
  admits : Bool
  diagnosis : Option String
  settlement : Option String
  commits : Bool

def taskSender (taskId : String) : String := "object_task:" ++ taskId

/-- `begin_phase`. -/
def beginPhase (task : ObjectTask V) : ObjectTask V :=
  { task with notification := { task.notification with messageId := none, status := .none, error := none } }

def notificationPayload (task : ObjectTask V) (phase : NotificationPhase) : NotificationPayload V where
  type := "object_task"
  phase := phase.value
  taskId := task.taskId
  ownerOid := task.ownerOid
  tool := task.tool
  status := task.status.value
  resultOid := task.resultOid
  error := task.error
  wait := task.wait

/-- `_delivered_message_matches_phase`. -/
def deliveredMessageMatchesPhase (store : TaskStore V δ) (task : ObjectTask V)
    (phase : NotificationPhase) : Bool :=
  let notification := task.notification
  if notification.status ≠ .delivered then false
  else
    match notification.messageId, notification.recipientPid with
    | some messageId, some recipientPid =>
        match store.getProcessMessage messageId with
        | none => false
        | some message =>
            decide (message.sender = taskSender task.taskId) &&
              decide (message.recipientPid = recipientPid) &&
              decide (message.correlationId = some task.taskId) &&
              (store.payloads messageId).any fun payload =>
                decide (payload.type = "object_task") && decide (payload.taskId = task.taskId) &&
                  decide (payload.phase = phase.value) && decide (payload.status = task.status.value)
    | _, _ => false

section
variable [DecidableEq δ] (config : MessageConfig)

/-- `ProcessMessageManager.post`, with the labels that may deny the recipient. -/
def postNotification (store : TaskStore V δ) (attempt : NotifyAttempt δ) (task : ObjectTask V)
    (phase : NotificationPhase) (recipientPid : String) : Except TaskFault (TaskStore V δ) := do
  let recipient ← liftFault (store.base.requireProcess recipientPid)
  ensure (recipient.status.terminal = false) (.process .process)
  ensure (attempt.denied = false) .capabilityDenied
  let base ← liftFault (Messages.post config store.base attempt.ambient
    { messageId := attempt.messageId
      sender := taskSender task.taskId
      recipientPid := recipientPid
      kind := task.notification.kind
      channel := task.notification.channel
      correlationId := some task.taskId
      replyTo := none
      createdAt := attempt.now
      admits := attempt.admits })
  .ok { store with
    base := base
    payloads := Function.update store.payloads attempt.messageId (some (notificationPayload task phase)) }

/-- The recipient has ended. -/
def recipientEnded (store : TaskStore V δ) (recipientPid : String) : Bool :=
  (store.base.processes.rows recipientPid).any fun process => process.status.terminal

/-- `_notify_in_transaction`. -/
def notifyInTransaction (store : TaskStore V δ) (attempt : NotifyAttempt δ) (task : ObjectTask V)
    (phase : NotificationPhase) : Except TaskFault (TaskStore V δ × ObjectTask V) :=
  match task.notification.recipientPid with
  | none => .ok (store, task)
  | some recipientPid =>
      match postNotification config store attempt task phase recipientPid with
      | .ok posted =>
          let updated := { task with
            notification := { task.notification with
              messageId := some attempt.messageId
              status := .delivered
              error := none }
            updatedAt := attempt.now }
          .ok (posted.updateObjectTask updated, updated)
      | .error fault =>
          if fault.refusal then
            match attempt.diagnosis with
            | none => .error .other
            | some error =>
                let updated := { task with
                  notification := { task.notification with
                    status := if recipientEnded store recipientPid then .undeliveredTerminal else .failed
                    error := some error }
                  updatedAt := attempt.now }
                .ok (store.updateObjectTask updated, updated)
          else .error fault

/-- The slot may be told: `NONE` or `FAILED`. -/
def ObjectTaskNotificationStatus.pending : ObjectTaskNotificationStatus → Bool
  | .none | .failed => true
  | _ => false

/-- `notify`. -/
def notify (store : TaskStore V δ) (attempt : NotifyAttempt δ) (task : ObjectTask V)
    (phase : NotificationPhase) : Except TaskFault (TaskStore V δ × ObjectTask V) :=
  let latest := (store.getObjectTask task.taskId).getD task
  if phaseForStatus latest.status ≠ some phase then .ok (store, latest)
  else if latest.notification.status.pending = false then .ok (store, latest)
  else notifyInTransaction config store attempt latest phase

/-- What the transaction of `_notify_terminal_locked` does. -/
def publishSlot (store : TaskStore V δ) (attempt : NotifyAttempt δ) (latest : ObjectTask V)
    (selectedPhase : NotificationPhase) : Except TaskFault (TaskStore V δ × ObjectTask V) :=
  if latest.notification.status = .delivered then
    if deliveredMessageMatchesPhase store latest selectedPhase then .ok (store, latest)
    else
      -- A legacy slot that was delivered for another phase.
      notify config (store.updateObjectTask (beginPhase latest)) attempt (beginPhase latest) selectedPhase
  else if latest.notification.status.pending = false then .ok (store, latest)
  else notify config store attempt latest selectedPhase

def publishTerminal (store : TaskStore V δ) (attempt : NotifyAttempt δ) (latest : ObjectTask V)
    (selectedPhase : NotificationPhase) : Except TaskFault (TaskStore V δ × ObjectTask V) := do
  let published ← publishSlot config store attempt latest selectedPhase
  ensure (attempt.commits = true) .other
  .ok published

/-- The handler of `_notify_terminal_locked`. -/
def settleFailure (store : TaskStore V δ) (attempt : NotifyAttempt δ) (latest : ObjectTask V)
    (selectedPhase : NotificationPhase) : Except TaskFault (TaskStore V δ × ObjectTask V) :=
  if deliveredMessageMatchesPhase store latest selectedPhase then .ok (store, latest)
  else
    match attempt.settlement with
    | none => .error .other
    | some error =>
        let updated := { latest with
          notification := { latest.notification with
            messageId := none
            status := .failed
            error := some error }
          updatedAt := attempt.now }
        .ok (store.updateObjectTask updated, updated)

/-- `notify_terminal`, also `retry_terminal`: the phase is that of the stored row. -/
def notifyTerminal (store : TaskStore V δ) (attempt : NotifyAttempt δ) (task : ObjectTask V) :
    Except TaskFault (TaskStore V δ × ObjectTask V) :=
  let latest := (store.getObjectTask task.taskId).getD task
  match terminalPhase latest.status, latest.notification.recipientPid with
  | some selectedPhase, some _ =>
      match publishTerminal config store attempt latest selectedPhase with
      | .ok published => .ok published
      | .error _ => settleFailure store attempt latest selectedPhase
  | _, _ => .ok (store, latest)

end

/-! ## Transitions -/

/-- The row that the transition of a task writes, unless the task has ended. -/
def changeActive (store : TaskStore V δ) (task : ObjectTask V) (next : ObjectTask V → ObjectTask V) :
    TaskStore V δ × ObjectTask V :=
  if task.status.terminal then (store, task)
  else (store.updateObjectTask (next task), next task)

def requireTask (store : TaskStore V δ) (taskId : String) : Except TaskFault (ObjectTask V) :=
  match store.getObjectTask taskId with
  | none => .error .notFound
  | some task => .ok task

/-- The wait of a queued task's runner names the task itself. -/
def ownsInitialWait (task : ObjectTask V) (process : AgentProcess δ) : Bool :=
  decide (task.status = .queued) && decide (process.status = .waitingTool) &&
    match process.waitState with
    | some (.tool operationId) => decide (operationId.value = task.taskId)
    | _ => false

def ownsResumedRunner (task : ObjectTask V) (process : AgentProcess δ) : Bool :=
  task.status.waiting && decide (process.status = .runnable) && process.waitState.isNone

section
variable [DecidableEq δ]

/-- `set_runner_status` to running. -/
def setRunnerRunning (store : MessageStore δ) (ambient : Ambient δ) (task : ObjectTask V)
    (runnerPid : String) : Except TaskFault (MessageStore δ) := do
  match ← liftFault (store.getProcess runnerPid) with
  | none => .ok store
  | some process =>
      if process.status.terminal then .ok store
      else do
        ensure (process.executionOwnerId = none ∧ process.executionLeaseId = none ∧
          (ownsInitialWait task process || ownsResumedRunner task process) = true) (.process .process)
        let processes ← liftFault (transition store.processes ambient runnerPid ⟨.running, none, none⟩
          process.revision (some process.status) (some process.stateGeneration) none none)
        .ok { store with processes := processes }

/-- `mark_running`. -/
def markRunning (store : TaskStore V δ) (ambient : Ambient δ) (taskId now : String) :
    Except TaskFault (TaskStore V δ × ObjectTask V) := do
  let latest ← requireTask store taskId
  if latest.status.terminal then .ok (store, latest)
  else
    let base ← latest.runnerPid.elim (.ok store.base) (setRunnerRunning store.base ambient latest)
    let updated := { latest with
      status := .running
      startedAt := some (latest.startedAt.getD now)
      updatedAt := now }
    .ok ({ store with base := base }.updateObjectTask updated, updated)

end

/-- The transaction of `mark_succeeded`. -/
def markSucceeded (store : TaskStore V δ) (taskId : String) (resultOid : Option String) (now : String) :
    Except TaskFault (TaskStore V δ × ObjectTask V) := do
  let task ← requireTask store taskId
  .ok (changeActive store task fun task => beginPhase { task with
    status := .succeeded
    resultOid := resultOid
    error := none
    updatedAt := now
    completedAt := some now })

/-- The transaction of `mark_failed`. -/
def markFailed (store : TaskStore V δ) (taskId error now : String) :
    Except TaskFault (TaskStore V δ × ObjectTask V) := do
  let task ← requireTask store taskId
  .ok (changeActive store task fun task => beginPhase { task with
    status := .failed
    error := some error
    updatedAt := now
    completedAt := some now })

/-- The statuses that `mark_waiting` is called with. -/
inductive WaitKind
  | human | process | message
  deriving DecidableEq

def WaitKind.status : WaitKind → ObjectTaskStatus
  | .human => .waitingHuman
  | .process => .waitingProcess
  | .message => .waitingMessage

/-- `mark_waiting`. -/
def markWaiting (store : TaskStore V δ) (taskId : String) (kind : WaitKind) (wait : Wait V)
    (message now : String) : Except TaskFault (TaskStore V δ × ObjectTask V) := do
  let task ← requireTask store taskId
  .ok (changeActive store task fun task => beginPhase { task with
    status := kind.status
    wait := wait
    error := some message
    updatedAt := now })

/-- The transaction of `mark_cancelled`; `runner` is what ends the runner. -/
def markCancelled (store : TaskStore V δ) (taskId reason now : String)
    (runner : MessageStore δ → Except TaskFault (MessageStore δ)) :
    Except TaskFault (TaskStore V δ × ObjectTask V) := do
  let latest ← requireTask store taskId
  if latest.status.terminal then .ok (store, latest)
  else
    let updated := beginPhase { latest with
      status := .cancelled
      error := some reason
      updatedAt := now
      completedAt := some now }
    let base ← (if updated.runnerPid.isSome then runner store.base else .ok store.base)
    .ok ({ store with base := base }.updateObjectTask updated, updated)

/-! ## Reopening and restoring -/

/-- The transaction of `_recover_active_tasks` for one task that was read with `expectedStatus`. -/
def abandonAfterReopen (store : TaskStore V δ) (taskId : String) (expectedStatus : ObjectTaskStatus)
    (now : String) (runner : MessageStore δ → Except TaskFault (MessageStore δ)) :
    Except TaskFault (Option (TaskStore V δ × ObjectTask V)) :=
  match store.getObjectTask taskId with
  | none => .ok none
  | some task =>
      if task.status ≠ expectedStatus then .ok none
      else do
        let updated := beginPhase { task with
          status := .abandoned
          error := some "runtime reopened before object task completed"
          updatedAt := now
          completedAt := some now }
        let base ← (if updated.runnerPid.isSome then runner store.base else .ok store.base)
        .ok (some ({ store with base := base }.updateObjectTask updated, updated))

/-- The transaction of `_recover_missing_result`, for a task that was read as `read`. -/
def markResultUnavailable (store : TaskStore V δ) (read : ObjectTask V) (resultOid now : String) :
    Option (TaskStore V δ × ObjectTask V) :=
  match store.getObjectTask read.taskId with
  | none => none
  | some task =>
      if task.status = .succeeded ∧ task.resultOid = some resultOid then
        let updated := beginPhase { task with
          status := .resultUnavailableAfterReopen
          resultOid := none
          error := some ("result unavailable after runtime reopen: runtime-only Object " ++
            "payload was not reconstructable")
          wait := read.wait.set
            [("result_unavailable_after_reopen", .flag true), ("result_unavailable_at", .text now),
              ("previous_status", .text read.status.value), ("previous_result_oid", .text resultOid),
              ("previous_error", .ofOption read.error)]
          updatedAt := now }
        some (store.updateObjectTask updated, updated)
      else none

/-- One task of `supersede_object_tasks_after_checkpoint`. -/
def supersede (store : TaskStore V δ) (task : ObjectTask V) (checkpointId now : String) : TaskStore V δ :=
  store.updateObjectTask { task with
    runnerPid := none
    status := .supersededByRestore
    resultOid := none
    error := some ("superseded by checkpoint restore " ++ checkpointId)
    wait := task.wait.set
      [("superseded_by_restore", .text checkpointId), ("superseded_at", .text now),
        ("previous_status", .text task.status.value), ("previous_runner_pid", .ofOption task.runnerPid),
        ("previous_result_oid", match task.resultOid with
          | some oid => .text oid
          | none => (Assoc.get task.wait "previous_result_oid").getD .null),
        ("previous_error", .ofOption task.error)]
    updatedAt := now }

/-- `task.wait.get(key)` as a text. -/
def waitText (task : ObjectTask V) (key : String) : Option String :=
  match Assoc.get task.wait key with
  | some (.text value) => some value
  | _ => none

/-- One task of `reconcile_restored_object_task_results`; `available` are the snapshot's objects that
are stored again. -/
def reconcileRestored (store : TaskStore V δ) (task : ObjectTask V) (checkpointId now : String)
    (available : List String) : TaskStore V δ :=
  match waitText task "previous_status", waitText task "previous_result_oid" with
  | some previousStatus, some previousResultOid =>
      if previousStatus = ObjectTaskStatus.succeeded.value ∧ previousResultOid ∈ available then
        store.updateObjectTask { task with
          status := .succeeded
          resultOid := some previousResultOid
          error := waitText task "previous_error"
          wait := task.wait.set
            [("result_restored_by_checkpoint", .text checkpointId), ("result_restored_at", .text now)]
          updatedAt := now }
      else store
  | _, _ => store

end AgentLibOS.ObjectTasks
