import AgentLibOS.ObjectTasks.Changes

namespace AgentLibOS.ObjectTasks
open Library Library.Run Processes Messages

variable {V δ : Type}

/-! ## Actions -/

/-- What ends a runner: events outside the tasks. -/
structure RunnerCleanup (δ : Type) where
  events : List (MessageEvent δ)
  foreign : ∀ event ∈ events, Foreign event

/-- A task as `start` inserts it. -/
def queuedTask (taskId ownerOid creatorPid : String) (runnerPid : Option String) (tool : String)
    (toolId : Option String) (notifyPid kind channel : String) (ownerWatch : ObjectTaskOwnerWatch)
    (now : String) : ObjectTask V where
  taskId := taskId
  ownerOid := ownerOid
  creatorPid := creatorPid
  runnerPid := runnerPid
  tool := tool
  toolId := toolId
  status := .queued
  notification := ⟨some notifyPid, kind, channel, none, none, .none, none⟩
  ownerWatch := ownerWatch
  resultOid := none
  error := none
  wait := []
  createdAt := now
  updatedAt := now
  startedAt := none
  completedAt := none

/-- The transactions on the tasks, in any order: a `mark_` call and the notification after it are two,
so that a crash or another call may come between them. -/
inductive TaskAction (V δ : Type)
  | start (taskId ownerOid creatorPid : String) (runnerPid : Option String) (tool : String)
      (toolId : Option String) (notifyPid kind channel : String) (ownerWatch : ObjectTaskOwnerWatch)
      (now : String)
  | outside (event : MessageEvent δ) (foreign : Foreign event) (payload : Option (NotificationPayload V))
  | watchOwner (taskId : String) (ownerWatch : ObjectTaskOwnerWatch) (now : String)
  | markRunning (ambient : Ambient δ) (taskId now : String)
  | markWaiting (taskId : String) (kind : WaitKind) (wait : Wait V) (message now : String)
  | markSucceeded (taskId : String) (resultOid : Option String) (now : String)
  | markFailed (taskId error now : String)
  | markCancelled (taskId reason now : String) (runner : RunnerCleanup δ)
  | abandon (taskId : String) (expectedStatus : ObjectTaskStatus) (active : expectedStatus.terminal = false)
      (now : String) (runner : RunnerCleanup δ)
  | resultUnavailable (read : ObjectTask V) (resultOid now : String)
  | notify (attempt : NotifyAttempt δ) (task : ObjectTask V) (phase : NotificationPhase)
  | notifyTerminal (attempt : NotifyAttempt δ) (task : ObjectTask V)
  | supersede (taskId checkpointId now : String)
  | reconcile (taskId checkpointId now : String) (available : List String)

namespace TaskAction

/-- The action is of a checkpoint restore that brings results back. -/
def restores : TaskAction V δ → Prop
  | .reconcile .. => True
  | _ => False

end TaskAction

/-- The payload column after an event. -/
def outsidePayloads (payloads : String → Option (NotificationPayload V)) (payload : Option (NotificationPayload V)) :
    MessageEvent δ → String → Option (NotificationPayload V)
  | .post _ request => Function.update payloads request.messageId payload
  | _ => payloads

namespace TaskStore

/-- The entry that a transition of an active task makes. -/
def activeEntry (store : TaskStore V δ) (taskId : String) (phase : NotificationPhase) :
    List (String × NotificationPhase) :=
  if (store.getObjectTask taskId).any fun task => !task.status.terminal then [(taskId, phase)] else []

section
variable [DecidableEq δ] (config : MessageConfig) (sha256 : String → Digest)

def cleanup (runner : RunnerCleanup δ) (base : MessageStore δ) : Except TaskFault (MessageStore δ) :=
  liftFault (runner.events.foldlM (MessageStore.exec config sha256) base)

/-- The store after an action that returns, and the phases that it enters. -/
def exec (store : TaskStore V δ) :
    TaskAction V δ → Except TaskFault (TaskStore V δ × List (String × NotificationPhase))
  | .start taskId ownerOid creatorPid runnerPid tool toolId notifyPid kind channel ownerWatch now => do
      ensure (store.getObjectTask taskId = none) .other
      .ok ({ store with
        tasks := store.tasks ++ [queuedTask taskId ownerOid creatorPid runnerPid tool toolId notifyPid kind
          channel ownerWatch now] }, [])
  | .outside event _ payload => do
      let base ← liftFault (store.base.exec config sha256 event)
      .ok ({ store with base := base, payloads := outsidePayloads store.payloads payload event }, [])
  | .watchOwner taskId ownerWatch now => do
      let task ← requireTask store taskId
      ensure (task.status.terminal = false) .other
      .ok (store.updateObjectTask { task with ownerWatch := ownerWatch, updatedAt := now }, [])
  | .markRunning ambient taskId now =>
      (markRunning store ambient taskId now).map fun done => (done.1, [])
  | .markWaiting taskId kind wait message now =>
      (markWaiting store taskId kind wait message now).map fun done =>
        (done.1, store.activeEntry taskId .waiting)
  | .markSucceeded taskId resultOid now =>
      (markSucceeded store taskId resultOid now).map fun done => (done.1, store.activeEntry taskId .completed)
  | .markFailed taskId error now =>
      (markFailed store taskId error now).map fun done => (done.1, store.activeEntry taskId .failed)
  | .markCancelled taskId reason now runner =>
      (markCancelled store taskId reason now (cleanup config sha256 runner)).map fun done =>
        (done.1, store.activeEntry taskId .cancelled)
  | .abandon taskId expectedStatus _ now runner =>
      (abandonAfterReopen store taskId expectedStatus now (cleanup config sha256 runner)).map fun done =>
        match done with
        | none => (store, [])
        | some done => (done.1, [(taskId, .abandoned)])
  | .resultUnavailable read resultOid now =>
      match markResultUnavailable store read resultOid now with
      | none => .ok (store, [])
      | some done => .ok (done.1, [(read.taskId, .resultUnavailableAfterReopen)])
  | .notify attempt task phase => do
      ensure ((store.getObjectTask task.taskId).isSome = true) .notFound
      let done ← notify config store attempt task phase
      .ok (done.1, [])
  | .notifyTerminal attempt task => do
      ensure ((store.getObjectTask task.taskId).isSome = true) .notFound
      let done ← notifyTerminal config store attempt task
      .ok (done.1, [])
  | .supersede taskId checkpointId now => do
      let task ← requireTask store taskId
      ensure (task.status.terminal = true ∧ task.status ≠ .supersededByRestore) .other
      .ok (supersede store task checkpointId now, [])
  | .reconcile taskId checkpointId now available => do
      let task ← requireTask store taskId
      ensure (task.status = .resultUnavailableAfterReopen) .other
      .ok (reconcileRestored store task checkpointId now available,
        if waitText task "previous_status" = some ObjectTaskStatus.succeeded.value ∧
            (waitText task "previous_result_oid").any (· ∈ available) then [(taskId, .completed)] else [])

/-- A call that fails leaves the store as it was. -/
def step (state : TaskStore V δ × List (String × NotificationPhase)) (action : TaskAction V δ) :
    TaskStore V δ × List (String × NotificationPhase) :=
  match exec config sha256 state.1 action with
  | .ok (store, entered) => (store, state.2 ++ entered)
  | .error _ => state

/-- The store after some actions, and the phases that they entered. -/
def after (actions : List (TaskAction V δ)) : TaskStore V δ × List (String × NotificationPhase) :=
  actions.foldl (step config sha256) (empty, [])

end
end TaskStore

/-! ## Actions are changes -/

section
variable [DecidableEq δ] {config : MessageConfig} {sha256 : String → Digest} {restoring : Prop}
  {store : TaskStore V δ}

omit [DecidableEq δ] in
theorem requireTask_ok {taskId : String} {task : ObjectTask V} (found : requireTask store taskId = .ok task) :
    store.getObjectTask taskId = some task := by
  rw [requireTask] at found
  cases stored : store.getObjectTask taskId with
  | none =>
      rw [stored] at found
      cases found
  | some row =>
      rw [stored] at found
      cases found
      rfl

omit [DecidableEq δ] in
theorem found_self {taskId : String} {task : ObjectTask V} (found : store.getObjectTask taskId = some task) :
    store.getObjectTask task.taskId = some task := by
  rw [getObjectTask_taskId found]
  exact found

omit [DecidableEq δ] in
theorem activeEntry_eq {taskId : String} {task : ObjectTask V} (found : store.getObjectTask taskId = some task)
    (phase : NotificationPhase) : store.activeEntry taskId phase =
      if task.status.terminal then [] else [(task.taskId, phase)] := by
  rw [TaskStore.activeEntry, found, getObjectTask_taskId found, Option.any_some]
  cases task.status.terminal <;> rfl

omit [DecidableEq δ] in
/-- A transition of an active task enters its phase. -/
theorem changeActive_changes {taskId : String} {task : ObjectTask V}
    (found : store.getObjectTask taskId = some task) {next : ObjectTask V → ObjectTask V}
    {phase : NotificationPhase} (same : SameTask task (next task)) (reset : (next task).notification.status = .none)
    (entered : phaseForStatus (next task).status = some phase)
    (moved : task.status.terminal = false → moves task.status (next task).status = true) :
    Changes restoring store (store.activeEntry taskId phase) (changeActive store task next).1 := by
  rw [activeEntry_eq found, changeActive]
  cases ended : task.status.terminal with
  | true => exact .refl
  | false => exact .single (.enter (found_self found) same (moved ended) entered reset)

theorem postNotification_ok {attempt : NotifyAttempt δ} {task : ObjectTask V} {phase : NotificationPhase}
    {recipientPid : String} {posted : TaskStore V δ}
    (done : postNotification config store attempt task phase recipientPid = .ok posted) : ∃ message,
      Posted store posted message (some (notificationPayload task phase)) ∧
      message.messageId = attempt.messageId ∧ message.sender = taskSender task.taskId ∧
      message.recipientPid = recipientPid ∧ message.correlationId = some task.taskId := by
  simp only [postNotification, bind_eq_ok] at done
  obtain ⟨recipient, -, -, -, -, -, base, sent, done⟩ := done
  cases done
  obtain ⟨message, messages, fresh, id, sender, to_, correlation⟩ := post_ok (liftFault_ok.mp sent)
  have id' : message.messageId = attempt.messageId := id
  exact ⟨message, ⟨messages, fresh, by rw [id'], rfl⟩, id', sender, to_, correlation⟩

omit [DecidableEq δ] in
/-- The slot that a posted message fills names it. -/
theorem posted_matches {before after : TaskStore V δ} {message : ProcessMessage} {task task' : ObjectTask V}
    {phase : NotificationPhase} (posted : Posted before after message (some (notificationPayload task phase)))
    (sender : message.sender = taskSender task.taskId) (correlation : message.correlationId = some task.taskId)
    (same : SameTask task task') (status : task'.status = task.status)
    (recipient : task'.notification.recipientPid = some message.recipientPid)
    (delivered : task'.notification.status = .delivered)
    (slot : task'.notification.messageId = some message.messageId) :
    deliveredMessageMatchesPhase after task' phase = true := by
  rw [deliveredMessageMatchesPhase_iff]
  refine ⟨delivered, message.messageId, message.recipientPid, message, notificationPayload task phase, slot,
    recipient, posted.getProcessMessage_new, ?_, rfl, ?_, ?_, rfl, same.taskId.symm, rfl, ?_⟩
  · rw [same.taskId]
    exact sender
  · rw [same.taskId]
    exact correlation
  · rw [posted.payloads, Function.update_self]
  · rw [status]
    rfl

theorem notifyInTransaction_changes {attempt : NotifyAttempt δ} {task : ObjectTask V}
    {phase : NotificationPhase} {result : TaskStore V δ × ObjectTask V}
    (found : store.getObjectTask task.taskId = some task) (told : phaseForStatus task.status = some phase)
    (unmatched : deliveredMessageMatchesPhase store task phase = false)
    (done : notifyInTransaction config store attempt task phase = .ok result) :
    Changes restoring store [] result.1 := by
  rw [notifyInTransaction] at done
  cases recipient : task.notification.recipientPid with
  | none =>
      rw [recipient] at done
      cases done
      exact .refl
  | some recipientPid =>
      rw [recipient] at done
      simp only [] at done
      cases attempted : postNotification config store attempt task phase recipientPid with
      | ok posted =>
          rw [attempted] at done
          cases done
          obtain ⟨message, posts, id, sender, to_, correlation⟩ := postNotification_ok attempted
          refine .single (.tell found ⟨rfl, rfl, rfl, rfl, rfl, rfl⟩ rfl told unmatched posts sender ?_)
          exact posted_matches posts sender correlation ⟨rfl, rfl, rfl, rfl, rfl, rfl⟩ rfl
            (recipient.trans (congrArg some to_.symm)) rfl (congrArg some id.symm)
      | error fault =>
          rw [attempted] at done
          simp only [] at done
          by_cases refused : fault.refusal = true
          · rw [if_pos refused] at done
            cases diagnosed : attempt.diagnosis with
            | none =>
                rw [diagnosed] at done
                cases done
            | some error =>
                rw [diagnosed] at done
                cases done
                refine .single (.slot found ⟨rfl, rfl, rfl, rfl, rfl, rfl⟩ rfl ?_ ?_)
                · intro other owes
                  rw [told] at owes
                  cases owes
                  exact unmatched
                · change (if recipientEnded store recipientPid then ObjectTaskNotificationStatus.undeliveredTerminal
                    else .failed) ≠ .delivered
                  split_ifs <;> decide
          · rw [if_neg refused] at done
            cases done

omit [DecidableEq δ] in
/-- A slot that is pending names no message. -/
theorem pending_unmatched {task : ObjectTask V} (pending : task.notification.status.pending = true)
    (phase : NotificationPhase) : deliveredMessageMatchesPhase store task phase = false := by
  rw [Bool.eq_false_iff]
  intro matched
  rw [(deliveredMessageMatchesPhase_iff.mp matched).1] at pending
  cases pending

theorem notify_changes {attempt : NotifyAttempt δ} {task latest : ObjectTask V} {phase : NotificationPhase}
    {result : TaskStore V δ × ObjectTask V} (found : store.getObjectTask task.taskId = some latest)
    (done : notify config store attempt task phase = .ok result) : Changes restoring store [] result.1 := by
  rw [notify, found, Option.getD_some] at done
  split_ifs at done with other settled
  · cases done
    exact .refl
  · cases done
    exact .refl
  · have told := not_not.mp other
    have pending : latest.notification.status.pending = true := by simpa using settled
    exact notifyInTransaction_changes (found_self found) told (pending_unmatched pending phase) done

theorem publishSlot_changes {attempt : NotifyAttempt δ} {latest : ObjectTask V} {phase : NotificationPhase}
    {result : TaskStore V δ × ObjectTask V} (found : store.getObjectTask latest.taskId = some latest)
    (told : phaseForStatus latest.status = some phase)
    (done : publishSlot config store attempt latest phase = .ok result) :
    Changes restoring store [] result.1 := by
  rw [publishSlot] at done
  split_ifs at done with delivered matched settled
  · cases done
    exact .refl
  · have reset : Change restoring store [] (store.updateObjectTask (beginPhase latest)) := by
      refine .slot found ⟨rfl, rfl, rfl, rfl, rfl, rfl⟩ rfl ?_ (by simp [beginPhase])
      intro other owes
      rw [told] at owes
      cases owes
      simpa using matched
    have again : (store.updateObjectTask (beginPhase latest)).getObjectTask (beginPhase latest).taskId =
        some (beginPhase latest) := getObjectTask_update_self found rfl
    exact (Changes.single reset).then_ (notify_changes again done)
  · cases done
    exact .refl
  · exact notify_changes found done

theorem publishTerminal_changes {attempt : NotifyAttempt δ} {latest : ObjectTask V} {phase : NotificationPhase}
    {result : TaskStore V δ × ObjectTask V} (found : store.getObjectTask latest.taskId = some latest)
    (told : phaseForStatus latest.status = some phase)
    (done : publishTerminal config store attempt latest phase = .ok result) :
    Changes restoring store [] result.1 := by
  simp only [publishTerminal, bind_eq_ok] at done
  obtain ⟨published, here, -, -, finished⟩ := done
  cases finished
  exact publishSlot_changes found told here

omit [DecidableEq δ] in
theorem settleFailure_changes {attempt : NotifyAttempt δ} {latest : ObjectTask V} {phase : NotificationPhase}
    {result : TaskStore V δ × ObjectTask V} (found : store.getObjectTask latest.taskId = some latest)
    (told : phaseForStatus latest.status = some phase)
    (done : settleFailure store attempt latest phase = .ok result) : Changes restoring store [] result.1 := by
  rw [settleFailure] at done
  split_ifs at done with matched
  · cases done
    exact .refl
  · cases settled : attempt.settlement with
    | none =>
        rw [settled] at done
        cases done
    | some error =>
        rw [settled] at done
        cases done
        refine .single (.slot found ⟨rfl, rfl, rfl, rfl, rfl, rfl⟩ rfl ?_ (by simp))
        intro other owes
        rw [told] at owes
        cases owes
        simpa using matched

omit [DecidableEq δ] in
theorem phaseForStatus_terminal {status : ObjectTaskStatus} {phase : NotificationPhase}
    (terminal : terminalPhase status = some phase) : phaseForStatus status = some phase := by
  rw [phaseForStatus, terminal]

theorem notifyTerminal_changes {attempt : NotifyAttempt δ} {task latest : ObjectTask V}
    {result : TaskStore V δ × ObjectTask V} (found : store.getObjectTask task.taskId = some latest)
    (done : notifyTerminal config store attempt task = .ok result) : Changes restoring store [] result.1 := by
  rw [notifyTerminal, found, Option.getD_some] at done
  split at done
  · next phase recipientPid terminal recipient =>
      have told := phaseForStatus_terminal terminal
      cases published : publishTerminal config store attempt latest phase with
      | ok published' =>
          rw [published] at done
          cases done
          exact publishTerminal_changes (found_self found) told published
      | error fault =>
          rw [published] at done
          exact settleFailure_changes (found_self found) told done
  · cases done
    exact .refl

/-- Other changes of the store leave the rows of the tasks. -/
theorem outside_change {base : MessageStore δ} (same : Undisturbed store { store with base := base }) :
    Change restoring store [] { store with base := base } := .outside same

theorem cleanup_undisturbed {runner : RunnerCleanup δ} {base : MessageStore δ}
    (done : TaskStore.cleanup config sha256 runner store.base = .ok base) :
    Undisturbed store { store with base := base } := by
  rw [TaskStore.cleanup, liftFault_ok] at done
  obtain ⟨events, foreign⟩ := runner
  simp only [] at done
  induction events generalizing store with
  | nil =>
      cases done
      exact .refl store
  | cons event events ih =>
      rw [List.foldlM_cons, bind_eq_ok] at done
      obtain ⟨middle, first, rest⟩ := done
      have later : Undisturbed { store with base := middle } { store with base := base } :=
        ih (fun event inside => foreign event (List.mem_cons_of_mem _ inside)) rest
      exact (exec_undisturbed (foreign event List.mem_cons_self) first).trans later

theorem setRunnerRunning_messages {base base' : MessageStore δ} {ambient : Ambient δ} {task : ObjectTask V}
    {runnerPid : String} (done : setRunnerRunning base ambient task runnerPid = .ok base') :
    base'.messages = base.messages := by
  simp only [setRunnerRunning, bind_eq_ok] at done
  obtain ⟨process, -, done⟩ := done
  cases process with
  | none =>
      cases done
      rfl
  | some process =>
      simp only [] at done
      split_ifs at done
      · cases done
        rfl
      · simp only [bind_eq_ok] at done
        obtain ⟨-, -, processes, -, done⟩ := done
        cases done
        rfl

theorem markRunning_changes {ambient : Ambient δ} {taskId now : String} {result : TaskStore V δ × ObjectTask V}
    (done : markRunning store ambient taskId now = .ok result) : Changes restoring store [] result.1 := by
  simp only [markRunning, bind_eq_ok] at done
  obtain ⟨latest, read, done⟩ := done
  have found := found_self (requireTask_ok read)
  split_ifs at done with ended
  · cases done
    exact .refl
  · simp only [bind_eq_ok] at done
    obtain ⟨base, runner, done⟩ := done
    cases done
    have messages : base.messages = store.base.messages := by
      cases pid : latest.runnerPid with
      | none =>
          rw [pid] at runner
          cases runner
          rfl
      | some runnerPid =>
          rw [pid] at runner
          exact setRunnerRunning_messages runner
    have moved : moves latest.status .running = true := by
      revert ended
      cases latest.status <;> decide
    exact (Changes.single (outside_change (processes_undisturbed store base messages))).then_
      (.single (.quiet found ⟨rfl, rfl, rfl, rfl, rfl, rfl⟩ moved rfl))

theorem markCancelled_changes {taskId reason now : String} {runner : RunnerCleanup δ}
    {result : TaskStore V δ × ObjectTask V}
    (done : markCancelled store taskId reason now (TaskStore.cleanup config sha256 runner) = .ok result) :
    Changes restoring store (store.activeEntry taskId .cancelled) result.1 := by
  simp only [markCancelled, bind_eq_ok] at done
  obtain ⟨latest, read, done⟩ := done
  have found := found_self (requireTask_ok read)
  rw [activeEntry_eq (requireTask_ok read)]
  by_cases ended : latest.status.terminal = true
  · rw [if_pos ended] at done ⊢
    cases done
    exact .refl
  · rw [if_neg ended] at done ⊢
    obtain ⟨base, cleaned, done⟩ := bind_eq_ok.mp done
    cases done
    have undisturbed : Undisturbed store { store with base := base } := by
      split_ifs at cleaned
      · exact cleanup_undisturbed cleaned
      · cases cleaned
        exact .refl store
    have moved : moves latest.status .cancelled = true := by
      revert ended
      cases latest.status <;> decide
    exact (Changes.single (outside_change undisturbed)).then_
      (.single (.enter found ⟨rfl, rfl, rfl, rfl, rfl, rfl⟩ moved rfl rfl))

theorem abandonAfterReopen_changes {taskId now : String} {expectedStatus : ObjectTaskStatus}
    (active : expectedStatus.terminal = false) {runner : RunnerCleanup δ} {result : TaskStore V δ × ObjectTask V}
    (done : abandonAfterReopen store taskId expectedStatus now (TaskStore.cleanup config sha256 runner) =
      .ok (some result)) : Changes restoring store [(taskId, .abandoned)] result.1 := by
  rw [abandonAfterReopen] at done
  cases read : store.getObjectTask taskId with
  | none =>
      rw [read] at done
      cases done
  | some task =>
      rw [read] at done
      simp only [] at done
      have found := found_self read
      obtain rfl := getObjectTask_taskId read
      by_cases other : task.status ≠ expectedStatus
      · rw [if_pos other] at done
        cases done
      rw [if_neg other] at done
      obtain ⟨base, cleaned, done⟩ := bind_eq_ok.mp done
      cases done
      have undisturbed : Undisturbed store { store with base := base } := by
        split_ifs at cleaned
        · exact cleanup_undisturbed cleaned
        · cases cleaned
          exact .refl store
      have moved : moves task.status .abandoned = true := by
        rw [← not_not.mp other] at active
        revert active
        cases task.status <;> decide
      exact (Changes.single (outside_change undisturbed)).then_
        (.single (.enter found ⟨rfl, rfl, rfl, rfl, rfl, rfl⟩ moved rfl rfl))

omit [DecidableEq δ] in
theorem markResultUnavailable_changes {read : ObjectTask V} {resultOid now : String}
    {result : TaskStore V δ × ObjectTask V} (done : markResultUnavailable store read resultOid now = some result) :
    Changes restoring store [(read.taskId, .resultUnavailableAfterReopen)] result.1 := by
  rw [markResultUnavailable] at done
  cases stored : store.getObjectTask read.taskId with
  | none =>
      rw [stored] at done
      cases done
  | some task =>
      rw [stored] at done
      simp only [] at done
      have found := found_self stored
      rw [← getObjectTask_taskId stored]
      split_ifs at done with succeeded
      cases done
      have moved : moves task.status .resultUnavailableAfterReopen = true := by
        rw [succeeded.1]
        rfl
      exact .single (.enter found ⟨rfl, rfl, rfl, rfl, rfl, rfl⟩ moved rfl rfl)

omit [DecidableEq δ] in
theorem reconcileRestored_changes {task : ObjectTask V} (found : store.getObjectTask task.taskId = some task)
    (unavailable : task.status = .resultUnavailableAfterReopen) (allowed : restoring)
    (checkpointId now : String) (available : List String) :
    Changes restoring store
      (if waitText task "previous_status" = some ObjectTaskStatus.succeeded.value ∧
          (waitText task "previous_result_oid").any (· ∈ available) then [(task.taskId, .completed)] else [])
      (reconcileRestored store task checkpointId now available) := by
  rw [reconcileRestored]
  cases waitText task "previous_status" with
  | none => exact .refl
  | some status =>
      cases waitText task "previous_result_oid" with
      | none =>
          rw [if_neg fun both => Bool.false_ne_true both.2]
          exact .refl
      | some oid =>
          simp only [Option.some.injEq, Option.any_some, decide_eq_true_eq]
          split_ifs
          · exact .single (.restore allowed found ⟨rfl, rfl, rfl, rfl, rfl, rfl⟩ unavailable rfl)
          · exact .refl

omit [DecidableEq δ] in
theorem outsidePayloads_undisturbed {base : MessageStore δ} {event : MessageEvent δ} (foreign : Foreign event)
    [DecidableEq δ] (done : store.base.exec config sha256 event = .ok base)
    (payload : Option (NotificationPayload V)) :
    Undisturbed store { store with base := base, payloads := outsidePayloads store.payloads payload event } := by
  cases event with
  | post ambient request =>
      obtain ⟨message, messages, fresh, id, sender, -⟩ := post_ok done
      have posted : Posted store
          { store with base := base, payloads := Function.update store.payloads request.messageId payload }
          message payload := ⟨messages, fresh, by rw [id], rfl⟩
      exact posted.undisturbed fun taskId => sender ▸ foreign taskId
  | _ => exact exec_undisturbed foreign done

/-- Every action is a few changes. -/
theorem exec_changes {action : TaskAction V δ} (allowed : action.restores → restoring)
    {result : TaskStore V δ × List (String × NotificationPhase)}
    (done : store.exec config sha256 action = .ok result) : Changes restoring store result.2 result.1 := by
  cases action with
  | start taskId ownerOid creatorPid runnerPid tool toolId notifyPid kind channel ownerWatch now =>
      simp only [TaskStore.exec, bind_eq_ok, ensure_ok] at done
      obtain ⟨-, new, done⟩ := done
      cases done
      exact .single (.start new rfl rfl)
  | outside event foreign payload =>
      simp only [TaskStore.exec, bind_eq_ok, liftFault_ok] at done
      obtain ⟨base, ran, done⟩ := done
      cases done
      exact .single (.outside (outsidePayloads_undisturbed foreign ran payload))
  | watchOwner taskId ownerWatch now =>
      simp only [TaskStore.exec, bind_eq_ok] at done
      obtain ⟨task, read, -, -, done⟩ := done
      cases done
      exact .single (.kept (found_self (requireTask_ok read)) ⟨rfl, rfl, rfl, rfl, rfl, rfl⟩ rfl rfl)
  | markRunning ambient taskId now =>
      obtain ⟨marked, ran, rfl⟩ := map_eq_ok.mp done
      exact markRunning_changes ran
  | markWaiting taskId kind wait message now =>
      obtain ⟨marked, ran, rfl⟩ := map_eq_ok.mp done
      simp only [markWaiting, bind_eq_ok] at ran
      obtain ⟨task, read, ran⟩ := ran
      cases ran
      refine changeActive_changes (requireTask_ok read) ⟨rfl, rfl, rfl, rfl, rfl, rfl⟩ rfl ?_ fun active => ?_
      · cases kind <;> rfl
      · change moves task.status kind.status = true
        revert active
        cases kind <;> cases task.status <;> decide
  | markSucceeded taskId resultOid now =>
      obtain ⟨marked, ran, rfl⟩ := map_eq_ok.mp done
      simp only [markSucceeded, bind_eq_ok] at ran
      obtain ⟨task, read, ran⟩ := ran
      cases ran
      refine changeActive_changes (requireTask_ok read) ⟨rfl, rfl, rfl, rfl, rfl, rfl⟩ rfl rfl fun active => ?_
      change moves task.status .succeeded = true
      revert active
      cases task.status <;> decide
  | markFailed taskId error now =>
      obtain ⟨marked, ran, rfl⟩ := map_eq_ok.mp done
      simp only [markFailed, bind_eq_ok] at ran
      obtain ⟨task, read, ran⟩ := ran
      cases ran
      refine changeActive_changes (requireTask_ok read) ⟨rfl, rfl, rfl, rfl, rfl, rfl⟩ rfl rfl fun active => ?_
      change moves task.status .failed = true
      revert active
      cases task.status <;> decide
  | markCancelled taskId reason now runner =>
      obtain ⟨marked, ran, rfl⟩ := map_eq_ok.mp done
      exact markCancelled_changes ran
  | abandon taskId expectedStatus active now runner =>
      obtain ⟨marked, ran, rfl⟩ := map_eq_ok.mp done
      cases marked with
      | none => exact .refl
      | some marked => exact abandonAfterReopen_changes active ran
  | resultUnavailable read resultOid now =>
      simp only [TaskStore.exec] at done
      cases marked : markResultUnavailable store read resultOid now with
      | none =>
          rw [marked] at done
          cases done
          exact .refl
      | some result' =>
          rw [marked] at done
          cases done
          exact markResultUnavailable_changes marked
  | notify attempt task phase =>
      simp only [TaskStore.exec, bind_eq_ok, ensure_ok] at done
      obtain ⟨-, present, notified, ran, done⟩ := done
      cases done
      obtain ⟨latest, found⟩ := Option.isSome_iff_exists.mp present
      exact notify_changes found ran
  | notifyTerminal attempt task =>
      simp only [TaskStore.exec, bind_eq_ok, ensure_ok] at done
      obtain ⟨-, present, notified, ran, done⟩ := done
      cases done
      obtain ⟨latest, found⟩ := Option.isSome_iff_exists.mp present
      exact notifyTerminal_changes found ran
  | supersede taskId checkpointId now =>
      simp only [TaskStore.exec, bind_eq_ok, ensure_ok] at done
      obtain ⟨task, read, -, ⟨ended, once⟩, done⟩ := done
      cases done
      refine .single (.quiet (found_self (requireTask_ok read)) ⟨rfl, rfl, rfl, rfl, rfl, rfl⟩ ?_ rfl)
      change moves task.status .supersededByRestore = true
      revert ended once
      cases task.status <;> decide
  | reconcile taskId checkpointId now available =>
      simp only [TaskStore.exec, bind_eq_ok, ensure_ok] at done
      obtain ⟨task, read, -, unavailable, done⟩ := done
      cases done
      rw [← getObjectTask_taskId (requireTask_ok read)]
      exact reconcileRestored_changes (found_self (requireTask_ok read)) unavailable (allowed trivial)
        checkpointId now available

/-- A run is changes. -/
theorem run_changes (actions : List (TaskAction V δ)) (allowed : ∀ action ∈ actions, action.restores → restoring)
    (state : TaskStore V δ × List (String × NotificationPhase)) : ∃ entered,
      Changes restoring state.1 entered (actions.foldl (TaskStore.step config sha256) state).1 ∧
        (actions.foldl (TaskStore.step config sha256) state).2 = state.2 ++ entered := by
  induction actions generalizing state with
  | nil => exact ⟨[], .refl, (List.append_nil _).symm⟩
  | cons action actions ih =>
      obtain ⟨later, changes, log⟩ := ih (fun action inside => allowed action (List.mem_cons_of_mem _ inside))
        (TaskStore.step config sha256 state action)
      rw [List.foldl_cons]
      cases done : TaskStore.exec config sha256 state.1 action with
      | ok result =>
          have is : TaskStore.step config sha256 state action = (result.1, state.2 ++ result.2) := by
            rw [TaskStore.step, done]
          rw [is] at changes log ⊢
          refine ⟨result.2 ++ later, (exec_changes (allowed action List.mem_cons_self) done).trans changes, ?_⟩
          rw [log, List.append_assoc]
      | error fault =>
          have is : TaskStore.step config sha256 state action = state := by
            rw [TaskStore.step, done]
          rw [is] at changes log ⊢
          exact ⟨later, changes, log⟩

end

end AgentLibOS.ObjectTasks
