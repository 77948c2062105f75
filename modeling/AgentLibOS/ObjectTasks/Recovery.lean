import AgentLibOS.Library.Sweep
import AgentLibOS.ObjectTasks.Delivery
import Mathlib.Data.List.Sort
import Mathlib.Data.Prod.Lex
import Mathlib.Data.String.Basic

namespace AgentLibOS.ObjectTasks
open Library Library.Run Processes Messages

variable {V δ : Type}

/-! ## Startup reconciliation -/

inductive ObjectTaskRecoveryKind
  | active | missingResult | notification
  deriving DecidableEq, Repr

/-- `_object_task_recovery_filter`. -/
def recoverable : ObjectTaskRecoveryKind → ObjectTask V → Bool
  | .active, task => decide (task.status ∈ [ObjectTaskStatus.queued, .running, .waitingHuman, .waitingProcess,
      .waitingMessage])
  | .missingResult, task => decide (task.status = .succeeded) && task.resultOid.isSome
  | .notification, task => decide (task.status ∈ [ObjectTaskStatus.succeeded, .failed, .cancelled]) &&
      task.notification.status.pending && task.notification.recipientPid.isSome

/-- The key that the pages go on from. -/
def recoveryKey (task : ObjectTask V) : String ×ₗ String := toLex (task.createdAt, task.taskId)

/-- The rows of a kind, `ORDER BY created_at, task_id`. -/
def recoveryRows (kind : ObjectTaskRecoveryKind) (store : TaskStore V δ) : List (ObjectTask V) :=
  (store.tasks.filter (recoverable kind)).insertionSort fun left right => recoveryKey left ≤ recoveryKey right

/-- What the steps of a recovery draw: for a kind and a task the time and the notification; `stored` is
whether a result Object is there. -/
structure RecoveryDraws (δ : Type) where
  now : ObjectTaskRecoveryKind → String → String
  attempt : ObjectTaskRecoveryKind → String → NotifyAttempt δ
  runner : String → RunnerCleanup δ
  stored : String → Bool

/-- The store and the summary so far. -/
structure Tally (V δ : Type) where
  store : TaskStore V δ
  total : Nat
  sample : List String

/-- `_append_recovery_sample` and the total. -/
def Tally.add (tally : Tally V δ) (store : TaskStore V δ) (taskId : String) (limit : Nat) : Tally V δ where
  store := store
  total := tally.total + 1
  sample := if tally.sample.length < limit then tally.sample ++ [taskId] else tally.sample

structure ObjectTaskRecoverySummary where
  abandonedTotal : Nat
  resultUnavailableTotal : Nat
  notificationRetriedTotal : Nat
  abandonedSample : List String
  resultUnavailableSample : List String
  notificationRetriedSample : List String
  deriving DecidableEq

section
variable [DecidableEq δ] (config : MessageConfig) (sha256 : String → Digest) (draws : RecoveryDraws δ)
  (pageSize : Nat)

/-- The notification after a step, and the count. -/
def notifyAndCount (kind : ObjectTaskRecoveryKind) (tally : Tally V δ) (store : TaskStore V δ)
    (task : ObjectTask V) : Except TaskFault (Tally V δ) := do
  let notified ← notifyTerminal config store (draws.attempt kind task.taskId) task
  .ok (tally.add notified.1 notified.2.taskId pageSize)

/-- A task of `_recover_active_tasks`. -/
def recoverActiveTask (tally : Tally V δ) (task : ObjectTask V) : Except TaskFault (Tally V δ) := do
  let abandoned ← abandonAfterReopen tally.store task.taskId task.status (draws.now .active task.taskId)
    (TaskStore.cleanup config sha256 (draws.runner task.taskId))
  abandoned.elim (.ok tally) fun updated =>
    notifyAndCount config draws pageSize .active tally updated.1 updated.2

/-- `_recover_missing_result`. -/
def recoverMissingResult (tally : Tally V δ) (task : ObjectTask V) : Except TaskFault (Tally V δ) :=
  task.resultOid.elim (.ok tally) fun resultOid =>
    if draws.stored resultOid then .ok tally
    else (markResultUnavailable tally.store task resultOid (draws.now .missingResult task.taskId)).elim (.ok tally)
      fun updated => notifyAndCount config draws pageSize .missingResult tally updated.1 updated.2

/-- A task of `_retry_notifications`. -/
def retryNotification (tally : Tally V δ) (task : ObjectTask V) : Except TaskFault (Tally V δ) :=
  notifyAndCount config draws pageSize .notification tally tally.store task

def recoverTask : ObjectTaskRecoveryKind → Tally V δ → ObjectTask V → Except TaskFault (Tally V δ)
  | .active => recoverActiveTask config sha256 draws pageSize
  | .missingResult => recoverMissingResult config draws pageSize
  | .notification => retryNotification config draws pageSize

/-- The pages of a kind; every page is read from the rows as they are then. -/
def recoverKind (kind : ObjectTaskRecoveryKind) (store : TaskStore V δ) : Except TaskFault (Tally V δ) :=
  Sweep.sweep (fun tally : Tally V δ => recoveryRows kind tally.store) recoveryKey pageSize
    (recoverTask config sha256 draws pageSize kind) .other (store.tasks.length + 1) none ⟨store, 0, []⟩

/-- `_recover_persisted_tasks`. -/
def recoverPersistedTasks (store : TaskStore V δ) :
    Except TaskFault (TaskStore V δ × ObjectTaskRecoverySummary) := do
  let abandoned ← recoverKind config sha256 draws pageSize .active store
  let unavailable ← recoverKind config sha256 draws pageSize .missingResult abandoned.store
  let retried ← recoverKind config sha256 draws pageSize .notification unavailable.store
  .ok (retried.store, {
    abandonedTotal := abandoned.total
    resultUnavailableTotal := unavailable.total
    notificationRetriedTotal := retried.total
    abandonedSample := abandoned.sample
    resultUnavailableSample := unavailable.sample
    notificationRetriedSample := retried.sample })

end

/-! ## What one task's step writes -/

/-- The rows of a store have one task each. -/
def TaskStore.Distinct (store : TaskStore V δ) : Prop := (store.tasks.map ObjectTask.taskId).Nodup

/-- Only the row of this task is written, and how. -/
structure Writes (store : TaskStore V δ) (task task' : ObjectTask V) (after : TaskStore V δ) : Prop where
  tasks : after.tasks = (store.updateObjectTask task').tasks
  same : SameTask task task'

section
variable {store : TaskStore V δ} {task : ObjectTask V}

theorem mem_tasks {taskId : String} (found : store.getObjectTask taskId = some task) : task ∈ store.tasks :=
  List.mem_of_find?_eq_some found

theorem getObjectTask_mem (distinct : store.Distinct) (inside : task ∈ store.tasks) :
    store.getObjectTask task.taskId = some task := by
  cases found : store.getObjectTask task.taskId with
  | none =>
      have missed := List.find?_eq_none.mp found task inside
      simp at missed
  | some other =>
      rw [List.inj_on_of_nodup_map distinct (mem_tasks found) inside (getObjectTask_taskId found)]

/-- A row that is written as it is. -/
theorem update_same (distinct : store.Distinct) (inside : task ∈ store.tasks) :
    (store.updateObjectTask task).tasks = store.tasks := by
  refine (List.map_congr_left fun row listed => ?_).trans (List.map_id _)
  split_ifs with same
  · exact (List.inj_on_of_nodup_map distinct listed inside same).symm
  · rfl

theorem Writes.refl (distinct : store.Distinct) (inside : task ∈ store.tasks) : Writes store task task store :=
  ⟨(update_same distinct inside).symm, ⟨rfl, rfl, rfl, rfl, rfl, rfl⟩⟩

theorem update_update (store : TaskStore V δ) {task' task'' : ObjectTask V} (same : task''.taskId = task'.taskId) :
    ((store.updateObjectTask task').updateObjectTask task'').tasks = (store.updateObjectTask task'').tasks := by
  simp only [TaskStore.updateObjectTask, List.map_map]
  refine List.map_congr_left fun row _ => ?_
  simp only [Function.comp_apply, same]
  split_ifs with here there
  · rfl
  · exact absurd rfl there
  · rfl

theorem Writes.trans {task' task'' : ObjectTask V} {middle after : TaskStore V δ}
    (first : Writes store task task' middle) (second : Writes middle task' task'' after) :
    Writes store task task'' after := by
  refine ⟨?_, first.same.trans second.same⟩
  rw [second.tasks, ← update_update store second.same.taskId]
  simp only [TaskStore.updateObjectTask, first.tasks]

theorem update_ids (store : TaskStore V δ) (task : ObjectTask V) :
    (store.updateObjectTask task).tasks.map ObjectTask.taskId = store.tasks.map ObjectTask.taskId := by
  rw [TaskStore.updateObjectTask, List.map_map]
  refine List.map_congr_left fun row _ => ?_
  simp only [Function.comp_apply]
  split_ifs with same
  · exact same.symm
  · rfl

theorem Writes.distinct {task' : ObjectTask V} {after : TaskStore V δ} (writes : Writes store task task' after)
    (distinct : store.Distinct) : after.Distinct := by
  rw [TaskStore.Distinct, writes.tasks, update_ids]
  exact distinct

theorem Writes.getObjectTask {task' : ObjectTask V} {after : TaskStore V δ} (writes : Writes store task task' after)
    (taskId : String) : after.getObjectTask taskId =
      if task.taskId = taskId then (store.getObjectTask taskId).map fun _ => task'
      else store.getObjectTask taskId := by
  rw [← writes.same.taskId, ← getObjectTask_update, TaskStore.getObjectTask, writes.tasks,
    TaskStore.getObjectTask]

theorem Writes.mem {task' : ObjectTask V} {after : TaskStore V δ} (writes : Writes store task task' after)
    (inside : task ∈ store.tasks) : task' ∈ after.tasks := by
  rw [writes.tasks, TaskStore.updateObjectTask]
  exact List.mem_map.mpr ⟨task, inside, if_pos writes.same.taskId.symm⟩

end

/-! ## The notification of one task -/

/-- A notification keeps the status and leaves no untold slot of a recipient. -/
structure Tried (task task' : ObjectTask V) : Prop where
  status : task'.status = task.status
  slot : task.notification.recipientPid ≠ none → task'.notification.status ≠ .none

section
variable [DecidableEq δ] {config : MessageConfig} {store : TaskStore V δ} {task : ObjectTask V}
  {attempt : NotifyAttempt δ} {phase : NotificationPhase} {result : TaskStore V δ × ObjectTask V}

theorem notifyInTransaction_writes (distinct : store.Distinct) (inside : task ∈ store.tasks)
    (done : notifyInTransaction config store attempt task phase = .ok result) :
    Writes store task result.2 result.1 ∧ Tried task result.2 := by
  rw [notifyInTransaction] at done
  cases recipient : task.notification.recipientPid with
  | none =>
      rw [recipient] at done
      cases done
      exact ⟨.refl distinct inside, rfl, fun some => absurd recipient some⟩
  | some recipientPid =>
      rw [recipient] at done
      simp only [] at done
      cases attempted : postNotification config store attempt task phase recipientPid with
      | ok posted =>
          rw [attempted] at done
          cases done
          obtain ⟨message, posts, -⟩ := postNotification_ok attempted
          refine ⟨⟨?_, rfl, rfl, rfl, rfl, rfl, rfl⟩, rfl, fun _ => by simp⟩
          simp only [TaskStore.updateObjectTask, posts.tasks]
      | error fault =>
          rw [attempted] at done
          simp only [] at done
          by_cases refused : fault.refusal = true
          · rw [if_pos refused] at done
            cases diagnosed : attempt.diagnosis with
            | none =>
                rw [diagnosed] at done
                cases done
            | some error =>
                rw [diagnosed] at done
                cases done
                refine ⟨⟨rfl, rfl, rfl, rfl, rfl, rfl, rfl⟩, rfl, fun _ => ?_⟩
                change (if recipientEnded store recipientPid then ObjectTaskNotificationStatus.undeliveredTerminal
                  else .failed) ≠ .none
                split_ifs <;> decide
          · rw [if_neg refused] at done
            cases done

theorem notify_writes (distinct : store.Distinct) (inside : task ∈ store.tasks)
    (told : phaseForStatus task.status = some phase)
    (done : notify config store attempt task phase = .ok result) :
    Writes store task result.2 result.1 ∧ Tried task result.2 := by
  rw [notify, getObjectTask_mem distinct inside, Option.getD_some, if_neg (not_not.mpr told)] at done
  split_ifs at done with settled
  · cases done
    refine ⟨.refl distinct inside, rfl, fun _ none => ?_⟩
    rw [none] at settled
    cases settled
  · exact notifyInTransaction_writes distinct inside done

theorem publishSlot_writes (distinct : store.Distinct) (inside : task ∈ store.tasks)
    (told : phaseForStatus task.status = some phase)
    (done : publishSlot config store attempt task phase = .ok result) :
    Writes store task result.2 result.1 ∧ Tried task result.2 := by
  rw [publishSlot] at done
  split_ifs at done with delivered matched settled
  · cases done
    refine ⟨.refl distinct inside, rfl, fun _ none => ?_⟩
    rw [none] at delivered
    cases delivered
  · have reset : Writes store task (beginPhase task) (store.updateObjectTask (beginPhase task)) :=
      ⟨rfl, rfl, rfl, rfl, rfl, rfl, rfl⟩
    obtain ⟨writes, tried⟩ := notify_writes (reset.distinct distinct) (reset.mem inside) told done
    exact ⟨reset.trans writes, tried.status, tried.slot⟩
  · cases done
    refine ⟨.refl distinct inside, rfl, fun _ none => ?_⟩
    rw [none] at settled
    cases settled
  · exact notify_writes distinct inside told done

omit [DecidableEq δ] in
theorem settleFailure_writes (distinct : store.Distinct) (inside : task ∈ store.tasks)
    (done : settleFailure store attempt task phase = .ok result) :
    Writes store task result.2 result.1 ∧ Tried task result.2 := by
  rw [settleFailure] at done
  split_ifs at done with matched
  · cases done
    refine ⟨.refl distinct inside, rfl, fun _ none => ?_⟩
    rw [(deliveredMessageMatchesPhase_iff.mp matched).1] at none
    cases none
  · cases settled : attempt.settlement with
    | none =>
        rw [settled] at done
        cases done
    | some error =>
        rw [settled] at done
        cases done
        exact ⟨⟨rfl, rfl, rfl, rfl, rfl, rfl, rfl⟩, rfl, fun _ => by simp⟩

theorem notifyTerminal_writes (distinct : store.Distinct) (inside : task ∈ store.tasks)
    (done : notifyTerminal config store attempt task = .ok result) :
    Writes store task result.2 result.1 ∧ (terminalPhase task.status ≠ none → Tried task result.2) ∧
      result.2.status = task.status := by
  rw [notifyTerminal, getObjectTask_mem distinct inside, Option.getD_some] at done
  cases ended : terminalPhase task.status with
  | none =>
      rw [ended] at done
      cases done
      exact ⟨.refl distinct inside, fun some => absurd rfl some, rfl⟩
  | some phase =>
      rw [ended] at done
      have told := phaseForStatus_terminal ended
      cases recipient : task.notification.recipientPid with
      | none =>
          rw [recipient] at done
          cases done
          exact ⟨.refl distinct inside, fun _ => ⟨rfl, fun some => absurd recipient some⟩, rfl⟩
      | some recipientPid =>
          rw [recipient] at done
          simp only [] at done
          cases published : publishTerminal config store attempt task phase with
          | ok published' =>
              rw [published] at done
              cases done
              simp only [publishTerminal, bind_eq_ok] at published
              obtain ⟨slot, here, -, -, finished⟩ := published
              cases finished
              obtain ⟨writes, tried⟩ := publishSlot_writes distinct inside told here
              exact ⟨writes, fun _ => tried, tried.status⟩
          | error fault =>
              rw [published] at done
              obtain ⟨writes, tried⟩ := settleFailure_writes distinct inside done
              exact ⟨writes, fun _ => tried, tried.status⟩

end

/-! ## One task of a recovery -/

/-- A result that is gone. -/
def lost (draws : RecoveryDraws δ) (task : ObjectTask V) : Bool :=
  decide (task.status = .succeeded) && task.resultOid.any fun oid => !draws.stored oid

/-- The tasks that a kind of recovery counts. -/
def counted (draws : RecoveryDraws δ) : ObjectTaskRecoveryKind → ObjectTask V → Bool
  | .missingResult => lost draws
  | _ => fun _ => true

/-- What a kind of recovery makes of a task's status. -/
def recoveredStatus (draws : RecoveryDraws δ) (kind : ObjectTaskRecoveryKind) (task : ObjectTask V) :
    ObjectTaskStatus :=
  match kind with
  | .active => .abandoned
  | .missingResult => if lost draws task then .resultUnavailableAfterReopen else task.status
  | .notification => task.status

/-- The step of a kind on one of its tasks. -/
structure Recovers (draws : RecoveryDraws δ) (kind : ObjectTaskRecoveryKind) (limit : Nat) (tally : Tally V δ)
    (task task' : ObjectTask V) (next : Tally V δ) : Prop where
  writes : Writes tally.store task task' next.store
  status : task'.status = recoveredStatus draws kind task
  tried : counted draws kind task = true → task.notification.recipientPid ≠ none →
    task'.notification.status ≠ .none
  untouched : counted draws kind task = false → task' = task
  total : next.total = tally.total + if counted draws kind task then 1 else 0
  sample : next.sample = if counted draws kind task ∧ tally.sample.length < limit
    then tally.sample ++ [task.taskId] else tally.sample

section
variable [DecidableEq δ] {config : MessageConfig} {sha256 : String → Digest} {draws : RecoveryDraws δ}
  {pageSize : Nat}

/-- A transition and the notification after it. -/
theorem notifyAndCount_recovers {kind : ObjectTaskRecoveryKind} {tally next : Tally V δ} {store : TaskStore V δ}
    {task updated : ObjectTask V} (distinct : tally.store.Distinct) (inside : task ∈ tally.store.tasks)
    (first : Writes tally.store task updated store) (status : updated.status = recoveredStatus draws kind task)
    (ended : terminalPhase updated.status ≠ none) (counts : counted draws kind task = true)
    (done : notifyAndCount config draws pageSize kind tally store updated = .ok next) :
    ∃ task', Recovers draws kind pageSize tally task task' next := by
  obtain ⟨notified, ran, done⟩ := bind_eq_ok.mp done
  cases done
  obtain ⟨writes, tried, kept⟩ := notifyTerminal_writes (first.distinct distinct) (first.mem inside) ran
  have whole := first.trans writes
  refine ⟨notified.2, whole, kept.trans status, fun _ recipient => ?_, fun other => ?_, ?_, ?_⟩
  · exact (tried ended).slot (first.same.recipientPid ▸ recipient)
  · rw [counts] at other
    cases other
  · rw [counts]
    rfl
  · rw [counts]
    simp only [Tally.add, whole.same.taskId, true_and]

omit [DecidableEq δ] in
/-- A task that a kind skips. -/
theorem skipped_recovers {kind : ObjectTaskRecoveryKind} {tally : Tally V δ} {task : ObjectTask V}
    (distinct : tally.store.Distinct) (inside : task ∈ tally.store.tasks)
    (status : task.status = recoveredStatus draws kind task) (skips : counted draws kind task = false) :
    Recovers draws kind pageSize tally task task tally := by
  refine ⟨.refl distinct inside, status, fun counts => ?_, fun _ => rfl, ?_, ?_⟩
  · rw [skips] at counts
    cases counts
  · rw [skips]
    rfl
  · rw [skips, if_neg fun both => Bool.false_ne_true both.1]

theorem recoverTask_recovers {kind : ObjectTaskRecoveryKind} {tally next : Tally V δ} {task : ObjectTask V}
    (distinct : tally.store.Distinct) (inside : task ∈ tally.store.tasks) (selected : recoverable kind task = true)
    (done : recoverTask config sha256 draws pageSize kind tally task = .ok next) :
    ∃ task', Recovers draws kind pageSize tally task task' next := by
  have found := getObjectTask_mem distinct inside
  cases kind with
  | active =>
      simp only [recoverTask, recoverActiveTask, abandonAfterReopen, found, ne_eq, not_true_eq_false,
        if_false] at done
      obtain ⟨updated, ran, done⟩ := bind_eq_ok.mp done
      obtain ⟨base, -, ran⟩ := bind_eq_ok.mp ran
      cases ran
      rw [Option.elim_some] at done
      refine notifyAndCount_recovers distinct inside ?_ ?_ ?_ rfl done
      · exact ⟨rfl, rfl, rfl, rfl, rfl, rfl, rfl⟩
      · rfl
      · exact Option.some_ne_none _
  | missingResult =>
      simp only [recoverable, Bool.and_eq_true, decide_eq_true_eq] at selected
      obtain ⟨succeeded, some⟩ := selected
      obtain ⟨oid, result⟩ := Option.isSome_iff_exists.mp some
      simp only [recoverTask, recoverMissingResult, result, Option.elim_some] at done
      have gone : lost draws task = !draws.stored oid := by
        rw [lost, succeeded, result, Option.any_some]
        rfl
      cases stored : draws.stored oid with
      | true =>
          rw [stored] at gone
          rw [stored, if_pos rfl] at done
          cases done
          have status : task.status = recoveredStatus draws .missingResult task := by
            simp only [recoveredStatus, gone]
            rfl
          exact ⟨task, skipped_recovers distinct inside status gone⟩
      | false =>
          rw [stored] at gone
          rw [stored, if_neg Bool.false_ne_true, markResultUnavailable, found] at done
          simp only [succeeded, result, and_self, if_true, Option.elim_some] at done
          refine notifyAndCount_recovers distinct inside ?_ ?_ ?_ gone done
          · exact ⟨rfl, rfl, rfl, rfl, rfl, rfl, rfl⟩
          · simp only [recoveredStatus, gone]
            rfl
          · exact Option.some_ne_none _
  | notification =>
      simp only [recoverable, Bool.and_eq_true, decide_eq_true_eq] at selected
      have ended : terminalPhase task.status ≠ none := by
        have listed := selected.1.1
        revert listed
        cases task.status <;> decide
      exact notifyAndCount_recovers distinct inside (.refl distinct inside) rfl ended rfl done

end

/-! ## A whole kind -/

section
variable {store : TaskStore V δ} {kind : ObjectTaskRecoveryKind}

theorem recoveryKey_taskId {left right : ObjectTask V} (same : recoveryKey left = recoveryKey right) :
    left.taskId = right.taskId := congrArg (fun key => (ofLex key).2) same

theorem mem_recoveryRows {task : ObjectTask V} :
    task ∈ recoveryRows kind store ↔ task ∈ store.tasks ∧ recoverable kind task = true := by
  rw [recoveryRows, List.mem_insertionSort, List.mem_filter]

theorem recoveryRows_sorted (distinct : store.Distinct) :
    (recoveryRows kind store).Pairwise fun left right => recoveryKey left < recoveryKey right := by
  have ordered := List.pairwise_insertionSort (fun left right : ObjectTask V =>
    recoveryKey left ≤ recoveryKey right) (store.tasks.filter (recoverable kind))
  have ids : ((recoveryRows kind store).map ObjectTask.taskId).Nodup :=
    ((List.perm_insertionSort _ _).map ObjectTask.taskId).nodup_iff.mpr
      (distinct.sublist (List.filter_sublist.map _))
  have apart := List.pairwise_map.mp ids
  exact ordered.imp₂ (fun left right less other => lt_of_le_of_ne less fun same =>
    other (recoveryKey_taskId same)) apart

theorem Writes.key {task task' : ObjectTask V} {after : TaskStore V δ} (writes : Writes store task task' after) :
    recoveryKey task' = recoveryKey task := by
  rw [recoveryKey, writes.same.createdAt, writes.same.taskId, recoveryKey]

/-- Writing a task leaves the rows behind it. -/
theorem Writes.behind {task task' : ObjectTask V} {after : TaskStore V δ} (writes : Writes store task task' after)
    (distinct : store.Distinct) (inside : task ∈ store.tasks) :
    ((recoveryRows kind after).filter fun other => decide (recoveryKey task < recoveryKey other)) =
      (recoveryRows kind store).filter fun other => decide (recoveryKey task < recoveryKey other) := by
  refine Pages.sorted_unique ((recoveryRows_sorted (writes.distinct distinct)).filter _)
    ((recoveryRows_sorted distinct).filter _) fun row => ?_
  rw [List.mem_filter, List.mem_filter, mem_recoveryRows, mem_recoveryRows, decide_eq_true_iff]
  refine and_congr_left fun behind => and_congr_left fun _ => ?_
  have other : row.taskId ≠ task.taskId → (row ∈ after.tasks ↔ row ∈ store.tasks) := by
    intro apart
    rw [writes.tasks, TaskStore.updateObjectTask, List.mem_map]
    constructor
    · rintro ⟨earlier, listed, rfl⟩
      split_ifs at apart ⊢ with same
      · exact absurd writes.same.taskId apart
      · exact listed
    · intro listed
      exact ⟨row, listed, if_neg fun same => apart (same.trans writes.same.taskId)⟩
  by_cases same : row.taskId = task.taskId
  · constructor
    · intro listed
      have row_ := getObjectTask_mem (writes.distinct distinct) listed
      rw [writes.getObjectTask, same, if_pos rfl, getObjectTask_mem distinct inside] at row_
      cases row_
      rw [writes.key] at behind
      exact absurd behind (lt_irrefl _)
    · intro listed
      obtain rfl := List.inj_on_of_nodup_map distinct listed inside same
      exact absurd behind (lt_irrefl _)
  · exact other same

end

section
variable [DecidableEq δ] {config : MessageConfig} {sha256 : String → Digest} {draws : RecoveryDraws δ}
  {pageSize : Nat} {kind : ObjectTaskRecoveryKind}

theorem recovery_steady : Sweep.Steady (fun tally : Tally V δ => recoveryRows kind tally.store) recoveryKey
    (recoverTask config sha256 draws pageSize kind) fun tally => tally.store.Distinct where
  sorted := recoveryRows_sorted
  keeps := by
    intro tally task next distinct listed done
    obtain ⟨inside, selected⟩ := mem_recoveryRows.mp listed
    obtain ⟨task', recovers⟩ := recoverTask_recovers distinct inside selected done
    exact recovers.writes.distinct distinct
  behind := by
    intro tally task next distinct listed done
    obtain ⟨inside, selected⟩ := mem_recoveryRows.mp listed
    obtain ⟨task', recovers⟩ := recoverTask_recovers distinct inside selected done
    exact recovers.writes.behind distinct inside

/-- What a kind of recovery makes of a task. -/
structure Recovered (draws : RecoveryDraws δ) (kind : ObjectTaskRecoveryKind) (task task' : ObjectTask V) :
    Prop where
  same : SameTask task task'
  status : task'.status = recoveredStatus draws kind task
  tried : counted draws kind task = true → task.notification.recipientPid ≠ none →
    task'.notification.status ≠ .none
  untouched : counted draws kind task = false → task' = task

/-- The tasks of a kind are recovered, the others are as before, and the counted ones are in the tally. -/
structure RecoversAll (draws : RecoveryDraws δ) (kind : ObjectTaskRecoveryKind) (limit : Nat)
    (listed : List (ObjectTask V)) (tally last : Tally V δ) : Prop where
  distinct : last.store.Distinct
  ids : last.store.tasks.map ObjectTask.taskId = tally.store.tasks.map ObjectTask.taskId
  recovered : ∀ task ∈ listed, ∃ task', last.store.getObjectTask task.taskId = some task' ∧
    Recovered draws kind task task'
  others : ∀ taskId, (∀ task ∈ listed, task.taskId ≠ taskId) →
    last.store.getObjectTask taskId = tally.store.getObjectTask taskId
  total : last.total = tally.total + (listed.filter (counted draws kind)).length
  sample : tally.sample.length ≤ limit → last.sample =
    (tally.sample ++ (listed.filter (counted draws kind)).map ObjectTask.taskId).take limit

theorem recoverTasks_recoversAll {listed : List (ObjectTask V)} {tally last : Tally V δ}
    (distinct : tally.store.Distinct)
    (sorted : listed.Pairwise fun left right => recoveryKey left < recoveryKey right)
    (inside : ∀ task ∈ listed, task ∈ recoveryRows kind tally.store)
    (done : listed.foldlM (recoverTask config sha256 draws pageSize kind) tally = .ok last) :
    RecoversAll draws kind pageSize listed tally last := by
  induction listed generalizing tally with
  | nil =>
      cases done
      refine ⟨distinct, rfl, fun _ member => (by cases member), fun _ _ => rfl, rfl, fun short => ?_⟩
      rw [List.filter_nil, List.map_nil, List.append_nil, List.take_of_length_le short]
  | cons task listed ih =>
      rw [List.foldlM_cons] at done
      obtain ⟨next, first, rest⟩ := bind_eq_ok.mp done
      obtain ⟨stored, selected⟩ := mem_recoveryRows.mp (inside task List.mem_cons_self)
      obtain ⟨task', recovers⟩ := recoverTask_recovers distinct stored selected first
      have writes := recovers.writes
      have later := (List.pairwise_cons.mp sorted).1
      have apart (other : ObjectTask V) (listed' : other ∈ listed) : task.taskId ≠ other.taskId := by
        intro same
        have stored' := (mem_recoveryRows.mp (inside other (List.mem_cons_of_mem _ listed'))).1
        obtain rfl := List.inj_on_of_nodup_map distinct stored stored' same
        exact lt_irrefl _ (later task listed')
      have still (other : ObjectTask V) (listed' : other ∈ listed) : other ∈ recoveryRows kind next.store := by
        have kept : other ∈ (recoveryRows kind tally.store).filter fun other =>
            decide (recoveryKey task < recoveryKey other) :=
          List.mem_filter.mpr ⟨inside other (List.mem_cons_of_mem _ listed'), decide_eq_true (later other listed')⟩
        rw [← writes.behind distinct stored] at kept
        exact (List.mem_filter.mp kept).1
      have all := ih (writes.distinct distinct) (List.pairwise_cons.mp sorted).2 still rest
      refine ⟨all.distinct, ?_, ?_, fun taskId none => ?_, ?_, fun short => ?_⟩
      · rw [all.ids, writes.tasks, update_ids]
      · rintro other member
        rcases List.mem_cons.mp member with rfl | listed'
        · refine ⟨task', ?_, writes.same, recovers.status, recovers.tried, recovers.untouched⟩
          rw [all.others _ fun other listed' same => apart other listed' same.symm, writes.getObjectTask,
            if_pos rfl, getObjectTask_mem distinct stored]
          rfl
        · exact all.recovered other listed'
      · rw [all.others taskId fun other listed' => none other (List.mem_cons_of_mem _ listed'),
          writes.getObjectTask, if_neg (none task List.mem_cons_self)]
      · rw [all.total, recovers.total, List.filter_cons]
        split_ifs
        · rw [List.length_cons]
          omega
        · rfl
      · have sample := recovers.sample
        rw [List.filter_cons]
        by_cases counts : counted draws kind task = true
        · rw [if_pos counts, List.map_cons]
          by_cases room : tally.sample.length < pageSize
          · rw [if_pos ⟨counts, room⟩] at sample
            rw [all.sample (by rw [sample, List.length_append]; exact room), sample, List.append_assoc]
            rfl
          · rw [if_neg fun both => room both.2] at sample
            have full : tally.sample.length = pageSize := le_antisymm short (Nat.le_of_not_lt room)
            rw [all.sample (by rw [sample]; exact short), sample, ← full, List.take_left, List.take_left]
        · rw [if_neg fun both => counts both.1] at sample
          rw [if_neg counts, all.sample (by rw [sample]; exact short), sample]

/-- The pages of a kind recover every task of it. -/
theorem recoverKind_recoversAll (positive : 0 < pageSize) {store : TaskStore V δ} (distinct : store.Distinct)
    {last : Tally V δ} (done : recoverKind config sha256 draws pageSize kind store = .ok last) :
    RecoversAll draws kind pageSize (recoveryRows kind store) ⟨store, 0, []⟩ last := by
  have all (rows : List (ObjectTask V)) : (rows.filter fun row => Pages.beyond none (recoveryKey row)) = rows :=
    List.filter_eq_self.mpr fun _ _ => rfl
  have short : ((recoveryRows kind store).filter fun row => Pages.beyond none (recoveryKey row)).length <
      store.tasks.length + 1 := by
    rw [all, recoveryRows, List.length_insertionSort]
    exact Nat.lt_succ_of_le (List.length_filter_le _ _)
  rw [recoverKind, recovery_steady.sweep_eq positive distinct short, all] at done
  exact recoverTasks_recoversAll distinct (recoveryRows_sorted distinct) (fun _ inside => inside) done

omit [DecidableEq δ] in
/-- Every task after the pages of a kind. -/
theorem RecoversAll.each {store : TaskStore V δ} (distinct : store.Distinct) {last : Tally V δ}
    (all : RecoversAll draws kind pageSize (recoveryRows kind store) ⟨store, 0, []⟩ last) {task : ObjectTask V}
    (inside : task ∈ store.tasks) : ∃ task', last.store.getObjectTask task.taskId = some task' ∧
      (recoverable kind task = true ∧ Recovered draws kind task task' ∨
        recoverable kind task = false ∧ task' = task) := by
  cases selected : recoverable kind task with
  | true =>
      obtain ⟨task', found, recovered⟩ := all.recovered task (mem_recoveryRows.mpr ⟨inside, selected⟩)
      exact ⟨task', found, .inl ⟨rfl, recovered⟩⟩
  | false =>
      refine ⟨task, ?_, .inr ⟨rfl, rfl⟩⟩
      rw [all.others]
      · exact getObjectTask_mem distinct inside
      · intro other listed same
        obtain ⟨inside', selected'⟩ := mem_recoveryRows.mp listed
        obtain rfl := List.inj_on_of_nodup_map distinct inside' inside same
        rw [selected] at selected'
        cases selected'

omit [DecidableEq δ] in
/-- The rows of a later kind, when the earlier one leaves the tasks to `keep` and takes the others. -/
theorem RecoversAll.rows {store : TaskStore V δ} (distinct : store.Distinct) {last : Tally V δ}
    (all : RecoversAll draws kind pageSize (recoveryRows kind store) ⟨store, 0, []⟩ last)
    {later : ObjectTaskRecoveryKind} {keep : ObjectTask V → Bool}
    (taken : ∀ task task', recoverable kind task = true → Recovered draws kind task task' →
      recoverable later task' = true → task' = task ∧ keep task = true)
    (left : ∀ task task', recoverable kind task = true → Recovered draws kind task task' → keep task = true →
      recoverable later task = true → task' = task)
    (free : ∀ task, recoverable kind task = false → recoverable later task = true → keep task = true) :
    recoveryRows later last.store = (recoveryRows later store).filter keep := by
  refine Pages.sorted_unique (recoveryRows_sorted all.distinct) ((recoveryRows_sorted distinct).filter _)
    fun row => ?_
  rw [List.mem_filter, mem_recoveryRows, mem_recoveryRows]
  constructor
  · rintro ⟨inside, selected⟩
    have listed := List.mem_map_of_mem (f := ObjectTask.taskId) inside
    rw [all.ids] at listed
    obtain ⟨task, inside', same⟩ := List.mem_map.mp listed
    obtain ⟨task', found, became⟩ := all.each distinct inside'
    rw [same, getObjectTask_mem all.distinct inside] at found
    cases found
    rcases became with ⟨here, recovered⟩ | ⟨free', rfl⟩
    · obtain ⟨rfl, kept⟩ := taken task row here recovered selected
      exact ⟨⟨inside', selected⟩, kept⟩
    · exact ⟨⟨inside', selected⟩, free row free' selected⟩
  · rintro ⟨⟨inside, selected⟩, kept⟩
    obtain ⟨task', found, became⟩ := all.each distinct inside
    rcases became with ⟨here, recovered⟩ | ⟨-, rfl⟩
    · obtain rfl := left row task' here recovered kept selected
      exact ⟨mem_tasks found, selected⟩
    · exact ⟨mem_tasks found, selected⟩

end

theorem Change.distinct {restoring : Prop} {before after : TaskStore V δ}
    {new : List (String × NotificationPhase)} (change : Change restoring before new after)
    (distinct : before.Distinct) : after.Distinct := by
  have updated (store : TaskStore V δ) (task : ObjectTask V) (known : store.Distinct) :
      (store.updateObjectTask task).Distinct := by
    rw [TaskStore.Distinct, update_ids]
    exact known
  cases change with
  | outside same => exact distinct
  | @start task new queued untold =>
      rw [TaskStore.Distinct, List.map_append, List.nodup_append]
      refine ⟨distinct, List.nodup_singleton _, ?_⟩
      rintro id old other fresh rfl
      obtain rfl := List.mem_singleton.mp fresh
      obtain ⟨row, inside, same⟩ := List.mem_map.mp old
      have missed := List.find?_eq_none.mp new row inside
      simp [same] at missed
  | tell found same status told unmatched posted sender matched =>
      refine updated _ _ ?_
      rw [TaskStore.Distinct, posted.tasks]
      exact distinct
  | quiet | kept | enter | restore | slot => exact updated _ _ distinct

theorem Changes.distinct {restoring : Prop} {start last : TaskStore V δ}
    {entered : List (String × NotificationPhase)} (changes : Changes restoring start entered last)
    (distinct : start.Distinct) : last.Distinct := by
  induction changes with
  | refl => exact distinct
  | step _ change ih => exact change.distinct ih

/-! ## A whole recovery -/

/-- What a recovery makes of a task's status. -/
def settledStatus (draws : RecoveryDraws δ) (task : ObjectTask V) : ObjectTaskStatus :=
  if task.status.terminal = false then .abandoned
  else if lost draws task then .resultUnavailableAfterReopen
  else task.status

/-- The statuses that a recovery does not notify of again. -/
def ObjectTaskStatus.setAside : ObjectTaskStatus → Bool
  | .abandoned | .supersededByRestore | .resultUnavailableAfterReopen => true
  | _ => false

structure Settles (draws : RecoveryDraws δ) (task task' : ObjectTask V) : Prop where
  same : SameTask task task'
  status : task'.status = settledStatus draws task
  tried : task.status.setAside = false → task.notification.recipientPid ≠ none →
    task'.notification.status ≠ .none

/-- No task is active, no result is promised that is gone, and the totals and samples are those of the rows
before. -/
structure RecoversStore (draws : RecoveryDraws δ) (pageSize : Nat) (store store' : TaskStore V δ)
    (summary : ObjectTaskRecoverySummary) : Prop where
  tasks : ∀ taskId task, store.getObjectTask taskId = some task →
    ∃ task', store'.getObjectTask taskId = some task' ∧ Settles draws task task'
  summary : summary =
    { abandonedTotal := (recoveryRows .active store).length
      resultUnavailableTotal := ((recoveryRows .missingResult store).filter (lost draws)).length
      notificationRetriedTotal := ((recoveryRows .notification store).filter fun task => !lost draws task).length
      abandonedSample := ((recoveryRows .active store).map ObjectTask.taskId).take pageSize
      resultUnavailableSample :=
        (((recoveryRows .missingResult store).filter (lost draws)).map ObjectTask.taskId).take pageSize
      notificationRetriedSample := (((recoveryRows .notification store).filter fun task =>
        !lost draws task).map ObjectTask.taskId).take pageSize }

/-- What is lost is a result of a succeeded task. -/
theorem lost_recoverable {draws : RecoveryDraws δ} {task : ObjectTask V} (gone : lost draws task = true) :
    task.status = .succeeded ∧ recoverable .missingResult task = true := by
  rw [lost, Bool.and_eq_true, decide_eq_true_iff] at gone
  obtain ⟨succeeded, missing⟩ := gone
  refine ⟨succeeded, ?_⟩
  cases result : task.resultOid with
  | none =>
      rw [result] at missing
      cases missing
  | some oid =>
      rw [recoverable, succeeded, result]
      rfl

section
variable [DecidableEq δ] {config : MessageConfig} {sha256 : String → Digest} {draws : RecoveryDraws δ}
  {pageSize : Nat}

theorem recoverPersistedTasks_recovers (positive : 0 < pageSize) {store : TaskStore V δ}
    (distinct : store.Distinct) {result : TaskStore V δ × ObjectTaskRecoverySummary}
    (done : recoverPersistedTasks config sha256 draws pageSize store = .ok result) :
    RecoversStore draws pageSize store result.1 result.2 := by
  obtain ⟨abandoned, first, done⟩ := bind_eq_ok.mp done
  obtain ⟨unavailable, second, done⟩ := bind_eq_ok.mp done
  obtain ⟨retried, third, done⟩ := bind_eq_ok.mp done
  cases done
  have all₁ := recoverKind_recoversAll positive distinct first
  have all₂ := recoverKind_recoversAll positive all₁.distinct second
  have all₃ := recoverKind_recoversAll positive all₂.distinct third
  have whole {α : Type} (rows : List α) : (rows.filter fun _ => true) = rows :=
    List.filter_eq_self.mpr fun _ _ => rfl
  -- An abandoned task is of no later kind, and no active one was.
  have apart (later : ObjectTaskRecoveryKind) (other : later ≠ .active) :
      recoveryRows later abandoned.store = recoveryRows later store := by
    rw [← whole (recoveryRows later store)]
    refine all₁.rows distinct (fun task task' _ recovered selected => ?_) (fun task task' active _ _ selected => ?_)
      fun _ _ _ => rfl
    · have status : task'.status = .abandoned := recovered.status
      cases later with
      | active => exact absurd rfl other
      | _ =>
          rw [recoverable, status] at selected
          cases selected
    · exfalso
      revert active selected
      cases later with
      | active => exact absurd rfl other
      | _ =>
          simp only [recoverable]
          cases task.status <;> simp
  have rows₂ := apart .missingResult (by decide)
  have rows₃ : recoveryRows .notification unavailable.store =
      (recoveryRows .notification store).filter fun task => !lost draws task := by
    rw [← apart .notification (by decide)]
    refine all₂.rows all₁.distinct (fun task task' _ recovered selected => ?_)
      (fun task task' _ recovered kept _ => recovered.untouched ((Bool.not_eq_true' _).mp kept))
      fun task free _ => ?_
    · cases gone : lost draws task with
      | false =>
          obtain rfl := recovered.untouched gone
          exact ⟨rfl, rfl⟩
      | true =>
          have status := recovered.status
          simp only [recoveredStatus, gone, if_true] at status
          rw [recoverable, status] at selected
          cases selected
    · rw [Bool.not_eq_true', Bool.eq_false_iff]
      intro gone
      rw [(lost_recoverable gone).2] at free
      cases free
  refine ⟨fun taskId task found => ?_, ?_⟩
  · obtain rfl := getObjectTask_taskId found
    obtain ⟨task₁, found₁, became₁⟩ := all₁.each distinct (mem_tasks found)
    obtain ⟨task₂, found₂, became₂⟩ := all₂.each all₁.distinct (mem_tasks found₁)
    obtain ⟨task₃, found₃, became₃⟩ := all₃.each all₂.distinct (mem_tasks found₂)
    rw [getObjectTask_taskId found₁] at found₂
    rw [getObjectTask_taskId found₂] at found₃
    refine ⟨task₃, found₃, ?_⟩
    -- The last kind tries what is pending and changes no status.
    have last : SameTask task₂ task₃ ∧ task₃.status = task₂.status ∧
        (task₂.notification.recipientPid ≠ none → (task₂.status ∈ [ObjectTaskStatus.succeeded, .failed, .cancelled] ∨
          task₂.notification.status ≠ .none) → task₃.notification.status ≠ .none) := by
      rcases became₃ with ⟨-, recovered⟩ | ⟨free, rfl⟩
      · exact ⟨recovered.same, recovered.status, fun recipient _ => recovered.tried rfl recipient⟩
      · refine ⟨⟨rfl, rfl, rfl, rfl, rfl, rfl⟩, rfl, fun recipient either none => ?_⟩
        rcases either with listed | some
        · obtain ⟨pid, recipient⟩ := Option.ne_none_iff_exists'.mp recipient
          rw [recoverable, decide_eq_true listed, none, recipient] at free
          cases free
        · exact some none
    obtain ⟨same₃, status₃, tried₃⟩ := last
    rcases became₁ with ⟨active, recovered₁⟩ | ⟨ended, rfl⟩
    · have status₁ : task₁.status = .abandoned := recovered₁.status
      have free₂ : recoverable .missingResult task₁ = false := by
        rw [recoverable, status₁]
        rfl
      rcases became₂ with ⟨here, -⟩ | ⟨-, rfl⟩
      · rw [free₂] at here
        cases here
      refine ⟨recovered₁.same.trans same₃, ?_, fun _ recipient => ?_⟩
      · rw [status₃, status₁, settledStatus, if_pos]
        revert active
        rw [recoverable]
        cases task.status <;> decide
      · refine tried₃ (recovered₁.same.recipientPid ▸ recipient) (.inr (recovered₁.tried rfl recipient))
    · have terminal : task₁.status.terminal = true := by
        revert ended
        rw [recoverable]
        cases task₁.status <;> decide
      have settled : settledStatus draws task₁ =
          if lost draws task₁ then .resultUnavailableAfterReopen else task₁.status := by
        rw [settledStatus, terminal]
        rfl
      have kept (set : task₁.status.setAside = false) :
          task₁.status ∈ [ObjectTaskStatus.succeeded, .failed, .cancelled] := by
        revert terminal set
        cases task₁.status <;> decide
      rcases became₂ with ⟨-, recovered₂⟩ | ⟨free, rfl⟩
      · refine ⟨recovered₂.same.trans same₃, ?_, fun set recipient => ?_⟩
        · rw [status₃, recovered₂.status, settled]
          rfl
        · refine tried₃ (recovered₂.same.recipientPid ▸ recipient) ?_
          cases gone : lost draws task₁ with
          | true => exact .inr (recovered₂.tried gone recipient)
          | false =>
              obtain rfl := recovered₂.untouched gone
              exact .inl (kept set)
      · refine ⟨same₃, ?_, fun set recipient => tried₃ recipient (.inl (kept set))⟩
        rw [status₃, settled, if_neg]
        intro gone
        rw [(lost_recoverable gone).2] at free
        cases free
  · have total₁ := all₁.total
    have total₂ := all₂.total
    have total₃ := all₃.total
    have sample₁ := all₁.sample (Nat.zero_le _)
    have sample₂ := all₂.sample (Nat.zero_le _)
    have sample₃ := all₃.sample (Nat.zero_le _)
    rw [rows₂] at total₂ sample₂
    rw [rows₃] at total₃ sample₃
    simp only [counted, whole, Nat.zero_add, List.nil_append] at total₁ total₂ total₃ sample₁ sample₂ sample₃
    rw [total₁, total₂, total₃, sample₁, sample₂, sample₃]

/-- A recovery that returns settles every task of a run, whatever the page size, with exact totals. -/
theorem recovery_settles (config : MessageConfig) (sha256 : String → Digest) (actions : List (TaskAction V δ))
    (draws : RecoveryDraws δ) (positive : 0 < pageSize) {result : TaskStore V δ × ObjectTaskRecoverySummary}
    (done : recoverPersistedTasks config sha256 draws pageSize (TaskStore.after config sha256 actions).1 =
      .ok result) :
    RecoversStore draws pageSize (TaskStore.after config sha256 actions).1 result.1 result.2 := by
  have changes : Changes True TaskStore.empty _ (TaskStore.after config sha256 actions).1 :=
    after_changes actions fun _ _ _ => trivial
  exact recoverPersistedTasks_recovers positive (changes.distinct List.nodup_nil) done

/-- Two runners are left by a crash, and the pages have one task. -/
def smallDraws : RecoveryDraws Unit where
  now _ _ := "t4"
  attempt _ taskId := { smallAttempt with messageId := taskId }
  runner _ := ⟨[], by simp⟩
  stored _ := true

theorem recovery_settles_small : ∃ result,
    recoverPersistedTasks smallMessages ProcessStore.zeroDigest smallDraws 1
      (TaskStore.after smallMessages ProcessStore.zeroDigest (smallActions ++ leftActions)).1 = .ok result ∧
    RecoversStore smallDraws 1
      (TaskStore.after smallMessages ProcessStore.zeroDigest (smallActions ++ leftActions)).1 result.1 result.2 := by
  have returns : (recoverPersistedTasks smallMessages ProcessStore.zeroDigest smallDraws 1
      (TaskStore.after smallMessages ProcessStore.zeroDigest (smallActions ++ leftActions)).1).toBool = true := by
    decide +kernel
  cases done : recoverPersistedTasks smallMessages ProcessStore.zeroDigest smallDraws 1
      (TaskStore.after smallMessages ProcessStore.zeroDigest (smallActions ++ leftActions)).1 with
  | ok result => exact ⟨result, rfl, recovery_settles smallMessages ProcessStore.zeroDigest _ smallDraws Nat.one_pos done⟩
  | error fault =>
      rw [done] at returns
      cases returns

end

end AgentLibOS.ObjectTasks
