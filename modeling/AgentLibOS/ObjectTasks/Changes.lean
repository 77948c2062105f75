import AgentLibOS.ObjectTasks.Mail

namespace AgentLibOS.ObjectTasks
open Library Library.Run Processes Messages

variable {V δ : Type}

/-! ## Small changes -/

/-- What a task keeps for its whole life. -/
structure SameTask (task task' : ObjectTask V) : Prop where
  taskId : task'.taskId = task.taskId
  ownerOid : task'.ownerOid = task.ownerOid
  creatorPid : task'.creatorPid = task.creatorPid
  tool : task'.tool = task.tool
  createdAt : task'.createdAt = task.createdAt
  recipientPid : task'.notification.recipientPid = task.notification.recipientPid

/-- The statuses that a transition takes a task to. -/
def moves : ObjectTaskStatus → ObjectTaskStatus → Bool
  | .succeeded, .resultUnavailableAfterReopen => true
  | .supersededByRestore, _ => false
  | before, .supersededByRestore => before.terminal
  | before, .queued | before, .resultUnavailableAfterReopen => false
  | before, _ => !before.terminal

/-- One change of the store and the phases that it enters; `restoring` allows that a checkpoint brings
a result back. -/
inductive Change (restoring : Prop) (before : TaskStore V δ) :
    List (String × NotificationPhase) → TaskStore V δ → Prop
  | outside {base : MessageStore δ} {payloads : String → Option (NotificationPayload V)}
      (same : Undisturbed before { before with base := base, payloads := payloads }) :
      Change restoring before [] { before with base := base, payloads := payloads }
  | start {task : ObjectTask V} (new : before.getObjectTask task.taskId = none)
      (queued : task.status = .queued) (untold : task.notification.status = .none) :
      Change restoring before [] { before with tasks := before.tasks ++ [task] }
  | quiet {task task' : ObjectTask V} (found : before.getObjectTask task.taskId = some task)
      (same : SameTask task task') (moved : moves task.status task'.status = true)
      (silent : phaseForStatus task'.status = none) :
      Change restoring before [] (before.updateObjectTask task')
  | kept {task task' : ObjectTask V} (found : before.getObjectTask task.taskId = some task)
      (same : SameTask task task') (status : task'.status = task.status)
      (notification : task'.notification = task.notification) :
      Change restoring before [] (before.updateObjectTask task')
  | enter {task task' : ObjectTask V} {phase : NotificationPhase}
      (found : before.getObjectTask task.taskId = some task) (same : SameTask task task')
      (moved : moves task.status task'.status = true) (entered : phaseForStatus task'.status = some phase)
      (reset : task'.notification.status = .none) :
      Change restoring before [(task.taskId, phase)] (before.updateObjectTask task')
  | restore {task task' : ObjectTask V} (allowed : restoring)
      (found : before.getObjectTask task.taskId = some task) (same : SameTask task task')
      (unavailable : task.status = .resultUnavailableAfterReopen) (restored : task'.status = .succeeded) :
      Change restoring before [(task.taskId, .completed)] (before.updateObjectTask task')
  | slot {task task' : ObjectTask V} (found : before.getObjectTask task.taskId = some task)
      (same : SameTask task task') (status : task'.status = task.status)
      (unmatched : ∀ phase, phaseForStatus task.status = some phase →
        deliveredMessageMatchesPhase before task phase = false)
      (undelivered : task'.notification.status ≠ .delivered) :
      Change restoring before [] (before.updateObjectTask task')
  | tell {task task' : ObjectTask V} {phase : NotificationPhase} {after : TaskStore V δ}
      {message : ProcessMessage} (found : before.getObjectTask task.taskId = some task)
      (same : SameTask task task') (status : task'.status = task.status)
      (told : phaseForStatus task.status = some phase)
      (unmatched : deliveredMessageMatchesPhase before task phase = false)
      (posted : Posted before after message (some (notificationPayload task phase)))
      (sender : message.sender = taskSender task.taskId)
      (matched : deliveredMessageMatchesPhase after task' phase = true) :
      Change restoring before [] (after.updateObjectTask task')

/-- Changes one after another, and the phases entered. -/
inductive Changes (restoring : Prop) (start : TaskStore V δ) :
    List (String × NotificationPhase) → TaskStore V δ → Prop
  | refl : Changes restoring start [] start
  | step {entered new : List (String × NotificationPhase)} {before after : TaskStore V δ}
      (earlier : Changes restoring start entered before) (change : Change restoring before new after) :
      Changes restoring start (entered ++ new) after

namespace Changes
variable {restoring : Prop} {start middle last : TaskStore V δ}
  {entered entered' : List (String × NotificationPhase)}

theorem single (change : Change restoring start entered last) : Changes restoring start entered last :=
  .step .refl change

theorem trans (first : Changes restoring start entered middle)
    (second : Changes restoring middle entered' last) : Changes restoring start (entered ++ entered') last := by
  induction second with
  | refl =>
      rw [List.append_nil]
      exact first
  | step earlier change ih =>
      rw [← List.append_assoc]
      exact .step ih change

theorem then_ (first : Changes restoring start [] middle) (second : Changes restoring middle entered last) :
    Changes restoring start entered last := first.trans second

end Changes

/-! ## Messages and phases -/

/-- No phase of a task is told more often than it was entered, and less often while its slot does not
name the message. -/
structure Balanced (entered : List (String × NotificationPhase)) (store : TaskStore V δ) : Prop where
  bounded : ∀ taskId phase, store.told taskId phase ≤ entered.count (taskId, phase)
  owed : ∀ taskId task phase, store.getObjectTask taskId = some task → phaseForStatus task.status = some phase →
    deliveredMessageMatchesPhase store task phase = false →
      store.told taskId phase < entered.count (taskId, phase)

/-- A delivered slot names the message of the current phase. -/
def Truthful (store : TaskStore V δ) : Prop :=
  ∀ taskId task phase, store.getObjectTask taskId = some task → phaseForStatus task.status = some phase →
    task.notification.status = .delivered → deliveredMessageMatchesPhase store task phase = true

theorem count_le_append {entered new : List (String × NotificationPhase)} (entry : String × NotificationPhase) :
    entered.count entry ≤ (entered ++ new).count entry := by
  rw [List.count_append]
  exact Nat.le_add_right _ _

/-- A row that is delivered as before, or that the new phases pay for, keeps the balance. -/
theorem Balanced.replace {entered new : List (String × NotificationPhase)} {store : TaskStore V δ}
    (balanced : Balanced entered store) {task task' : ObjectTask V}
    (found : store.getObjectTask task.taskId = some task) (same : SameTask task task')
    (paid : ∀ phase, phaseForStatus task'.status = some phase →
      deliveredMessageMatchesPhase store task' phase = false →
        store.told task.taskId phase < (entered ++ new).count (task.taskId, phase)) :
    Balanced (entered ++ new) (store.updateObjectTask task') := by
  have undisturbed := updateObjectTask_undisturbed store task'
  refine ⟨fun taskId phase => ?_, fun taskId row phase stored owes unmatched => ?_⟩
  · rw [undisturbed.told]
    exact (balanced.bounded taskId phase).trans (count_le_append _)
  · rw [undisturbed.told]
    rw [getObjectTask_update, same.taskId] at stored
    split_ifs at stored with here
    · subst here
      rw [found] at stored
      cases stored
      exact paid phase owes unmatched
    · exact (balanced.owed taskId row phase stored owes unmatched).trans_le (count_le_append _)

theorem deliveredMessageMatchesPhase_congr (store : TaskStore V δ) {task task' : ObjectTask V}
    (taskId : task'.taskId = task.taskId) (status : task'.status = task.status)
    (notification : task'.notification = task.notification) (phase : NotificationPhase) :
    deliveredMessageMatchesPhase store task' phase = deliveredMessageMatchesPhase store task phase := by
  rw [deliveredMessageMatchesPhase, deliveredMessageMatchesPhase, taskId, status, notification]

/-- The balance of the other rows when a task tells. -/
theorem Balanced.tell {entered : List (String × NotificationPhase)} {before after : TaskStore V δ}
    (balanced : Balanced entered before) {task task' : ObjectTask V} {phase : NotificationPhase}
    {message : ProcessMessage} (found : before.getObjectTask task.taskId = some task)
    (same : SameTask task task') (status : task'.status = task.status)
    (told : phaseForStatus task.status = some phase)
    (unmatched : deliveredMessageMatchesPhase before task phase = false)
    (posted : Posted before after message (some (notificationPayload task phase)))
    (sender : message.sender = taskSender task.taskId)
    (matched : deliveredMessageMatchesPhase after task' phase = true) :
    Balanced entered (after.updateObjectTask task') := by
  have owes := balanced.owed task.taskId task phase found told unmatched
  have counted (taskId : String) (other : NotificationPhase) : (after.updateObjectTask task').told taskId other =
      before.told taskId other + if task.taskId = taskId ∧ phase = other then 1 else 0 := by
    rw [(updateObjectTask_undisturbed after task').told, posted.told, sender]
    congr 1
    refine if_congr (and_congr ⟨taskSender_injective, congrArg taskSender⟩ ?_) rfl rfl
    change decide (phase.value = other.value) = true ↔ _
    rw [decide_eq_true_iff]
    cases phase <;> cases other <;> simp [NotificationPhase.value]
  refine ⟨fun taskId other => ?_, fun taskId row other stored owed unmatched' => ?_⟩
  · rw [counted]
    split_ifs with here
    · obtain ⟨rfl, rfl⟩ := here
      exact owes
    · exact balanced.bounded taskId other
  · rw [counted]
    rw [getObjectTask_update, same.taskId] at stored
    rw [show after.getObjectTask taskId = before.getObjectTask taskId by
      rw [TaskStore.getObjectTask, posted.tasks, TaskStore.getObjectTask]] at stored
    split_ifs at stored with here
    · subst here
      rw [found] at stored
      cases stored
      rw [status, told] at owed
      cases owed
      rw [show deliveredMessageMatchesPhase (after.updateObjectTask task') task' phase = true from matched]
        at unmatched'
      cases unmatched'
    · rw [if_neg fun both => here both.1]
      refine balanced.owed taskId row other stored owed (Bool.eq_false_iff.mpr fun before => ?_)
      have later : deliveredMessageMatchesPhase (after.updateObjectTask task') row other = true :=
        posted.delivered before
      rw [later] at unmatched'
      cases unmatched'

theorem Change.balanced {restoring : Prop} {before after : TaskStore V δ}
    {entered new : List (String × NotificationPhase)} (change : Change restoring before new after)
    (balanced : Balanced entered before) : Balanced (entered ++ new) after := by
  cases change with
  | outside same =>
      rw [List.append_nil]
      refine ⟨fun taskId phase => ?_, fun taskId task phase stored owes unmatched => ?_⟩
      · rw [same.told]
        exact balanced.bounded taskId phase
      · rw [same.told]
        refine balanced.owed taskId task phase stored owes (Bool.eq_false_iff.mpr fun matched => ?_)
        rw [same.delivered task phase matched] at unmatched
        cases unmatched
  | @start task new queued untold =>
      rw [List.append_nil]
      refine ⟨balanced.bounded, fun taskId row phase stored owes unmatched => ?_⟩
      rw [TaskStore.getObjectTask, List.find?_append, Option.or_eq_some_iff] at stored
      rcases stored with stored | ⟨-, stored⟩
      · exact balanced.owed taskId row phase stored owes unmatched
      · obtain rfl := List.mem_singleton.mp (List.mem_of_find?_eq_some stored)
        rw [queued] at owes
        cases owes
  | quiet found same moved silent =>
      refine balanced.replace found same fun phase owes => ?_
      rw [silent] at owes
      cases owes
  | @kept task task' found same status notification =>
      refine balanced.replace found same fun phase owes unmatched => ?_
      rw [List.append_nil]
      rw [deliveredMessageMatchesPhase_congr before same.taskId status notification] at unmatched
      exact balanced.owed task.taskId task phase found (status ▸ owes) unmatched
  | @enter task task' phase found same moved entered_ reset =>
      refine balanced.replace found same fun other owes _ => ?_
      rw [entered_] at owes
      cases owes
      rw [List.count_append, List.count_singleton_self]
      exact Nat.lt_succ_of_le (balanced.bounded task.taskId phase)
  | @restore task task' allowed found same unavailable restored =>
      refine balanced.replace found same fun other owes _ => ?_
      rw [restored] at owes
      cases owes
      rw [List.count_append, List.count_singleton_self]
      exact Nat.lt_succ_of_le (balanced.bounded task.taskId .completed)
  | @slot task task' found same status unmatched undelivered =>
      refine balanced.replace found same fun phase owes _ => ?_
      rw [List.append_nil]
      have owes' : phaseForStatus task.status = some phase := status ▸ owes
      exact balanced.owed task.taskId task phase found owes' (unmatched phase owes')
  | tell found same status told unmatched posted sender matched =>
      rw [List.append_nil]
      exact balanced.tell found same status told unmatched posted sender matched

theorem Changes.balanced {restoring : Prop} {start last : TaskStore V δ}
    {earlier entered : List (String × NotificationPhase)} (changes : Changes restoring start entered last)
    (balanced : Balanced earlier start) : Balanced (earlier ++ entered) last := by
  induction changes with
  | refl =>
      rw [List.append_nil]
      exact balanced
  | step _ change ih =>
      rw [← List.append_assoc]
      exact change.balanced ih

theorem empty_balanced : Balanced [] (TaskStore.empty : TaskStore V δ) := by
  refine ⟨fun taskId phase => le_rfl, fun taskId task phase stored => ?_⟩
  cases stored

end AgentLibOS.ObjectTasks
