import AgentLibOS.ObjectTasks.Runs
import AgentLibOS.Processes.Fencing

namespace AgentLibOS.ObjectTasks
open Library Library.Run Processes Messages

variable {V δ : Type}

/-! ## Entries without restores -/

/-- The terminal phases that a task of this status may have entered. -/
def spent : ObjectTaskStatus → List NotificationPhase
  | .queued | .running | .waitingHuman | .waitingProcess | .waitingMessage => []
  | .succeeded => [.completed]
  | .failed => [.failed]
  | .cancelled => [.cancelled]
  | .abandoned => [.abandoned]
  | .resultUnavailableAfterReopen => [.completed, .resultUnavailableAfterReopen]
  | .supersededByRestore => [.completed, .failed, .cancelled, .abandoned, .resultUnavailableAfterReopen]

theorem spent_moves {before after : ObjectTaskStatus} (moved : moves before after = true)
    {phase : NotificationPhase} (inside : phase ∈ spent before) : phase ∈ spent after := by
  revert moved inside
  cases before <;> cases after <;> cases phase <;> decide

theorem spent_entered {before after : ObjectTaskStatus} (moved : moves before after = true)
    {phase : NotificationPhase} (entered : phaseForStatus after = some phase) (terminal : phase ≠ .waiting) :
    phase ∉ spent before ∧ phase ∈ spent after := by
  revert moved entered terminal
  cases before <;> cases after <;> cases phase <;> decide

/-- Every terminal phase is entered at most once. -/
structure EnteredOnce (entered : List (String × NotificationPhase)) (store : TaskStore V δ) : Prop where
  once : ∀ taskId phase, phase ≠ .waiting → entered.count (taskId, phase) ≤ 1
  spent : ∀ taskId task phase, store.getObjectTask taskId = some task → phase ≠ .waiting →
    0 < entered.count (taskId, phase) → phase ∈ spent task.status
  absent : ∀ taskId phase, store.getObjectTask taskId = none → entered.count (taskId, phase) = 0

theorem EnteredOnce.replace {entered : List (String × NotificationPhase)} {store : TaskStore V δ}
    (known : EnteredOnce entered store) {task task' : ObjectTask V}
    (found : store.getObjectTask task.taskId = some task) (same : SameTask task task')
    (kept : ∀ phase, phase ∈ ObjectTasks.spent task.status → phase ∈ ObjectTasks.spent task'.status) :
    EnteredOnce entered (store.updateObjectTask task') := by
  refine ⟨known.once, fun taskId row phase stored terminal counted => ?_, fun taskId phase stored => ?_⟩
  · rw [getObjectTask_update, same.taskId] at stored
    split_ifs at stored with here
    · subst here
      rw [found] at stored
      cases stored
      exact kept phase (known.spent task.taskId task phase found terminal counted)
    · exact known.spent taskId row phase stored terminal counted
  · rw [getObjectTask_update, same.taskId] at stored
    split_ifs at stored with here
    · subst here
      rw [found] at stored
      cases stored
    · exact known.absent taskId phase stored

theorem Change.enteredOnce {before after : TaskStore V δ} {entered new : List (String × NotificationPhase)}
    (change : Change False before new after) (known : EnteredOnce entered before) :
    EnteredOnce (entered ++ new) after := by
  cases change with
  | outside same =>
      rw [List.append_nil]
      exact ⟨known.once, known.spent, known.absent⟩
  | @start task new queued untold =>
      rw [List.append_nil]
      refine ⟨known.once, fun taskId row phase stored terminal counted => ?_, fun taskId phase stored => ?_⟩
      · rw [TaskStore.getObjectTask, List.find?_append, Option.or_eq_some_iff] at stored
        rcases stored with stored | ⟨missing, -⟩
        · exact known.spent taskId row phase stored terminal counted
        · rw [known.absent taskId phase missing] at counted
          cases counted
      · rw [TaskStore.getObjectTask, List.find?_append, Option.or_eq_none_iff] at stored
        exact known.absent taskId phase stored.1
  | quiet found same moved silent =>
      rw [List.append_nil]
      exact known.replace found same fun phase inside => spent_moves moved inside
  | kept found same status notification =>
      rw [List.append_nil]
      exact known.replace found same fun phase inside => status ▸ inside
  | @enter task task' phase found same moved entered_ reset =>
      have kept := known.replace found same fun phase inside => spent_moves moved inside
      have counted (taskId : String) (other : NotificationPhase) :
          (entered ++ [(task.taskId, phase)]).count (taskId, other) =
            entered.count (taskId, other) + if task.taskId = taskId ∧ phase = other then 1 else 0 := by
        rw [List.count_append, List.count_singleton]
        simp only [beq_iff_eq, Prod.mk.injEq]
      have unspent (terminal : phase ≠ .waiting) : entered.count (task.taskId, phase) = 0 := by
        by_contra positive
        exact (spent_entered moved entered_ terminal).1
          (known.spent task.taskId task phase found terminal (Nat.pos_of_ne_zero positive))
      refine ⟨fun taskId other terminal => ?_, fun taskId row other stored terminal positive => ?_,
        fun taskId other stored => ?_⟩
      · rw [counted]
        split_ifs with here
        · obtain ⟨rfl, rfl⟩ := here
          rw [unspent terminal]
        · exact known.once taskId other terminal
      · rw [counted] at positive
        by_cases here : task.taskId = taskId ∧ phase = other
        · obtain ⟨rfl, rfl⟩ := here
          rw [getObjectTask_update_self found same.taskId] at stored
          cases stored
          exact (spent_entered moved entered_ terminal).2
        · rw [if_neg here] at positive
          exact kept.spent taskId row other stored terminal positive
      · rw [counted, if_neg, kept.absent taskId other stored]
        rintro ⟨rfl, -⟩
        rw [getObjectTask_update_self found same.taskId] at stored
        cases stored
  | restore allowed => cases allowed
  | slot found same status unmatched undelivered =>
      rw [List.append_nil]
      exact known.replace found same fun phase inside => status ▸ inside
  | @tell task task' phase middle message found same status told unmatched posted sender matched =>
      rw [List.append_nil]
      have found' : middle.getObjectTask task.taskId = some task := by
        rw [TaskStore.getObjectTask, posted.tasks]
        exact found
      have known' : EnteredOnce entered middle := by
        have rows (taskId : String) : middle.getObjectTask taskId = before.getObjectTask taskId := by
          rw [TaskStore.getObjectTask, posted.tasks, TaskStore.getObjectTask]
        refine ⟨known.once, fun taskId row phase stored => ?_, fun taskId phase stored => ?_⟩
        · exact known.spent taskId row phase (rows taskId ▸ stored)
        · exact known.absent taskId phase (rows taskId ▸ stored)
      exact known'.replace found' same fun phase inside => status ▸ inside

theorem Changes.enteredOnce {last : TaskStore V δ} {entered : List (String × NotificationPhase)}
    (changes : Changes False TaskStore.empty entered last) : EnteredOnce entered last := by
  induction changes with
  | refl =>
      refine ⟨fun _ _ _ => Nat.zero_le _, fun taskId task phase stored => ?_, fun _ _ _ => rfl⟩
      cases stored
  | step _ change ih => exact change.enteredOnce ih

/-! ## Slots without restores -/

theorem Truthful.replace {store : TaskStore V δ} (truthful : Truthful store) {task task' : ObjectTask V}
    (found : store.getObjectTask task.taskId = some task) (same : SameTask task task')
    (true_ : ∀ phase, phaseForStatus task'.status = some phase → task'.notification.status = .delivered →
      deliveredMessageMatchesPhase store task' phase = true) : Truthful (store.updateObjectTask task') := by
  intro taskId row phase stored owes delivered
  rw [getObjectTask_update, same.taskId] at stored
  split_ifs at stored with here
  · subst here
    rw [found] at stored
    cases stored
    exact true_ phase owes delivered
  · exact truthful taskId row phase stored owes delivered

theorem Change.truthful {before after : TaskStore V δ} {new : List (String × NotificationPhase)}
    (change : Change False before new after) (truthful : Truthful before) : Truthful after := by
  cases change with
  | outside same =>
      exact fun taskId row phase stored owes delivered =>
        same.delivered row phase (truthful taskId row phase stored owes delivered)
  | @start task new queued untold =>
      intro taskId row phase stored owes delivered
      rw [TaskStore.getObjectTask, List.find?_append, Option.or_eq_some_iff] at stored
      rcases stored with stored | ⟨-, stored⟩
      · exact truthful taskId row phase stored owes delivered
      · obtain rfl := List.mem_singleton.mp (List.mem_of_find?_eq_some stored)
        rw [untold] at delivered
        cases delivered
  | quiet found same moved silent =>
      refine truthful.replace found same fun phase owes _ => ?_
      rw [silent] at owes
      cases owes
  | @kept task task' found same status notification =>
      refine truthful.replace found same fun phase owes delivered => ?_
      rw [deliveredMessageMatchesPhase_congr before same.taskId status notification]
      exact truthful task.taskId task phase found (status ▸ owes) (notification ▸ delivered)
  | enter found same moved entered reset =>
      refine truthful.replace found same fun phase _ delivered => ?_
      rw [reset] at delivered
      cases delivered
  | restore allowed => cases allowed
  | slot found same status unmatched undelivered =>
      exact truthful.replace found same fun _ _ delivered => absurd delivered undelivered
  | @tell task task' phase middle message found same status told unmatched posted sender matched =>
      have rows (taskId : String) : middle.getObjectTask taskId = before.getObjectTask taskId := by
        rw [TaskStore.getObjectTask, posted.tasks, TaskStore.getObjectTask]
      have truthful' : Truthful middle := fun taskId row phase stored owes delivered =>
        posted.delivered (truthful taskId row phase (rows taskId ▸ stored) owes delivered)
      refine truthful'.replace ((rows task.taskId).trans found) same fun other owes _ => ?_
      rw [status, told] at owes
      cases owes
      exact matched

theorem Changes.truthful {last : TaskStore V δ} {entered : List (String × NotificationPhase)}
    (changes : Changes False TaskStore.empty entered last) : Truthful last := by
  induction changes with
  | refl =>
      intro taskId task phase stored
      cases stored
  | step _ change ih => exact change.truthful ih

/-- A slot that names its message has told. -/
theorem told_of_matches {store : TaskStore V δ} {task : ObjectTask V} {phase : NotificationPhase}
    (matched : deliveredMessageMatchesPhase store task phase = true) : 0 < store.told task.taskId phase := by
  obtain ⟨-, messageId, recipientPid, message, payload, -, -, found, sender, -, -, kept, -, -, named, -⟩ :=
    deliveredMessageMatchesPhase_iff.mp matched
  have id : message.messageId = messageId := by simpa using List.find?_some found
  rw [TaskStore.told, List.countP_pos_iff]
  refine ⟨message, List.mem_of_find?_eq_some found, ?_⟩
  rw [tells, id, kept, sender, Option.any_some, named, decide_eq_true rfl, decide_eq_true rfl]
  rfl

/-! ## Statuses -/

/-- Statuses that no change leaves. -/
structure Closed (statuses : ObjectTaskStatus → Prop) : Prop where
  moved : ∀ before after, statuses before → moves before after = true → statuses after
  restored : statuses .resultUnavailableAfterReopen → statuses .succeeded

/-- The task is as before, in statuses that it does not leave. -/
structure Outlives (task task' : ObjectTask V) : Prop where
  same : SameTask task task'
  stays : ∀ statuses, Closed statuses → statuses task.status → statuses task'.status

theorem Outlives.refl (task : ObjectTask V) : Outlives task task :=
  ⟨⟨rfl, rfl, rfl, rfl, rfl, rfl⟩, fun _ _ h => h⟩

theorem SameTask.trans {first second third : ObjectTask V} (left : SameTask first second)
    (right : SameTask second third) : SameTask first third :=
  ⟨right.taskId.trans left.taskId, right.ownerOid.trans left.ownerOid,
    right.creatorPid.trans left.creatorPid, right.tool.trans left.tool,
    right.createdAt.trans left.createdAt, right.recipientPid.trans left.recipientPid⟩

theorem Outlives.trans {first second third : ObjectTask V} (left : Outlives first second)
    (right : Outlives second third) : Outlives first third :=
  ⟨left.same.trans right.same, fun statuses closed here =>
    right.stays statuses closed (left.stays statuses closed here)⟩

theorem update_outlives {store : TaskStore V δ} {task task' : ObjectTask V}
    (found : store.getObjectTask task.taskId = some task) (outlives : Outlives task task') {taskId : String}
    {row : ObjectTask V} (stored : store.getObjectTask taskId = some row) :
    ∃ row', (store.updateObjectTask task').getObjectTask taskId = some row' ∧ Outlives row row' := by
  rw [getObjectTask_update, outlives.same.taskId]
  split_ifs with here
  · subst here
    rw [found] at stored
    cases stored
    exact ⟨task', by rw [found]; rfl, outlives⟩
  · exact ⟨row, stored, .refl row⟩

theorem Change.outlives {restoring : Prop} {before after : TaskStore V δ} {new : List (String × NotificationPhase)}
    (change : Change restoring before new after) {taskId : String} {row : ObjectTask V}
    (stored : before.getObjectTask taskId = some row) :
    ∃ row', after.getObjectTask taskId = some row' ∧ Outlives row row' := by
  cases change with
  | outside same => exact ⟨row, stored, .refl row⟩
  | start new queued untold =>
      refine ⟨row, ?_, .refl row⟩
      rw [TaskStore.getObjectTask] at stored ⊢
      rw [List.find?_append, stored, Option.some_or]
  | quiet found same moved silent =>
      exact update_outlives found ⟨same, fun _ closed here => closed.moved _ _ here moved⟩ stored
  | kept found same status notification =>
      exact update_outlives found ⟨same, fun _ _ here => status ▸ here⟩ stored
  | enter found same moved entered reset =>
      exact update_outlives found ⟨same, fun _ closed here => closed.moved _ _ here moved⟩ stored
  | restore allowed found same unavailable restored =>
      refine update_outlives found ⟨same, fun _ closed here => ?_⟩ stored
      rw [restored]
      rw [unavailable] at here
      exact closed.restored here
  | slot found same status unmatched undelivered =>
      exact update_outlives found ⟨same, fun _ _ here => status ▸ here⟩ stored
  | @tell task task' phase middle message found same status told unmatched posted sender matched =>
      have rows (taskId : String) : middle.getObjectTask taskId = before.getObjectTask taskId := by
        rw [TaskStore.getObjectTask, posted.tasks, TaskStore.getObjectTask]
      exact update_outlives ((rows task.taskId).trans found) ⟨same, fun _ _ here => status ▸ here⟩
        ((rows taskId).trans stored)

theorem Changes.outlives {restoring : Prop} {start last : TaskStore V δ}
    {entered : List (String × NotificationPhase)} (changes : Changes restoring start entered last)
    {taskId : String} {row : ObjectTask V} (stored : start.getObjectTask taskId = some row) :
    ∃ row', last.getObjectTask taskId = some row' ∧ Outlives row row' := by
  induction changes with
  | refl => exact ⟨row, stored, .refl row⟩
  | step _ change ih =>
      obtain ⟨middle, stored', outlives⟩ := ih
      obtain ⟨row', stored'', outlives'⟩ := change.outlives stored'
      exact ⟨row', stored'', outlives.trans outlives'⟩

theorem terminal_closed : Closed fun status => status.terminal = true := by
  refine ⟨fun before after ended moved => ?_, fun _ => rfl⟩
  revert ended moved
  cases before <;> cases after <;> decide

/-- An ended status, or the one that a restore leaves. -/
theorem ended_closed {status : ObjectTaskStatus} (ended : status.terminal = true) (succeeded : status ≠ .succeeded)
    (unavailable : status ≠ .resultUnavailableAfterReopen) :
    Closed fun later => later = status ∨ later = .supersededByRestore := by
  refine ⟨?_, fun either => ?_⟩
  · rintro before after (rfl | rfl) moved
    · right
      revert ended succeeded unavailable moved
      cases before <;> cases after <;> decide
    · have stuck : moves .supersededByRestore after = false := by cases after <;> rfl
      rw [stuck] at moved
      cases moved
  · rcases either with same | restored
    · exact absurd same.symm unavailable
    · cases restored

theorem finished_closed :
    Closed fun later => later = .succeeded ∨ later = .resultUnavailableAfterReopen ∨ later = .supersededByRestore := by
  refine ⟨fun before after finished moved => ?_, fun _ => .inl rfl⟩
  revert finished moved
  cases before <;> cases after <;> decide

/-- What may become of a task that has ended. -/
structure Ended (task task' : ObjectTask V) : Prop where
  same : SameTask task task'
  terminal : task'.status.terminal = true
  status : task'.status = task.status ∨ task'.status = .supersededByRestore ∨
    (task.status = .succeeded ∧ task'.status = .resultUnavailableAfterReopen) ∨
    (task.status = .resultUnavailableAfterReopen ∧ task'.status = .succeeded)

theorem Outlives.ended {task task' : ObjectTask V} (outlives : Outlives task task')
    (terminal : task.status.terminal = true) : Ended task task' := by
  refine ⟨outlives.same, outlives.stays _ terminal_closed terminal, ?_⟩
  by_cases succeeded : task.status = .succeeded
  · rcases outlives.stays _ finished_closed (.inl succeeded) with same | unavailable | superseded
    · exact .inl (same.trans succeeded.symm)
    · exact .inr (.inr (.inl ⟨succeeded, unavailable⟩))
    · exact .inr (.inl superseded)
  · by_cases unavailable : task.status = .resultUnavailableAfterReopen
    · rcases outlives.stays _ finished_closed (.inr (.inl unavailable)) with restored | same | superseded
      · exact .inr (.inr (.inr ⟨unavailable, restored⟩))
      · exact .inl (same.trans unavailable.symm)
      · exact .inr (.inl superseded)
    · rcases outlives.stays _ (ended_closed terminal succeeded unavailable) (.inl rfl) with same | superseded
      · exact .inl same
      · exact .inr (.inl superseded)

/-! ## Runs -/

section
variable [DecidableEq δ] {config : MessageConfig} {sha256 : String → Digest}

theorem after_changes {restoring : Prop} (actions : List (TaskAction V δ))
    (allowed : ∀ action ∈ actions, action.restores → restoring) :
    Changes restoring TaskStore.empty (TaskStore.after config sha256 actions).2
      (TaskStore.after config sha256 actions).1 := by
  obtain ⟨entered, changes, log⟩ := run_changes actions allowed (TaskStore.empty, [])
  rw [TaskStore.after, log]
  exact changes

theorem after_append (actions later : List (TaskAction V δ)) :
    ∃ entered, Changes True (TaskStore.after config sha256 actions).1 entered
      (TaskStore.after config sha256 (actions ++ later)).1 := by
  obtain ⟨entered, changes, -⟩ := run_changes later (fun _ _ _ => trivial)
    (TaskStore.after config sha256 actions)
  refine ⟨entered, ?_⟩
  rw [show TaskStore.after config sha256 (actions ++ later) =
    later.foldl (TaskStore.step config sha256) (TaskStore.after config sha256 actions) from List.foldl_append]
  exact changes

variable (config : MessageConfig) (sha256 : String → Digest)

/-- Over every run, whatever crashes, retries and restores it has, no phase of a task is told more often
than the task entered it. -/
theorem told_within_entries (actions : List (TaskAction V δ)) (taskId : String) (phase : NotificationPhase) :
    (TaskStore.after config sha256 actions).1.told taskId phase ≤
      (TaskStore.after config sha256 actions).2.count (taskId, phase) :=
  ((after_changes actions fun _ _ _ => trivial).balanced empty_balanced).bounded taskId phase

/-- What the messages of a task say of it when no checkpoint brought a result back. -/
structure ToldOnce (store : TaskStore V δ) : Prop where
  once : ∀ taskId phase, phase ≠ .waiting → store.told taskId phase ≤ 1
  passed : ∀ taskId phase, phase ≠ .waiting → 0 < store.told taskId phase →
    ∃ task, store.getObjectTask taskId = some task ∧ phase ∈ spent task.status
  delivered : ∀ taskId task phase, store.getObjectTask taskId = some task →
    terminalPhase task.status = some phase → task.notification.status = .delivered →
      deliveredMessageMatchesPhase store task phase = true ∧ store.told taskId phase = 1

theorem ended_told_once (actions : List (TaskAction V δ)) (plain : ∀ action ∈ actions, ¬ action.restores) :
    ToldOnce (TaskStore.after config sha256 actions).1 := by
  have changes : Changes False TaskStore.empty _ (TaskStore.after config sha256 actions).1 :=
    after_changes actions plain
  have balanced := changes.balanced empty_balanced
  have known := changes.enteredOnce
  have truthful := changes.truthful
  refine ⟨fun taskId phase terminal => ?_, fun taskId phase terminal told => ?_,
    fun taskId task phase found terminal delivered => ?_⟩
  · exact (balanced.bounded taskId phase).trans (known.once taskId phase terminal)
  · have entered := told.trans_le (balanced.bounded taskId phase)
    cases found : (TaskStore.after config sha256 actions).1.getObjectTask taskId with
    | none =>
        rw [List.nil_append, known.absent taskId phase found] at entered
        cases entered
    | some task => exact ⟨task, rfl, known.spent taskId task phase found terminal entered⟩
  · have matched := truthful taskId task phase found (phaseForStatus_terminal terminal) delivered
    have told := told_of_matches matched
    rw [getObjectTask_taskId found] at told
    refine ⟨matched, le_antisymm ((balanced.bounded taskId phase).trans (known.once taskId phase ?_)) told⟩
    rintro rfl
    revert terminal
    cases task.status <;> decide

def smallMessages : MessageConfig := ⟨64, 10, 20, 10, fun _ => true, fun _ => true, by decide⟩

def smallAttempt : NotifyAttempt Unit := ⟨.host, "m1", "t3", false, true, some "denied", some "failed", true⟩

def smallWatch : ObjectTaskOwnerWatch := ⟨false, [], "normal", "object-task-owner"⟩

/-- A task is done, and its end is told, and told again. -/
def smallActions : List (TaskAction Unit Unit) :=
  [.outside (.process (.insert ⟨"p", .runnable, none, none, 0, 0, 0, none, none, none, none, [], ()⟩) rfl) trivial
      none,
    .start "t" "o" "p" none "tool" none "p" "normal" "object-task" smallWatch "t0",
    .markRunning .host "t" "t1", .markSucceeded "t" none "t2",
    .notifyTerminal smallAttempt (queuedTask "t" "o" "p" none "tool" none "p" "normal" "object-task" smallWatch "t0"),
    .notifyTerminal smallAttempt (queuedTask "t" "o" "p" none "tool" none "p" "normal" "object-task" smallWatch "t0")]

theorem ended_told_once_small :
    (TaskStore.after smallMessages ProcessStore.zeroDigest smallActions).1.told "t" .completed = 1 ∧
      ToldOnce (TaskStore.after smallMessages ProcessStore.zeroDigest smallActions).1 :=
  ⟨by decide +kernel, ended_told_once smallMessages ProcessStore.zeroDigest smallActions
    (by simp [smallActions, TaskAction.restores])⟩

/-- A task that has ended never runs again, and only a restore changes how it ended. -/
theorem ended_tasks_stay (actions later : List (TaskAction V δ)) {taskId : String} {task : ObjectTask V}
    (found : (TaskStore.after config sha256 actions).1.getObjectTask taskId = some task)
    (terminal : task.status.terminal = true) :
    ∃ task', (TaskStore.after config sha256 (actions ++ later)).1.getObjectTask taskId = some task' ∧
      Ended task task' := by
  obtain ⟨entered, changes⟩ : ∃ entered, Changes True (TaskStore.after config sha256 actions).1 entered
      (TaskStore.after config sha256 (actions ++ later)).1 := after_append actions later
  obtain ⟨task', found', outlives⟩ := changes.outlives found
  exact ⟨task', found', outlives.ended terminal⟩

/-- Tasks that a crash leaves queued and running. -/
def leftActions : List (TaskAction Unit Unit) :=
  [.start "u" "o" "p" none "tool" none "p" "normal" "object-task" smallWatch "t3",
    .start "v" "o" "p" none "tool" none "p" "normal" "object-task" smallWatch "t3",
    .markRunning .host "v" "t4", .markRunning .host "t" "t4"]

theorem ended_tasks_stay_small : ∃ task task',
    (TaskStore.after smallMessages ProcessStore.zeroDigest smallActions).1.getObjectTask "t" = some task ∧
    (TaskStore.after smallMessages ProcessStore.zeroDigest (smallActions ++ leftActions)).1.getObjectTask "t" =
      some task' ∧ Ended task task' := by
  have there : ((TaskStore.after smallMessages ProcessStore.zeroDigest smallActions).1.getObjectTask "t").any
      (fun task => task.status.terminal) = true := by decide +kernel
  cases found : (TaskStore.after smallMessages ProcessStore.zeroDigest smallActions).1.getObjectTask "t" with
  | none =>
      rw [found] at there
      cases there
  | some task =>
      rw [found] at there
      obtain ⟨task', found', ended⟩ := ended_tasks_stay smallMessages ProcessStore.zeroDigest smallActions leftActions
        found there
      exact ⟨task, task', rfl, found', ended⟩

end

end AgentLibOS.ObjectTasks
