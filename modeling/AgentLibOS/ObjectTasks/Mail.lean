import AgentLibOS.Messages.Wakeup
import AgentLibOS.ObjectTasks.State

namespace AgentLibOS.ObjectTasks
open Library Library.Run Processes Messages

variable {V δ : Type}

theorem liftFault_ok {α : Type} {result : Except ProcessFault α} {value : α} :
    liftFault result = .ok value ↔ result = .ok value := by
  cases result <;> simp [liftFault, Except.mapError]

theorem taskSender_injective {taskId taskId' : String} (same : taskSender taskId = taskSender taskId') :
    taskId = taskId' := by
  have lists := congrArg String.toList same
  rw [taskSender, taskSender, String.toList_append, String.toList_append] at lists
  exact String.toList_injective (List.append_cancel_left lists)

/-! ## Rows -/

section Rows
variable {store : TaskStore V δ} {task : ObjectTask V} {taskId : String}

theorem getObjectTask_taskId (found : store.getObjectTask taskId = some task) : task.taskId = taskId := by
  have known := List.find?_some found
  exact of_decide_eq_true known

theorem find_replaced (task : ObjectTask V) (rows : List (ObjectTask V)) (taskId : String) :
    (rows.map fun row => if row.taskId = task.taskId then task else row).find?
        (fun row => row.taskId = taskId) =
      if task.taskId = taskId then (rows.find? fun row => row.taskId = taskId).map fun _ => task
      else rows.find? fun row => row.taskId = taskId := by
  induction rows with
  | nil => split_ifs <;> rfl
  | cons row rows ih =>
      rw [List.map_cons]
      by_cases here : row.taskId = task.taskId
      · rw [if_pos here]
        by_cases wanted : task.taskId = taskId
        · rw [List.find?_cons_of_pos (by simpa using wanted), if_pos wanted,
            List.find?_cons_of_pos (by simpa using here.trans wanted)]
          rfl
        · rw [List.find?_cons_of_neg (by simpa using wanted), ih, if_neg wanted, if_neg wanted,
            List.find?_cons_of_neg (by simpa [here] using wanted)]
      · rw [if_neg here]
        by_cases found : row.taskId = taskId
        · have other : task.taskId ≠ taskId := fun same => here (found.trans same.symm)
          rw [List.find?_cons_of_pos (by simpa using found), if_neg other,
            List.find?_cons_of_pos (by simpa using found)]
        · rw [List.find?_cons_of_neg (by simpa using found), ih,
            List.find?_cons_of_neg (by simpa using found)]

/-- An update replaces the row of its task and no other. -/
theorem getObjectTask_update (store : TaskStore V δ) (task : ObjectTask V) (taskId : String) :
    (store.updateObjectTask task).getObjectTask taskId =
      if task.taskId = taskId then (store.getObjectTask taskId).map fun _ => task
      else store.getObjectTask taskId :=
  find_replaced task store.tasks taskId

theorem getObjectTask_update_self (found : store.getObjectTask taskId = some task) {task' : ObjectTask V}
    (same : task'.taskId = task.taskId) :
    (store.updateObjectTask task').getObjectTask taskId = some task' := by
  rw [getObjectTask_update, if_pos (same.trans (getObjectTask_taskId found)), found]
  rfl

end Rows

/-! ## Messages told -/

/-- The message tells a task's phase. -/
def tells (payloads : String → Option (NotificationPayload V)) (taskId : String) (phase : NotificationPhase)
    (message : ProcessMessage) : Bool :=
  decide (message.sender = taskSender taskId) &&
    (payloads message.messageId).any fun payload => decide (payload.phase = phase.value)

/-- How many messages have told a task's phase. -/
def TaskStore.told (store : TaskStore V δ) (taskId : String) (phase : NotificationPhase) : Nat :=
  store.base.messages.countP (tells store.payloads taskId phase)

/-- Nothing that the tasks have told is gone or new. -/
structure Undisturbed (before after : TaskStore V δ) : Prop where
  told : ∀ taskId phase, after.told taskId phase = before.told taskId phase
  delivered : ∀ (task : ObjectTask V) phase, deliveredMessageMatchesPhase before task phase = true →
    deliveredMessageMatchesPhase after task phase = true

theorem Undisturbed.refl (store : TaskStore V δ) : Undisturbed store store := ⟨fun _ _ => rfl, fun _ _ h => h⟩

theorem Undisturbed.trans {first second third : TaskStore V δ} (left : Undisturbed first second)
    (right : Undisturbed second third) : Undisturbed first third :=
  ⟨fun taskId phase => (right.told taskId phase).trans (left.told taskId phase),
    fun task phase matched => right.delivered task phase (left.delivered task phase matched)⟩

theorem updateObjectTask_undisturbed (store : TaskStore V δ) (task : ObjectTask V) :
    Undisturbed store (store.updateObjectTask task) := ⟨fun _ _ => rfl, fun _ _ matched => matched⟩

/-- What a delivered slot's message is. -/
theorem deliveredMessageMatchesPhase_iff {store : TaskStore V δ} {task : ObjectTask V}
    {phase : NotificationPhase} : deliveredMessageMatchesPhase store task phase = true ↔
      task.notification.status = .delivered ∧ ∃ messageId recipientPid message payload,
        task.notification.messageId = some messageId ∧ task.notification.recipientPid = some recipientPid ∧
        store.getProcessMessage messageId = some message ∧ message.sender = taskSender task.taskId ∧
        message.recipientPid = recipientPid ∧ message.correlationId = some task.taskId ∧
        store.payloads messageId = some payload ∧ payload.type = "object_task" ∧
        payload.taskId = task.taskId ∧ payload.phase = phase.value ∧ payload.status = task.status.value := by
  rw [deliveredMessageMatchesPhase]
  by_cases delivered : task.notification.status = .delivered
  · rw [if_neg (not_not.mpr delivered)]
    cases task.notification.messageId with
    | none => simp
    | some messageId =>
        cases task.notification.recipientPid with
        | none => simp
        | some recipientPid =>
            cases found : store.getProcessMessage messageId with
            | none => simp [found]
            | some message =>
                cases kept : store.payloads messageId with
                | none => simp [found, kept]
                | some payload =>
                    simp only [found, kept, Option.any_some, Bool.and_eq_true, decide_eq_true_eq, and_assoc]
                    constructor
                    · exact fun matched => ⟨delivered, _, _, _, _, rfl, rfl, found, matched.1, matched.2.1,
                        matched.2.2.1, kept, matched.2.2.2⟩
                    · rintro ⟨-, _, _, _, _, ⟨⟩, ⟨⟩, found', sender, recipient, correlation, kept', rest⟩
                      cases found.symm.trans found'
                      cases kept.symm.trans kept'
                      exact ⟨sender, recipient, correlation, rest⟩
  · rw [if_pos delivered]
    exact iff_of_false Bool.false_ne_true fun matched => delivered matched.1

/-- A new message, with its payload. -/
structure Posted (before after : TaskStore V δ) (message : ProcessMessage)
    (payload : Option (NotificationPayload V)) : Prop where
  messages : after.base.messages = before.base.messages ++ [message]
  fresh : ∀ stored ∈ before.base.messages, stored.messageId ≠ message.messageId
  payloads : after.payloads = Function.update before.payloads message.messageId payload
  tasks : after.tasks = before.tasks

namespace Posted
variable {before after : TaskStore V δ} {message : ProcessMessage} {payload : Option (NotificationPayload V)}

theorem told (posted : Posted before after message payload) (taskId : String) (phase : NotificationPhase) :
    after.told taskId phase = before.told taskId phase +
      if message.sender = taskSender taskId ∧ payload.any (fun payload => payload.phase = phase.value) = true
        then 1 else 0 := by
  rw [TaskStore.told, posted.messages, List.countP_append, TaskStore.told, List.countP_singleton]
  congr 1
  · refine List.countP_congr fun stored inside => ?_
    rw [tells, tells, posted.payloads, Function.update_of_ne (posted.fresh stored inside)]
  · refine if_congr ?_ rfl rfl
    rw [tells, posted.payloads, Function.update_self, Bool.and_eq_true, decide_eq_true_iff]

theorem getProcessMessage_old (posted : Posted before after message payload) {messageId : String}
    {stored : ProcessMessage} (found : before.getProcessMessage messageId = some stored) :
    after.getProcessMessage messageId = some stored ∧ messageId ≠ message.messageId := by
  have inside := List.mem_of_find?_eq_some found
  have named : stored.messageId = messageId := by simpa using List.find?_some found
  refine ⟨?_, named ▸ posted.fresh stored inside⟩
  rw [TaskStore.getProcessMessage, posted.messages, List.find?_append]
  rw [TaskStore.getProcessMessage] at found
  rw [found, Option.some_or]

theorem getProcessMessage_new (posted : Posted before after message payload) :
    after.getProcessMessage message.messageId = some message := by
  rw [TaskStore.getProcessMessage, posted.messages, List.find?_append, List.find?_eq_none.mpr, Option.none_or,
    List.find?_cons_of_pos (by simp)]
  intro stored inside
  simpa using posted.fresh stored inside

theorem delivered (posted : Posted before after message payload) {task : ObjectTask V}
    {phase : NotificationPhase} (matched : deliveredMessageMatchesPhase before task phase = true) :
    deliveredMessageMatchesPhase after task phase = true := by
  rw [deliveredMessageMatchesPhase_iff] at matched ⊢
  obtain ⟨status, messageId, recipientPid, stored, kept, named, recipient, found, sender, to_, correlation,
    payloads, rest⟩ := matched
  obtain ⟨found', other⟩ := posted.getProcessMessage_old found
  refine ⟨status, messageId, recipientPid, stored, kept, named, recipient, found', sender, to_, correlation, ?_,
    rest⟩
  rw [posted.payloads, Function.update_of_ne other, payloads]

/-- A message that no task sends leaves what the tasks have told. -/
theorem undisturbed (posted : Posted before after message payload)
    (foreign : ∀ taskId, message.sender ≠ taskSender taskId) : Undisturbed before after := by
  refine ⟨fun taskId phase => ?_, fun _ _ => posted.delivered⟩
  rw [posted.told, if_neg fun sent => foreign taskId sent.1, Nat.add_zero]

end Posted

/-! ## Events outside the tasks -/

/-- The event posts no message in a task's name. -/
def Foreign : MessageEvent δ → Prop
  | .post _ request => ∀ taskId, request.sender ≠ taskSender taskId
  | _ => True

section
variable {config : MessageConfig}

theorem normalizeOptionalIdentifier_ok {value result : Option String}
    (done : normalizeOptionalIdentifier config value = .ok result) : result = value := by
  cases value with
  | none =>
      cases done
      rfl
  | some text =>
      rw [normalizeOptionalIdentifier, optionally] at done
      obtain ⟨normal, here, rfl⟩ := map_eq_ok.mp done
      rw [normalizeIdentifier_ok here]

/-- The identity of a posted message. -/
theorem postedMessage_ok {request : PostRequest} {message : ProcessMessage}
    (done : postedMessage config request = .ok message) :
    message.messageId = request.messageId ∧ message.sender = request.sender ∧
      message.recipientPid = request.recipientPid ∧ message.correlationId = request.correlationId := by
  simp only [postedMessage, bind_eq_ok] at done
  obtain ⟨kind, -, -, -, correlationId, correlated, replyTo, -, channel, -, done⟩ := done
  cases done
  exact ⟨rfl, rfl, rfl, normalizeOptionalIdentifier_ok correlated⟩

variable [DecidableEq δ]

theorem wakeIfWaitingForMessage_messages {store store' : MessageStore δ} {ambient : Ambient δ}
    {message : ProcessMessage} (done : wakeIfWaitingForMessage store ambient message = .ok store') :
    store'.messages = store.messages := by
  simp only [wakeIfWaitingForMessage, bind_eq_ok] at done
  obtain ⟨recipient, -, done⟩ := done
  cases recipient with
  | none =>
      cases done
      rfl
  | some process =>
      simp only [] at done
      split_ifs at done
      · cases done
        rfl
      · split at done
        · split_ifs at done
          · simp only [bind_eq_ok] at done
            obtain ⟨token, -, processes, -, done⟩ := done
            cases done
            rfl
          · cases done
            rfl
        · cases done
          rfl

theorem post_ok {store store' : MessageStore δ} {ambient : Ambient δ} {request : PostRequest}
    (done : post config store ambient request = .ok store') : ∃ message,
      store'.messages = store.messages ++ [message] ∧
      (∀ stored ∈ store.messages, stored.messageId ≠ message.messageId) ∧
      message.messageId = request.messageId ∧ message.sender = request.sender ∧
      message.recipientPid = request.recipientPid ∧ message.correlationId = request.correlationId := by
  simp only [post, MessageStore.insertProcessMessage, bind_eq_ok, require_ok] at done
  obtain ⟨message, made, _, _, _, _, inserted, ⟨_, fresh, inserts⟩, woken⟩ := done
  cases inserts
  exact ⟨message, wakeIfWaitingForMessage_messages woken, fresh, postedMessage_ok made⟩

theorem registerWait_messages {store store' : MessageStore δ} {ambient : Ambient δ} {pid : String}
    {filters : MessageFilters} (done : registerWait config store ambient pid filters = .ok store') :
    store'.messages = store.messages := by
  simp only [registerWait, bind_eq_ok] at done
  obtain ⟨process, _, _, _, processes, registered, done⟩ := done
  cases done
  rfl

theorem receive_messages {store store' : MessageStore δ} {ambient : Ambient δ} {pid : String}
    {block includeAcked : Bool} {raw : MessageFilters} {limit : Option Int} {messages : List ProcessMessage}
    (done : receive config store ambient pid block includeAcked raw limit = .ok (store', messages)) :
    store'.messages = store.messages := by
  simp only [receive, bind_eq_ok] at done
  obtain ⟨filters, -, -, -, listed, -, done⟩ := done
  split_ifs at done
  · cases done
    rfl
  · simp only [bind_eq_ok] at done
    obtain ⟨waiting, registered, done⟩ := done
    cases done
    exact registerWait_messages registered

theorem receivePage_messages {store store' : MessageStore δ} {ambient : Ambient δ} {pid : String}
    {block includeAcked : Bool} {raw : MessageFilters} {limit : Option Int} {page : List ProcessMessage × Nat}
    (done : receivePage config store ambient pid block includeAcked raw limit = .ok (store', page)) :
    store'.messages = store.messages := by
  simp only [receivePage, bind_eq_ok] at done
  obtain ⟨filters, -, -, -, ⟨listed, count⟩, -, done⟩ := done
  split_ifs at done
  · cases done
    rfl
  · simp only [bind_eq_ok] at done
    obtain ⟨waiting, registered, done⟩ := done
    cases done
    exact registerWait_messages registered

omit [DecidableEq δ] in
/-- Acknowledging a message changes its status only. -/
theorem acked_identity (messageId recipientPid : String) (message : ProcessMessage) :
    MessageStore.acked messageId recipientPid message =
      { message with status := (MessageStore.acked messageId recipientPid message).status } := by
  unfold MessageStore.acked
  split_ifs <;> rfl

omit [DecidableEq δ] in
theorem ackProcessMessage_undisturbed (store : TaskStore V δ) {base : MessageStore δ} {pid messageId : String}
    (done : store.base.ackProcessMessage pid messageId = .ok base) :
    Undisturbed store { store with base := base } := by
  simp only [MessageStore.ackProcessMessage, bind_eq_ok] at done
  obtain ⟨-, -, done⟩ := done
  cases done
  refine ⟨fun taskId phase => ?_, fun task phase matched => ?_⟩
  · simp only [TaskStore.told, List.countP_map]
    refine List.countP_congr fun message _ => ?_
    rw [Function.comp_apply, acked_identity, tells, tells]
  · rw [deliveredMessageMatchesPhase_iff] at matched ⊢
    obtain ⟨status, id, recipientPid, message, payload, named, recipient, found, sender, to_, correlation,
      rest⟩ := matched
    refine ⟨status, id, recipientPid, MessageStore.acked messageId pid message, payload, named, recipient, ?_, ?_,
      ?_, ?_, rest⟩
    · simp only [TaskStore.getProcessMessage, List.find?_map]
      have same : ((fun message : ProcessMessage => decide (message.messageId = id)) ∘
          MessageStore.acked messageId pid) = fun message => decide (message.messageId = id) := by
        funext message
        rw [Function.comp_apply, acked_identity]
      rw [TaskStore.getProcessMessage] at found
      rw [same, found]
      rfl
    · rw [acked_identity]
      exact sender
    · rw [acked_identity]
      exact to_
    · rw [acked_identity]
      exact correlation

omit [DecidableEq δ] in
theorem processes_undisturbed (store : TaskStore V δ) (base : MessageStore δ)
    (same : base.messages = store.base.messages) : Undisturbed store { store with base := base } := by
  refine ⟨fun taskId phase => ?_, fun task phase matched => ?_⟩
  · rw [TaskStore.told, TaskStore.told, same]
  · rw [deliveredMessageMatchesPhase_iff] at matched ⊢
    simp only [TaskStore.getProcessMessage, same] at matched ⊢
    exact matched

theorem exec_undisturbed {sha256 : String → Digest} {store : TaskStore V δ} {base : MessageStore δ}
    {event : MessageEvent δ} (foreign : Foreign event)
    (done : store.base.exec config sha256 event = .ok base) : Undisturbed store { store with base := base } := by
  cases event with
  | post ambient request =>
      obtain ⟨message, messages, fresh, id, sender, -⟩ := post_ok done
      have posted : Posted store { store with base := base } message (store.payloads message.messageId) :=
        ⟨messages, fresh, (Function.update_eq_self _ _).symm, rfl⟩
      exact posted.undisturbed fun taskId => sender ▸ foreign taskId
  | receive ambient pid block includeAcked filters limit =>
      obtain ⟨⟨next, messages⟩, received, rfl⟩ := map_eq_ok.mp done
      exact processes_undisturbed store _ (receive_messages received)
  | receivePage ambient pid block includeAcked filters limit =>
      obtain ⟨⟨next, page⟩, received, rfl⟩ := map_eq_ok.mp done
      exact processes_undisturbed store _ (receivePage_messages received)
  | ack pid filters =>
      simp only [MessageStore.exec, Messages.ack] at done
      split_ifs at done
      · cases done
        exact .refl store
      · simp only [bind_eq_ok] at done
        obtain ⟨messages, -, acked⟩ := done
        have keeps {before after : MessageStore δ} {message : ProcessMessage}
            (each : before.ackProcessMessage pid message.messageId = .ok after)
            (kept : Undisturbed store { store with base := before }) :
            Undisturbed store { store with base := after } :=
          kept.trans (ackProcessMessage_undisturbed { store with base := before } each)
        exact foldlM_keeps (I := fun base => Undisturbed store { store with base := base }) keeps acked
          (.refl store)
  | wake ambient token control read =>
      obtain ⟨processes, woken, rfl⟩ := map_eq_ok.mp done
      exact processes_undisturbed store _ rfl
  | process event other =>
      obtain ⟨processes, changed, rfl⟩ := map_eq_ok.mp done
      exact processes_undisturbed store _ rfl

end

end AgentLibOS.ObjectTasks
