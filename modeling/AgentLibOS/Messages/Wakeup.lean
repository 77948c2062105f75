import AgentLibOS.Messages.Manager
import AgentLibOS.Processes.Generations

namespace AgentLibOS.Messages
open Library.Text Library.Run Processes Processes.ProcessStore

variable {δ : Type}

/-! ## Message waits -/

/-- The process waits for a message that these filters select. -/
def MessageWaits (store : ProcessStore δ) (pid : String) (filters : MessageFilters) : Prop :=
  ∃ row, store.rows pid = some row ∧ row.waitState = some (.message filters)

theorem waits_of_write {store store' : ProcessStore δ} {pid : String} {filters : MessageFilters}
    (row' : AgentProcess δ) (waits : MessageWaits store' pid filters)
    (rows : store'.rows = Function.update store.rows row'.pid (some row'))
    (kept : row'.waitState = some (.message filters) → MessageWaits store row'.pid filters) :
    MessageWaits store pid filters := by
  obtain ⟨row, stored, waiting⟩ := waits
  rw [rows, Function.update_apply] at stored
  split_ifs at stored with same
  · cases stored
    rw [same]
    exact kept waiting
  · exact ⟨row, stored, waiting⟩

theorem waits_of_quiet {store store' : ProcessStore δ} {pid : String} {filters : MessageFilters}
    (row' : AgentProcess δ) (waits : MessageWaits store' pid filters)
    (rows : store'.rows = Function.update store.rows row'.pid (some row'))
    (quiet : waitsForMessage row'.waitState = false) : MessageWaits store pid filters := by
  refine waits_of_write row' waits rows ?_
  intro waiting
  rw [waiting] at quiet
  cases quiet

section
variable [DecidableEq δ]

theorem updateProcess_waits {store store' : ProcessStore δ} {ambient : Ambient δ}
    {process : AgentProcess δ} {pid : String} {filters : MessageFilters}
    (done : store.updateProcess ambient process false = .ok store')
    (waits : MessageWaits store' pid filters) : MessageWaits store pid filters := by
  obtain ⟨current, stored, _, written, rfl⟩ := updateProcess_ok done
  have same := (validateProcessStateWrite_stored written).2.2 rfl
  have waitState : process.waitState = current.waitState := by
    have semantic := same.1
    simp only [AgentProcess.semantic, Prod.mk.injEq] at semantic
    exact semantic.2.1
  refine waits_of_write (updatedRow current process) waits rfl ?_
  intro waiting
  exact ⟨current, stored, waitState.symm.trans waiting⟩

/-- After a transition its process waits as requested, and the others as before. -/
theorem applyProcessStateTransition_waits {store store' : ProcessStore δ} {ambient : Ambient δ}
    {target : String} {requested : Transition} {expectedRevision : Nat}
    {expectedStatus : Option ProcessStatus} {expectedStateGeneration : Option Nat}
    {allowedStatuses : Option (List ProcessStatus)} {pid : String} {filters : MessageFilters}
    (sound : store.Sound)
    (done : store.applyProcessStateTransition ambient target requested expectedRevision
      expectedStatus expectedStateGeneration allowedStatuses = .ok store')
    (waits : MessageWaits store' pid filters) :
    pid ≠ target ∧ MessageWaits store pid filters ∨
      pid = target ∧ requested.waitState = some (.message filters) := by
  obtain ⟨current, control, found, _, _, updated⟩ := applyProcessStateTransition_ok done
  obtain ⟨again, _, _, _, rfl⟩ := updateProcess_ok updated
  have own : (updatedRow again (requested.patch current)).pid = target := by
    change current.pid = target
    exact sound.keyed found
  obtain ⟨row, stored, waiting⟩ := waits
  rw [record_rows, own, Function.update_apply] at stored
  split_ifs at stored with same
  · cases stored
    exact Or.inr ⟨same, waiting⟩
  · exact Or.inl ⟨same, row, stored, waiting⟩

theorem wake_waits {store store' : ProcessStore δ} {ambient : Ambient δ}
    {token : ProcessStateToken} {control : Bool} {read : Option (AgentProcess δ)} {pid : String}
    {filters : MessageFilters} (sound : store.Sound)
    (done : Processes.wake store ambient token control read = .ok store')
    (waits : MessageWaits store' pid filters) :
    pid ≠ token.pid ∧ MessageWaits store pid filters := by
  obtain ⟨_, _, _, applied⟩ := wake_ok done
  rcases applyProcessStateTransition_waits sound applied waits with kept | ⟨_, requested⟩
  · exact kept
  · cases requested

theorem wake_sound {store store' : ProcessStore δ} {ambient : Ambient δ}
    {token : ProcessStateToken} {control : Bool} {read : Option (AgentProcess δ)}
    (sound : store.Sound)
    (done : Processes.wake store ambient token control read = .ok store') : store'.Sound := by
  obtain ⟨_, _, _, applied⟩ := wake_ok done
  obtain ⟨row', write⟩ := applyProcessStateTransition_write sound applied
  exact write.sound sound

theorem transition_quiet {store store' : ProcessStore δ} {ambient : Ambient δ} {target : String}
    {requested : Transition} {expectedRevision : Nat} {expectedStatus : Option ProcessStatus}
    {expectedStateGeneration : Option Nat} {allowedStatuses : Option (List ProcessStatus)}
    {pid : String} {filters : MessageFilters} (sound : store.Sound)
    (done : store.applyProcessStateTransition ambient target requested expectedRevision
      expectedStatus expectedStateGeneration allowedStatuses = .ok store')
    (quiet : waitsForMessage requested.waitState = false)
    (waits : MessageWaits store' pid filters) : MessageWaits store pid filters := by
  rcases applyProcessStateTransition_waits sound done waits with ⟨_, kept⟩ | ⟨_, waiting⟩
  · exact kept
  · rw [waiting] at quiet
    cases quiet

/-- No event but the manager's own starts a message wait. -/
theorem exec_waits {sha256 : String → Digest} {store store' : ProcessStore δ}
    {event : ProcessEvent δ} {pid : String} {filters : MessageFilters} (sound : store.Sound)
    (done : store.exec sha256 event = .ok store') (other : registersMessageWait event = false)
    (waits : MessageWaits store' pid filters) : MessageWaits store pid filters := by
  cases event with
  | insert process =>
      obtain ⟨_, _, rfl⟩ := insertProcess_ok done
      exact waits_of_quiet process waits rfl other
  | transition ambient target requested expectedRevision expectedStatus expectedStateGeneration
      allowedStatuses read =>
      exact transition_quiet sound (transition_ok done) other waits
  | wake ambient token control read =>
      exact (wake_waits sound done waits).2
  | update ambient process => exact updateProcess_waits done waits
  | patch ambient target patch expectedRevision expectedStatus =>
      obtain ⟨_, _, _, _, updated⟩ := patchProcess_ok done
      exact updateProcess_waits updated waits
  | claim target ownerId leaseId taskRunEpoch runAdmits =>
      obtain ⟨row, _, _, rfl⟩ := claimExecution_ok done
      exact waits_of_quiet (claimed row ownerId leaseId) waits rfl rfl
  | admitHostExec publicationId target ownerId leaseId expectedRevision expectedStateGeneration
      expectedExecutionGeneration taskRunEpoch runAdmits =>
      obtain ⟨_, _, _, _, claim, rfl⟩ := admitExec_ok done
      obtain ⟨row, _, _, rfl⟩ := claimHostProcessExec_ok claim
      exact waits_of_quiet (claimed row ownerId leaseId) waits rfl rfl
  | admitWorkerExec publicationId target token ownerId leaseId expectedRevision
      expectedStateGeneration taskRunEpoch runAdmits =>
      obtain ⟨_, _, _, _, claim, rfl⟩ := admitExec_ok done
      obtain ⟨row, _, _, _, _, rfl⟩ := claimWorkerProcessExec_ok claim
      exact waits_of_quiet (claimed row ownerId leaseId) waits rfl rfl
  | complete token requested =>
      obtain ⟨row, _, _, _, _, _, rfl⟩ := completeExecution_ok done
      exact waits_of_quiet (completedRow row requested) waits rfl other
  | release token =>
      obtain ⟨row, stored, _, _, rows, _⟩ := releaseExecution_ok done
      refine waits_of_write (releasedRow row) waits rows ?_
      intro waiting
      have own : (releasedRow row).pid = token.pid := by
        change row.pid = token.pid
        exact sound.keyed stored
      rw [own]
      exact ⟨row, stored, waiting⟩
  | recoverStale target ownerId =>
      obtain ⟨row, receipt, _, _, _, rfl⟩ := recoverOneStaleExecution_ok done
      exact waits_of_quiet (recoveredRow row receipt) waits rfl rfl
  | claimTaskRunEpoch runId runtimeEpoch admits =>
      obtain rfl := claimTaskRunEpoch_ok done
      obtain ⟨row, stored, waiting⟩ := waits
      obtain ⟨earlier, found, rfl⟩ := Option.map_eq_some_iff.mp stored
      have semantic := (rebound_keeps runId runtimeEpoch earlier).2.1
      simp only [AgentProcess.semantic, Prod.mk.injEq] at semantic
      exact ⟨earlier, found, semantic.2.1.symm.trans waiting⟩
  | commitExec ambient target publicationId configured expectedRevision =>
      obtain ⟨_, row, _, _, _, _, _, rfl⟩ := commitProcessExecEpoch_ok done
      exact waits_of_quiet (committedRow row) waits rfl rfl
  | restoreExec ambient target publicationId claimedPhase expectedRevision capabilities =>
      obtain ⟨publication, row, member, _, _, _, _, _, rfl⟩ := restoreProcessForExec_ok done
      refine waits_of_quiet (restoredForExec row publication.before capabilities) waits rfl ?_
      have none_ := (sound.published publication member).2
      unfold restoredForExec
      dsimp only
      split_ifs
      · rfl
      · rw [none_]
        rfl
  | replaceForRestore process =>
      obtain ⟨_, rows, _⟩ := replaceProcessForRestore_ok done
      exact waits_of_quiet (store.replacedRow process) waits rows other
  | advancePublication publicationId state =>
      cases done
      exact waits

end

/-! ## Normalised filters -/

variable {config : MessageConfig}

theorem normalizeIdentifier_ok {value result : String}
    (done : normalizeIdentifier config value = .ok result) : result = value := by
  simp only [normalizeIdentifier, bind_eq_ok] at done
  obtain ⟨_, _, _, _, _, _, done⟩ := done
  exact (Except.ok.inj done).symm

theorem normalizeIdentifier_again {value result : String}
    (done : normalizeIdentifier config value = .ok result) :
    normalizeIdentifier config result = .ok result := by
  obtain rfl := normalizeIdentifier_ok done
  exact done

theorem kind_again {text result : String}
    (done : (ProcessMessageKind.ofValue text).map (·.value) = .ok result) :
    (ProcessMessageKind.ofValue result).map (·.value) = .ok result := by
  obtain ⟨kind, _, rfl⟩ := map_eq_ok.mp done
  cases kind <;> rfl

/-- A normalised channel is stripped already. -/
theorem normalizeChannel_again {channel result : String}
    (done : normalizeChannel channel = .ok result) : normalizeChannel result = .ok result := by
  simp only [normalizeChannel, bind_eq_ok, require_ok] at done
  obtain ⟨_, filled, _, short, done⟩ := done
  cases done
  simp only [normalizeChannel, filled, if_false, String.toList_ofList, strip_strip, bind_eq_ok,
    require_ok]
  exact ⟨(), filled, (), short, trivial⟩

theorem messageIds_again {messageIds result : List String}
    (done : (do
      require (messageIds.length ≤ config.messageFilterIdsHardLimit) .validation
      messageIds.mapM (normalizeIdentifier config)) = .ok result) :
    (do
      require (result.length ≤ config.messageFilterIdsHardLimit) .validation
      result.mapM (normalizeIdentifier config)) = Except.ok result := by
  have kept := done
  simp only [bind_eq_ok] at kept
  obtain ⟨_, _, checked⟩ := kept
  have same : result = messageIds := by
    have pairs := mapM_eq_ok.mp checked
    exact (List.forall₂_eq_eq_eq ▸ pairs.imp fun _ _ here => (normalizeIdentifier_ok here).symm).symm
  rw [same] at done ⊢
  exact done

theorem normalizeFilters_again {raw filters : MessageFilters}
    (done : normalizeFilters config raw = .ok filters) :
    normalizeFilters config filters = .ok filters := by
  simp only [normalizeFilters, bind_eq_ok, require_ok] at done
  obtain ⟨kind, kindDone, channel, channelDone, correlationId, correlationDone, replyTo, replyDone,
    messageIds, messageIdsDone, _, fits, result⟩ := done
  cases result
  simp only [normalizeFilters, bind_eq_ok, require_ok]
  exact ⟨kind, optionally_again kind_again kindDone, channel,
    optionally_again normalizeChannel_again channelDone, correlationId,
    optionally_again normalizeIdentifier_again correlationDone, replyTo,
    optionally_again normalizeIdentifier_again replyDone, messageIds,
    optionally_again messageIds_again messageIdsDone, (), fits, rfl⟩

/-! ## The query and the predicate -/

theorem mem_listProcessMessages {store : MessageStore δ} {pid : String}
    {statuses : List ProcessMessageStatus} {filters : MessageFilters} {message : ProcessMessage} :
    message ∈ store.listProcessMessages pid statuses filters none ↔
      message ∈ store.messages ∧ selects pid statuses filters message = true := by
  unfold MessageStore.listProcessMessages
  split_ifs with empty
  · simp [selects, empty]
  · rw [Option.elim_none, List.mem_insertionSort, List.mem_filter]

theorem listProcessMessages_limit {store : MessageStore δ} {pid : String}
    {statuses : List ProcessMessageStatus} {filters : MessageFilters} {limit : Nat}
    (positive : 0 < limit)
    (empty : store.listProcessMessages pid statuses filters (some limit) = []) :
    store.listProcessMessages pid statuses filters none = [] := by
  unfold MessageStore.listProcessMessages at empty ⊢
  split_ifs at empty ⊢ with none_
  · rfl
  · rw [Option.elim_some, List.take_eq_nil_iff] at empty
    exact empty.resolve_left (by omega)

/-- The predicate of `post` and the query of `receive` agree on every unread message. -/
theorem messageMatches_eq (message : ProcessMessage) (filters : MessageFilters) :
    messageMatches message filters = selects message.recipientPid [.unread] filters message := by
  obtain ⟨kind, sender, channel, correlationId, replyTo, messageIds⟩ := filters
  have given (wanted : Option String) (actual : String) :
      sqlEqual wanted (some actual) = !wanted.any (actual != ·) := by
    cases wanted <;> simp [sqlEqual, bne]
  have nullable (wanted actual : Option String) :
      sqlEqual wanted actual = !wanted.any (actual != some ·) := by
    cases wanted <;> cases actual <;> simp [sqlEqual, bne]
  have ids : (messageIds.all fun ids => ids.contains message.messageId) =
      !messageIds.any fun ids => !ids.contains message.messageId := by
    cases messageIds <;> simp
  simp only [selects, given, nullable correlationId, nullable replyTo, ids]
  unfold messageMatches
  split_ifs <;> simp_all

/-! ## Reading the store -/

theorem getProcess_eq (store : MessageStore δ) (pid : String) :
    store.getProcess pid = .ok (store.processes.rows pid) := by
  unfold MessageStore.getProcess
  cases stored : store.processes.rows pid with
  | none => rfl
  | some row => simp only [ProcessWaitState.ofMapping_toMapping]

theorem requireProcess_ok {store : MessageStore δ} {pid : String} {process : AgentProcess δ}
    (done : store.requireProcess pid = .ok process) : store.processes.rows pid = some process := by
  simp only [MessageStore.requireProcess, getProcess_eq, bind_eq_ok] at done
  obtain ⟨found, same, done⟩ := done
  cases same
  split at done
  · cases done
  · next process stored =>
      cases done
      exact stored

theorem normalizeLimit_positive {limit : Option Int} {selected : Nat}
    (done : normalizeLimit config limit = .ok selected) (given : limit ≠ some 0) :
    0 < selected := by
  simp only [normalizeLimit, bind_eq_ok, require_ok] at done
  obtain ⟨_, nonneg, _, _, done⟩ := done
  cases done
  have positive := config.readLimitPositive
  cases limit with
  | none =>
      simp only [Option.getD_none]
      omega
  | some value =>
      simp only [Option.getD_some, Option.some.injEq, ne_eq] at nonneg given ⊢
      omega

theorem selects_visible {pid : String} {filters : MessageFilters} {message : ProcessMessage}
    (includeAcked : Bool) (selected : selects pid [.unread] filters message = true) :
    selects pid (visibleStatuses includeAcked) filters message = true := by
  cases includeAcked with
  | false => exact selected
  | true =>
      simp only [selects, visibleStatuses, Bool.and_eq_true, List.contains_cons,
        List.contains_nil, Bool.or_false, if_true, Bool.or_eq_true] at selected ⊢
      tauto

theorem unmatched_of_empty {store : MessageStore δ} {pid : String} {includeAcked : Bool}
    {filters : MessageFilters} {limit : Nat} (positive : 0 < limit)
    (empty : store.listProcessMessages pid (visibleStatuses includeAcked) filters (some limit) = [])
    {message : ProcessMessage} (member : message ∈ store.messages)
    (recipient : message.recipientPid = pid) : messageMatches message filters = false := by
  rw [Bool.eq_false_iff]
  intro matched
  rw [messageMatches_eq, recipient] at matched
  have listed := mem_listProcessMessages.mpr ⟨member, selects_visible includeAcked matched⟩
  rw [listProcessMessages_limit positive empty] at listed
  cases listed

/-- A listing that comes back empty leaves no unread message that the filters select. -/
theorem list_empty {store : MessageStore δ} {pid : String} {includeAcked : Bool}
    {raw filters : MessageFilters} {limit : Option Int}
    (normal : normalizeFilters config raw = .ok filters) (given : limit ≠ some 0)
    (done : list config store pid includeAcked filters limit = .ok []) {message : ProcessMessage}
    (member : message ∈ store.messages) (recipient : message.recipientPid = pid) :
    messageMatches message filters = false := by
  simp only [list, normalizeFilters_again normal, bind_eq_ok] at done
  obtain ⟨_, _, selected, bounded, _, same, done⟩ := done
  cases same
  exact unmatched_of_empty (normalizeLimit_positive bounded given) (Except.ok.inj done) member
    recipient

theorem listPage_empty {store : MessageStore δ} {pid : String} {includeAcked : Bool}
    {raw filters : MessageFilters} {limit : Option Int} {count : Nat}
    (normal : normalizeFilters config raw = .ok filters) (given : limit ≠ some 0)
    (done : listPage config store pid includeAcked filters limit = .ok ([], count))
    {message : ProcessMessage} (member : message ∈ store.messages)
    (recipient : message.recipientPid = pid) : messageMatches message filters = false := by
  simp only [listPage, normalizeFilters_again normal, bind_eq_ok] at done
  obtain ⟨_, _, selected, bounded, _, same, done⟩ := done
  cases same
  have empty := congrArg Prod.fst (Except.ok.inj done)
  exact unmatched_of_empty (normalizeLimit_positive bounded given) empty member recipient

/-! ## No lost wakeup -/

/-- No process waits while an unread message matches its filters. -/
structure Awake (store : MessageStore δ) : Prop where
  sound : store.processes.Sound
  unmatched : ∀ {pid filters}, MessageWaits store.processes pid filters →
    ∀ message ∈ store.messages, message.recipientPid = pid → messageMatches message filters = false

theorem empty_awake : Awake (MessageStore.empty : MessageStore δ) where
  sound := empty_sound
  unmatched _ _ member := by cases member

/-- Fewer waits over messages that match no more than before. -/
theorem Awake.mono {store store' : MessageStore δ} (awake : Awake store)
    (sound : store'.processes.Sound)
    (waits : ∀ {pid filters}, MessageWaits store'.processes pid filters →
      MessageWaits store.processes pid filters)
    (messages : ∀ message ∈ store'.messages, ∃ earlier ∈ store.messages,
      message.recipientPid = earlier.recipientPid ∧ ∀ filters,
        messageMatches earlier filters = false → messageMatches message filters = false) :
    Awake store' where
  sound := sound
  unmatched waiting message member recipient := by
    obtain ⟨earlier, listed, same, weaker⟩ := messages message member
    exact weaker _ (awake.unmatched (waits waiting) earlier listed (same.symm.trans recipient))

section
variable [DecidableEq δ]

theorem registerWait_awake {store store' : MessageStore δ} {ambient : Ambient δ} {pid : String}
    {filters : MessageFilters} (awake : Awake store)
    (done : registerWait config store ambient pid filters = .ok store')
    (unmatched : ∀ message ∈ store.messages, message.recipientPid = pid →
      messageMatches message filters = false) : Awake store' := by
  simp only [registerWait, bind_eq_ok] at done
  obtain ⟨process, _, _, _, processes, registered, done⟩ := done
  cases done
  have applied := transition_ok registered
  obtain ⟨row', write⟩ := applyProcessStateTransition_write awake.sound applied
  refine ⟨write.sound awake.sound, ?_⟩
  intro other filters' waiting message member recipient
  rcases applyProcessStateTransition_waits awake.sound applied waiting with
    ⟨_, kept⟩ | ⟨here, requested⟩
  · exact awake.unmatched kept message member recipient
  · cases requested
    exact unmatched message member (recipient.trans here)

theorem receive_awake {store store' : MessageStore δ} {ambient : Ambient δ} {pid : String}
    {block includeAcked : Bool} {raw : MessageFilters} {limit : Option Int}
    {messages : List ProcessMessage} (awake : Awake store)
    (done : receive config store ambient pid block includeAcked raw limit =
      .ok (store', messages)) : Awake store' := by
  simp only [receive, requireBlockable, bind_eq_ok, require_ok] at done
  obtain ⟨filters, normal, _, ⟨_, _, given⟩, listed, found, done⟩ := done
  split_ifs at done with answered
  · cases done
    exact awake
  · simp only [bind_eq_ok] at done
    obtain ⟨waiting, registered, done⟩ := done
    cases done
    obtain ⟨empty, blocks⟩ := not_or.mp answered
    obtain rfl := not_not.mp empty
    refine registerWait_awake awake registered fun message member recipient => ?_
    exact list_empty normal (fun zero => given ⟨by simpa using blocks, zero⟩) found member recipient

theorem receivePage_awake {store store' : MessageStore δ} {ambient : Ambient δ} {pid : String}
    {block includeAcked : Bool} {raw : MessageFilters} {limit : Option Int}
    {page : List ProcessMessage × Nat} (awake : Awake store)
    (done : receivePage config store ambient pid block includeAcked raw limit =
      .ok (store', page)) : Awake store' := by
  simp only [receivePage, requireBlockable, bind_eq_ok, require_ok] at done
  obtain ⟨filters, normal, _, ⟨_, _, given⟩, ⟨listed, count⟩, found, done⟩ := done
  split_ifs at done with answered
  · cases done
    exact awake
  · simp only [bind_eq_ok] at done
    obtain ⟨waiting, registered, done⟩ := done
    cases done
    obtain ⟨empty, blocks⟩ := not_or.mp answered
    obtain rfl := not_not.mp empty
    refine registerWait_awake awake registered fun message member recipient => ?_
    exact listPage_empty normal (fun zero => given ⟨by simpa using blocks, zero⟩) found member
      recipient

omit [DecidableEq δ] in
theorem ackProcessMessage_awake {store store' : MessageStore δ} {pid messageId : String}
    (done : store.ackProcessMessage pid messageId = .ok store') (awake : Awake store) :
    Awake store' := by
  simp only [MessageStore.ackProcessMessage, bind_eq_ok] at done
  obtain ⟨_, _, done⟩ := done
  cases done
  refine awake.mono awake.sound id ?_
  intro message member
  obtain ⟨earlier, listed, rfl⟩ := List.mem_map.mp member
  refine ⟨earlier, listed, ?_, ?_⟩
  · unfold MessageStore.acked
    split_ifs <;> rfl
  · intro filters unmatched
    unfold MessageStore.acked
    split_ifs
    · rfl
    · exact unmatched

omit [DecidableEq δ] in
theorem ack_awake {store store' : MessageStore δ} {pid : String} {raw : MessageFilters}
    (awake : Awake store) (done : ack config store pid raw = .ok store') : Awake store' := by
  unfold ack at done
  split_ifs at done
  · cases done
    exact awake
  · simp only [bind_eq_ok] at done
    obtain ⟨_, _, acked⟩ := done
    exact foldlM_keeps ackProcessMessage_awake acked awake

omit [DecidableEq δ] in
theorem message_wait_status {row : AgentProcess δ} (valid : row.Valid) {filters : MessageFilters}
    (waiting : row.waitState = some (.message filters)) : row.status = .waitingEvent := by
  unfold AgentProcess.Valid validateProcessState at valid
  rw [waiting, Bool.and_eq_true] at valid
  cases status : row.status with
  | waitingEvent => rfl
  | _ =>
      rw [status] at valid
      cases valid.1

/-- The new message wakes its recipient, or does not match what the recipient waits for. -/
theorem wakeIfWaitingForMessage_awake {store inserted store' : MessageStore δ}
    {ambient : Ambient δ} {message : ProcessMessage} (awake : Awake store)
    (inserts : inserted = { store with messages := store.messages ++ [message] })
    (done : wakeIfWaitingForMessage inserted ambient message = .ok store') : Awake store' := by
  subst inserts
  simp only [wakeIfWaitingForMessage, getProcess_eq, bind_eq_ok] at done
  obtain ⟨recipient, found, done⟩ := done
  -- Without a wake the processes are as before, so only the new message can match.
  have unwoken (unmatched : ∀ filters,
      MessageWaits store.processes message.recipientPid filters →
        messageMatches message filters = false) :
      Awake { store with messages := store.messages ++ [message] } := by
    refine ⟨awake.sound, ?_⟩
    intro pid filters waiting other member own
    rcases List.mem_append.mp member with earlier | new
    · exact awake.unmatched waiting other earlier own
    · obtain rfl := List.mem_singleton.mp new
      rw [← own] at waiting
      exact unmatched filters waiting
  have stored : store.processes.rows message.recipientPid = recipient := Except.ok.inj found
  cases recipient with
  | none =>
      cases done
      apply unwoken
      rintro filters ⟨row, present, _⟩
      rw [stored] at present
      cases present
  | some process =>
      dsimp only at done
      split_ifs at done with status
      · cases done
        apply unwoken
        rintro filters ⟨row, present, waiting⟩
        rw [stored] at present
        cases present
        exact absurd (message_wait_status (awake.sound.valid stored) waiting) status
      · split at done
        · next filters waitState =>
            split_ifs at done with matched
            · simp only [bind_eq_ok] at done
              obtain ⟨token, taken, processes, woken, done⟩ := done
              cases done
              have own : token.pid = message.recipientPid :=
                (waitToken_ok taken).1.trans (awake.sound.keyed stored)
              refine ⟨wake_sound awake.sound woken, ?_⟩
              intro pid filters' waiting other member recipient
              obtain ⟨different, kept⟩ := wake_waits awake.sound woken waiting
              rcases List.mem_append.mp member with earlier | new
              · exact awake.unmatched kept other earlier recipient
              · obtain rfl := List.mem_singleton.mp new
                exact absurd (recipient.symm.trans own.symm) different
            · cases done
              apply unwoken
              rintro filters' ⟨row, present, waiting⟩
              rw [stored] at present
              cases present
              rw [waitState] at waiting
              cases waiting
              exact Bool.eq_false_iff.mpr matched
        · next other =>
            cases done
            apply unwoken
            rintro filters ⟨row, present, waiting⟩
            rw [stored] at present
            cases present
            exact absurd waiting (other filters)

theorem post_awake {store store' : MessageStore δ} {ambient : Ambient δ} {request : PostRequest}
    (awake : Awake store) (done : post config store ambient request = .ok store') :
    Awake store' := by
  simp only [post, MessageStore.insertProcessMessage, bind_eq_ok] at done
  obtain ⟨message, _, _, _, _, _, inserted, ⟨_, _, inserts⟩, woken⟩ := done
  exact wakeIfWaitingForMessage_awake awake (Except.ok.inj inserts).symm woken

theorem exec_awake {sha256 : String → Digest} {store store' : MessageStore δ}
    {event : MessageEvent δ} (awake : Awake store)
    (done : store.exec config sha256 event = .ok store') : Awake store' := by
  cases event with
  | post ambient request => exact post_awake awake done
  | receive ambient pid block includeAcked filters limit =>
      obtain ⟨⟨next, messages⟩, received, rfl⟩ := map_eq_ok.mp done
      exact receive_awake awake received
  | receivePage ambient pid block includeAcked filters limit =>
      obtain ⟨⟨next, page⟩, received, rfl⟩ := map_eq_ok.mp done
      exact receivePage_awake awake received
  | ack pid filters => exact ack_awake awake done
  | wake ambient token control read =>
      obtain ⟨processes, woken, rfl⟩ := map_eq_ok.mp done
      refine awake.mono (wake_sound awake.sound woken) ?_ fun message member =>
        ⟨message, member, rfl, fun _ unmatched => unmatched⟩
      intro pid filters waiting
      exact (wake_waits awake.sound woken waiting).2
  | process event other =>
      obtain ⟨processes, changed, rfl⟩ := map_eq_ok.mp done
      refine awake.mono (exec_sound awake.sound changed) ?_ fun message member =>
        ⟨message, member, rfl, fun _ unmatched => unmatched⟩
      intro pid filters waiting
      exact exec_waits awake.sound changed other waiting

theorem step_awake {sha256 : String → Digest} {store : MessageStore δ} (event : MessageEvent δ)
    (awake : Awake store) : Awake (store.step config sha256 event) := by
  rcases transact_cases (MessageStore.exec config sha256) store event with done | same
  · exact exec_awake awake done
  · rw [MessageStore.step, same]
    exact awake

/-- For every run: no process waits for a message while an unread one satisfies the query for its
filters, which come back unchanged from their JSON column; and the predicate that wakes accepts
exactly the unread messages that the query returns. -/
theorem no_lost_wakeup (config : MessageConfig) (sha256 : String → Digest)
    (events : List (MessageEvent δ)) :
    let store := run (MessageStore.step config sha256) MessageStore.empty events
    (∀ pid row filters, store.getProcess pid = .ok (some row) → row.status = .waitingEvent →
      row.waitState = some (.message filters) →
      store.listProcessMessages pid [.unread] filters none = []) ∧
    (∀ raw filters, normalizeFilters config raw = .ok filters → ∀ message ∈ store.messages,
      (messageMatches message filters = true ↔
        message ∈ store.listProcessMessages message.recipientPid [.unread] filters none)) ∧
    ∀ waitState : Option ProcessWaitState,
      ProcessWaitState.ofMapping (ProcessWaitState.toMapping waitState) = some waitState := by
  intro store
  have awake : Awake store := stable_run (fun _ event awake => step_awake event awake) events
    empty_awake
  refine ⟨?_, ?_, ProcessWaitState.ofMapping_toMapping⟩
  · intro pid row filters stored _ waiting
    rw [getProcess_eq, Except.ok.injEq] at stored
    apply List.eq_nil_iff_forall_not_mem.mpr
    intro message listed
    obtain ⟨member, selected⟩ := mem_listProcessMessages.mp listed
    have recipient : message.recipientPid = pid := by
      simp only [selects, Bool.and_eq_true, beq_iff_eq] at selected
      exact selected.1.1.1.1.1.1.1
    have unmatched := awake.unmatched ⟨row, stored, waiting⟩ message member recipient
    rw [messageMatches_eq, recipient, selected] at unmatched
    cases unmatched
  · intro raw filters _ message member
    rw [messageMatches_eq, mem_listProcessMessages]
    exact (and_iff_right member).symm

end
end AgentLibOS.Messages
