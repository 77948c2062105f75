import AgentLibOS.Processes.Transitions
import AgentLibOS.Processes.WaitCodec
import Mathlib.Data.List.Sort
import Mathlib.Data.Prod.Lex
import Mathlib.Data.String.Basic

namespace AgentLibOS.Messages
open Library.Text Library.Run Processes

inductive ProcessMessageKind
  | normal | interrupt
  deriving DecidableEq, Repr

namespace ProcessMessageKind

def value : ProcessMessageKind → String
  | .normal => "normal"
  | .interrupt => "interrupt"

def ofValue (text : String) : Except ProcessFault ProcessMessageKind :=
  if text = "normal" then .ok .normal
  else if text = "interrupt" then .ok .interrupt
  else .error .validation

end ProcessMessageKind

inductive ProcessMessageStatus
  | unread | acked | supersededByRestore
  deriving DecidableEq, Repr

/-- A row of `process_messages`, without its content. -/
structure ProcessMessage where
  messageId : String
  sender : String
  recipientPid : String
  kind : ProcessMessageKind
  channel : String
  correlationId : Option String
  replyTo : Option String
  status : ProcessMessageStatus
  createdAt : String
  deriving DecidableEq

/-- `filtersFit` and `waitStatusFits` are the size checks of the filters as JSON text. -/
structure MessageConfig where
  messageIdMaxChars : Nat
  messageReadLimit : Nat
  messageReadHardLimit : Nat
  messageFilterIdsHardLimit : Nat
  filtersFit : MessageFilters → Bool
  waitStatusFits : MessageFilters → Bool
  readLimitPositive : 0 < messageReadLimit

/-! ## Normalisation -/

def normalizeIdentifier (config : MessageConfig) (value : String) : Except ProcessFault String := do
  require (value ≠ "") .validation
  require ('\x00' ∉ value.toList) .validation
  require (value.length ≤ config.messageIdMaxChars) .validation
  .ok value

def normalizeOptionalIdentifier (config : MessageConfig) :
    Option String → Except ProcessFault (Option String) :=
  optionally (normalizeIdentifier config)

def normalizeChannel (channel : String) : Except ProcessFault String := do
  let selected := String.ofList (strip isSpace (if channel = "" then "default" else channel).toList)
  require (selected ≠ "") .process
  require (selected.length ≤ 128) .process
  .ok selected

def validateMessageIds (config : MessageConfig) :
    Option (List String) → Except ProcessFault (Option (List String)) :=
  optionally fun messageIds => do
    require (messageIds.length ≤ config.messageFilterIdsHardLimit) .validation
    messageIds.mapM (normalizeIdentifier config)

/-- `_filters`, of the raw filters that a caller gives. -/
def normalizeFilters (config : MessageConfig) (raw : MessageFilters) :
    Except ProcessFault MessageFilters := do
  let kind ← optionally (fun text => (ProcessMessageKind.ofValue text).map (·.value)) raw.kind
  let channel ← optionally normalizeChannel raw.channel
  let correlationId ← normalizeOptionalIdentifier config raw.correlationId
  let replyTo ← normalizeOptionalIdentifier config raw.replyTo
  let messageIds ← validateMessageIds config raw.messageIds
  let filters : MessageFilters := ⟨kind, raw.sender, channel, correlationId, replyTo, messageIds⟩
  require (config.filtersFit filters = true) .validation
  .ok filters

def normalizeLimit (config : MessageConfig) (limit : Option Int) : Except ProcessFault Nat := do
  let selected := limit.getD config.messageReadLimit
  require (0 ≤ selected) .validation
  require (selected ≤ config.messageReadHardLimit) .validation
  .ok selected.toNat

/-! ## The store -/

structure MessageStore (δ : Type) where
  processes : ProcessStore δ
  messages : List ProcessMessage

/-- `column = ?`, for a parameter that is left out when it is absent; NULL equals nothing. -/
def sqlEqual (parameter column : Option String) : Bool :=
  match parameter, column with
  | none, _ => true
  | some _, none => false
  | some wanted, some actual => actual == wanted

/-- The `WHERE` clause of the message queries. -/
def selects (recipientPid : String) (statuses : List ProcessMessageStatus)
    (filters : MessageFilters) (message : ProcessMessage) : Bool :=
  message.recipientPid == recipientPid && statuses.contains message.status &&
    sqlEqual filters.kind (some message.kind.value) && sqlEqual filters.sender (some message.sender) &&
    sqlEqual filters.channel (some message.channel) &&
    sqlEqual filters.correlationId message.correlationId &&
    sqlEqual filters.replyTo message.replyTo &&
    filters.messageIds.all fun messageIds => messageIds.contains message.messageId

/-- The comparison of `_message_matches`. -/
def messageMatches (message : ProcessMessage) (filters : MessageFilters) : Bool :=
  if message.status ≠ .unread then false
  else if filters.kind.any (message.kind.value != ·) then false
  else if filters.sender.any (message.sender != ·) then false
  else if filters.channel.any (message.channel != ·) then false
  else if filters.correlationId.any (message.correlationId != some ·) then false
  else if filters.replyTo.any (message.replyTo != some ·) then false
  else if filters.messageIds.any (fun messageIds => !messageIds.contains message.messageId) then false
  else true

/-- `ORDER BY created_at, message_id`. -/
def sentBefore (left right : ProcessMessage) : Prop :=
  toLex (left.createdAt, left.messageId) ≤ toLex (right.createdAt, right.messageId)

instance : DecidableRel sentBefore := fun left right =>
  inferInstanceAs (Decidable (toLex (left.createdAt, left.messageId) ≤
    toLex (right.createdAt, right.messageId)))

variable {δ : Type}

namespace MessageStore

def empty : MessageStore δ := ⟨.empty, []⟩

def listProcessMessages (store : MessageStore δ) (recipientPid : String)
    (statuses : List ProcessMessageStatus) (filters : MessageFilters) (limit : Option Nat) :
    List ProcessMessage :=
  if filters.messageIds = some [] then []
  else
    let rows := (store.messages.filter (selects recipientPid statuses filters)).insertionSort
      sentBefore
    limit.elim rows rows.take

def countProcessMessages (store : MessageStore δ) (recipientPid : String)
    (statuses : List ProcessMessageStatus) (filters : MessageFilters) : Nat :=
  if filters.messageIds = some [] then 0
  else (store.messages.filter (selects recipientPid statuses filters)).length

def insertProcessMessage (store : MessageStore δ) (message : ProcessMessage) :
    Except ProcessFault (MessageStore δ) := do
  require (∀ stored ∈ store.messages, stored.messageId ≠ message.messageId) .validation
  .ok { store with messages := store.messages ++ [message] }

def acked (messageId recipientPid : String) (message : ProcessMessage) : ProcessMessage :=
  if message.messageId = messageId ∧ message.recipientPid = recipientPid ∧
      message.status = .unread then { message with status := .acked }
  else message

/-- `ack_process_message`, which updates no row when the message has changed. -/
def ackProcessMessage (store : MessageStore δ) (recipientPid messageId : String) :
    Except ProcessFault (MessageStore δ) := do
  require (∃ message ∈ store.messages, message.messageId = messageId ∧
    message.recipientPid = recipientPid ∧ message.status = .unread) .process
  .ok { store with messages := store.messages.map (acked messageId recipientPid) }

/-- `get_process`: the wait state comes out of its JSON column. -/
def getProcess (store : MessageStore δ) (pid : String) :
    Except ProcessFault (Option (AgentProcess δ)) :=
  match store.processes.rows pid with
  | none => .ok none
  | some row =>
      match ProcessWaitState.ofMapping (ProcessWaitState.toMapping row.waitState) with
      | none => .error .validation
      | some waitState => .ok (some { row with waitState := waitState })

def requireProcess (store : MessageStore δ) (pid : String) :
    Except ProcessFault (AgentProcess δ) := do
  match ← store.getProcess pid with
  | none => .error .missing
  | some process => .ok process

end MessageStore

/-! ## The message manager -/

def visibleStatuses (includeAcked : Bool) : List ProcessMessageStatus :=
  if includeAcked then [.unread, .acked] else [.unread]

/-- `MessageManager.list`. -/
def list (config : MessageConfig) (store : MessageStore δ) (pid : String) (includeAcked : Bool)
    (raw : MessageFilters) (limit : Option Int) : Except ProcessFault (List ProcessMessage) := do
  let _ ← store.requireProcess pid
  let selectedLimit ← normalizeLimit config limit
  let filters ← normalizeFilters config raw
  .ok (store.listProcessMessages pid (visibleStatuses includeAcked) filters (some selectedLimit))

/-- `MessageManager.list_page`. -/
def listPage (config : MessageConfig) (store : MessageStore δ) (pid : String) (includeAcked : Bool)
    (raw : MessageFilters) (limit : Option Int) :
    Except ProcessFault (List ProcessMessage × Nat) := do
  let _ ← store.requireProcess pid
  let selectedLimit ← normalizeLimit config limit
  let filters ← normalizeFilters config raw
  let statuses := visibleStatuses includeAcked
  .ok (store.listProcessMessages pid statuses filters (some selectedLimit),
    store.countProcessMessages pid statuses filters)

section Manager
variable [DecidableEq δ]

/-- The registration that a blocking receive commits before it raises its wait. -/
def registerWait (config : MessageConfig) (store : MessageStore δ) (ambient : Ambient δ)
    (pid : String) (filters : MessageFilters) : Except ProcessFault (MessageStore δ) := do
  let process ← store.requireProcess pid
  require (config.waitStatusFits filters = true) .validation
  let processes ← Processes.transition store.processes ambient pid
    ⟨.waitingEvent, some (.message filters), none⟩ process.revision (some process.status)
    (some process.stateGeneration) none (some process)
  .ok { store with processes := processes }

def requireBlockable (block : Bool) (raw : MessageFilters) (limit : Option Int) :
    Except ProcessFault Unit := do
  require (¬ (block = true ∧ raw.messageIds = some [])) .validation
  require (¬ (block = true ∧ limit = some 0)) .validation

def receive (config : MessageConfig) (store : MessageStore δ) (ambient : Ambient δ) (pid : String)
    (block includeAcked : Bool) (raw : MessageFilters) (limit : Option Int) :
    Except ProcessFault (MessageStore δ × List ProcessMessage) := do
  let filters ← normalizeFilters config raw
  requireBlockable block raw limit
  let messages ← list config store pid includeAcked filters limit
  if messages ≠ [] ∨ block = false then .ok (store, messages)
  else do
    let waiting ← registerWait config store ambient pid filters
    .ok (waiting, [])

def receivePage (config : MessageConfig) (store : MessageStore δ) (ambient : Ambient δ)
    (pid : String) (block includeAcked : Bool) (raw : MessageFilters) (limit : Option Int) :
    Except ProcessFault (MessageStore δ × List ProcessMessage × Nat) := do
  let filters ← normalizeFilters config raw
  requireBlockable block raw limit
  let (messages, matchingCount) ← listPage config store pid includeAcked filters limit
  if messages ≠ [] ∨ block = false then .ok (store, messages, matchingCount)
  else do
    let waiting ← registerWait config store ambient pid filters
    .ok (waiting, [], matchingCount)

/-- `_wake_if_waiting_for_message`. -/
def wakeIfWaitingForMessage (store : MessageStore δ) (ambient : Ambient δ)
    (message : ProcessMessage) : Except ProcessFault (MessageStore δ) := do
  match ← store.getProcess message.recipientPid with
  | none => .ok store
  | some process =>
      if process.status ≠ .waitingEvent then .ok store
      else
        match process.waitState with
        | some (.message filters) =>
            if messageMatches message filters then do
              let token ← waitToken process
              let processes ← Processes.wake store.processes ambient token true (some process)
              .ok { store with processes := processes }
            else .ok store
        | _ => .ok store

/-- `admits` is what the size and label checks before the transaction decide. -/
structure PostRequest where
  messageId : String
  sender : String
  recipientPid : String
  kind : String
  channel : String
  correlationId : Option String
  replyTo : Option String
  createdAt : String
  admits : Bool

def postedMessage (config : MessageConfig) (request : PostRequest) :
    Except ProcessFault ProcessMessage := do
  let kind ← ProcessMessageKind.ofValue request.kind
  require (request.admits = true) .validation
  let correlationId ← normalizeOptionalIdentifier config request.correlationId
  let replyTo ← normalizeOptionalIdentifier config request.replyTo
  let channel ← normalizeChannel request.channel
  .ok ⟨request.messageId, request.sender, request.recipientPid, kind, channel, correlationId,
    replyTo, .unread, request.createdAt⟩

def post (config : MessageConfig) (store : MessageStore δ) (ambient : Ambient δ)
    (request : PostRequest) : Except ProcessFault (MessageStore δ) := do
  let message ← postedMessage config request
  let recipient ← store.requireProcess request.recipientPid
  require (recipient.status.terminal = false) .process
  let inserted ← store.insertProcessMessage message
  wakeIfWaitingForMessage inserted ambient message

def ack (config : MessageConfig) (store : MessageStore δ) (pid : String)
    (raw : MessageFilters) : Except ProcessFault (MessageStore δ) :=
  if raw.messageIds = some [] then .ok store
  else do
    let selectedIds := raw.messageIds.map List.dedup
    let messages ← list config store pid false { raw with messageIds := selectedIds }
      (selectedIds.map fun ids => (ids.length : Int))
    let chosen := messages.filter fun message =>
      selectedIds.all fun ids => ids.contains message.messageId
    chosen.foldlM (fun store message => store.ackProcessMessage pid message.messageId) store

end Manager

/-! ## Events -/

def waitsForMessage : Option ProcessWaitState → Bool
  | some (.message _) => true
  | _ => false

/-- The event stores a message wait of its own. -/
def registersMessageWait : ProcessEvent δ → Bool
  | .insert process | .replaceForRestore process => waitsForMessage process.waitState
  | .transition _ _ requested .. => waitsForMessage requested.waitState
  | .complete _ requested => waitsForMessage requested.waitState
  | _ => false

/-- `process` is any change of the processes but a message wait, which only the manager registers. -/
inductive MessageEvent (δ : Type)
  | post (ambient : Ambient δ) (request : PostRequest)
  | receive (ambient : Ambient δ) (pid : String) (block includeAcked : Bool)
      (filters : MessageFilters) (limit : Option Int)
  | receivePage (ambient : Ambient δ) (pid : String) (block includeAcked : Bool)
      (filters : MessageFilters) (limit : Option Int)
  | ack (pid : String) (filters : MessageFilters)
  | wake (ambient : Ambient δ) (token : ProcessStateToken) (control : Bool)
      (read : Option (AgentProcess δ))
  | process (event : ProcessEvent δ) (other : registersMessageWait event = false)

namespace MessageStore
variable [DecidableEq δ] (config : MessageConfig) (sha256 : String → Digest)

def exec (store : MessageStore δ) : MessageEvent δ → Except ProcessFault (MessageStore δ)
  | .post ambient request => post config store ambient request
  | .receive ambient pid block includeAcked filters limit =>
      (receive config store ambient pid block includeAcked filters limit).map Prod.fst
  | .receivePage ambient pid block includeAcked filters limit =>
      (receivePage config store ambient pid block includeAcked filters limit).map Prod.fst
  | .ack pid filters => ack config store pid filters
  | .wake ambient token control read =>
      (Processes.wake store.processes ambient token control read).map fun processes =>
        { store with processes := processes }
  | .process event _ =>
      (store.processes.exec sha256 event).map fun processes => { store with processes := processes }

/-- A call that fails leaves the store as it was. -/
def step (store : MessageStore δ) (event : MessageEvent δ) : MessageStore δ :=
  transact (exec config sha256) store event

end MessageStore
end AgentLibOS.Messages
