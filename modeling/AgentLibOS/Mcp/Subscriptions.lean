import AgentLibOS.Library.Retention
import AgentLibOS.Mcp.Supervisor

namespace AgentLibOS.Mcp
open Library Library.Run

structure McpSubscriptionPolicy where
  maxOpen : Nat
  queueEvents : Nat
  terminalStatusRecords : Nat
  retains : 0 < terminalStatusRecords

structure McpSubscriptionEvent (Payload : Type) where
  payload : Payload
  sequence : Nat

inductive McpSubscriptionStatus
  | opening | active | lost | closed
  deriving DecidableEq, Repr

inductive DurableStatus
  | starting | active | stopping | stopped | lost
  deriving DecidableEq, Repr

structure TerminalSubscription (Payload : Type) where
  status : McpSubscriptionStatus
  events : List (McpSubscriptionEvent Payload)
  eventCursor : Nat

/-- All that the manager keeps for one subscription id: its opening and its stream, in which of the
tables `_opening`, `_live` and `_stopping` it stands, and which calls are under way for it.
`accepted` and `dropped` record the events that have reached its queue. -/
structure Subscription (Payload : Type) where
  reserved : Bool
  fence : McpConnectionFence
  prepared : Bool
  committed : Bool
  closed : Bool
  durable : DurableStatus
  stop : Bool
  queue : List (McpSubscriptionEvent Payload)
  nextSequence : Nat
  eventCursor : Nat
  opening : Bool
  live : Bool
  stopping : Bool
  /-- `prepare_start` has not ended. -/
  preparing : Bool
  /-- A stop between its claim and its end, with its `persist`. -/
  stopCall : Option Bool
  /-- The consumer has left its loop with an error and is about to report the loss. -/
  failing : Bool
  accepted : List (McpSubscriptionEvent Payload)
  dropped : Nat

structure EventRead (Id Reader : Type) where
  reader : Reader
  subscriptionId : Id
  after : Nat
  limit : Nat

/-- A read that has returned. -/
structure EventBatch (Id Reader Payload : Type) where
  read : EventRead Id Reader
  batch : List (McpSubscriptionEvent Payload)

variable {Id Reader Payload : Type}

def Subscription.unused (fence : McpConnectionFence) : Subscription Payload where
  reserved := false
  fence := fence
  prepared := false
  committed := false
  closed := false
  durable := .starting
  stop := false
  queue := []
  nextSequence := 1
  eventCursor := 0
  opening := false
  live := false
  stopping := false
  preparing := false
  stopCall := none
  failing := false
  accepted := []
  dropped := 0

/-- `durableStore` tells whether there is a store; `identifiers` are the ids in the order in which
they last came into one of the tables `_opening`, `_live` and `_stopping`. -/
structure McpSubscriptionManager (Id Reader Payload : Type) where
  policy : McpSubscriptionPolicy
  durableStore : Bool
  identifiers : List Id
  subscriptions : Id → Subscription Payload
  terminal : Retention Id (TerminalSubscription Payload)
  eventReads : List (EventRead Id Reader)
  revokedOwners : List String
  closed : Bool
  batches : List (EventBatch Id Reader Payload)

inductive SubscriptionFault
  | window | cursor | ownerClosed | unknown
  deriving DecidableEq, Repr

/-- What the loop of `_transition_to_lost` comes to: the row is made `lost`, it is found `stopped`,
or an exception leaves. -/
inductive LostAnswer
  | lost | stopped | raised
  deriving DecidableEq, Repr

namespace McpSubscriptionManager

def start (policy : McpSubscriptionPolicy) (durableStore : Bool) (fence : McpConnectionFence) :
    McpSubscriptionManager Id Reader Payload :=
  ⟨policy, durableStore, [], fun _ => .unused fence, .empty, [], [], false, []⟩

section Tables
variable [DecidableEq Id]

def set (manager : McpSubscriptionManager Id Reader Payload) (subscriptionId : Id)
    (selected : Subscription Payload) : McpSubscriptionManager Id Reader Payload :=
  { manager with
    subscriptions := fun other =>
      if other = subscriptionId then selected else manager.subscriptions other }

/-- The id is the last one that came into a table. -/
def enter (manager : McpSubscriptionManager Id Reader Payload) (subscriptionId : Id) :
    McpSubscriptionManager Id Reader Payload :=
  { manager with
    identifiers := manager.identifiers.filter (· ≠ subscriptionId) ++ [subscriptionId] }

/-- `_remember_terminal` with the queue and the cursor of the stream. -/
def rememberTerminal (manager : McpSubscriptionManager Id Reader Payload) (subscriptionId : Id)
    (status : McpSubscriptionStatus) (selected : Subscription Payload) :
    McpSubscriptionManager Id Reader Payload :=
  { manager with
    terminal := (manager.terminal.put subscriptionId
      ⟨status, selected.queue, selected.eventCursor⟩).evict manager.policy.terminalStatusRecords }

end Tables

/-- `_transition_to_lost`, if there is a store and a record. -/
def transitionToLost (manager : McpSubscriptionManager Id Reader Payload) (durable : DurableStatus)
    (answer : LostAnswer) : DurableStatus :=
  if manager.durableStore = false ∨ durable = .lost ∨ durable = .stopped then durable
  else match answer with
    | .lost => .lost
    | .stopped => .stopped
    | .raised => durable

/-- A compare-and-swap that is only made when there is a store. -/
def casRecord (manager : McpSubscriptionManager Id Reader Payload) (swapped : Bool)
    (durable target : DurableStatus) : Option DurableStatus :=
  if manager.durableStore = true then if swapped = true then some target else none
  else some durable

def revoked (manager : McpSubscriptionManager Id Reader Payload)
    (selected : Subscription Payload) : Bool :=
  manager.revokedOwners.contains selected.fence.owner

section Operations
variable [DecidableEq Id]

/-! ## Start -/

def liveCount (manager : McpSubscriptionManager Id Reader Payload) : Nat :=
  manager.identifiers.countP fun id =>
    (manager.subscriptions id).live || (manager.subscriptions id).opening

/-- `_reserve_opening` for a new id. -/
def reserveOpening (manager : McpSubscriptionManager Id Reader Payload) (subscriptionId : Id)
    (fence : McpConnectionFence) : McpSubscriptionManager Id Reader Payload :=
  if (manager.subscriptions subscriptionId).reserved = true ∨ manager.closed = true ∨
      fence.owner ∈ manager.revokedOwners ∨ manager.policy.maxOpen ≤ manager.liveCount then manager
  else (manager.set subscriptionId
    { Subscription.unused fence with reserved := true, opening := true, preparing := true }).enter
      subscriptionId

/-- The insertion of the durable row has failed. -/
def insertFailed (manager : McpSubscriptionManager Id Reader Payload) (subscriptionId : Id) :
    McpSubscriptionManager Id Reader Payload :=
  let selected := manager.subscriptions subscriptionId
  if selected.preparing = true then
    manager.set subscriptionId { selected with preparing := false, opening := false }
  else manager

/-- The last section of `prepare_start`. -/
def prepared (manager : McpSubscriptionManager Id Reader Payload) (subscriptionId : Id) :
    McpSubscriptionManager Id Reader Payload :=
  let selected := manager.subscriptions subscriptionId
  if selected.preparing = true ∧ manager.closed = false ∧ manager.revoked selected = false ∧
      selected.opening = true then
    manager.set subscriptionId { selected with preparing := false, prepared := true }
  else manager

/-- The handler of `prepare_start`. -/
def prepareFailed (manager : McpSubscriptionManager Id Reader Payload) (subscriptionId : Id)
    (answer : LostAnswer) : McpSubscriptionManager Id Reader Payload :=
  let selected := manager.subscriptions subscriptionId
  if selected.preparing = true then
    let dropped := manager.set subscriptionId { selected with preparing := false, opening := false }
    if manager.durableStore = true ∧ answer = .raised then dropped
    else dropped.rememberTerminal subscriptionId .lost selected
  else manager

/-- `commit_prepared_start_deferred`. -/
def commitPreparedStart (manager : McpSubscriptionManager Id Reader Payload) (subscriptionId : Id)
    (swapped : Bool) : McpSubscriptionManager Id Reader Payload :=
  let selected := manager.subscriptions subscriptionId
  if selected.closed = false ∧ selected.committed = false ∧ selected.prepared = true then
    match manager.casRecord swapped selected.durable .active with
    | none => manager
    | some durable =>
        manager.set subscriptionId { selected with durable := durable, committed := true }
  else manager

/-- `finalize_prepared_start`; `current` tells whether the durable row is the expected one, and
`started` whether the consumer could be started. -/
def finalizePreparedStart (manager : McpSubscriptionManager Id Reader Payload)
    (subscriptionId : Id) (current started : Bool) : McpSubscriptionManager Id Reader Payload :=
  let selected := manager.subscriptions subscriptionId
  if selected.opening = true ∧ selected.closed = false ∧ selected.committed = true ∧
      manager.closed = false ∧ manager.revoked selected = false ∧ selected.prepared = true ∧
      (manager.durableStore = true → current = true) then
    if started = true then
      (manager.set subscriptionId
        { selected with opening := false, live := true, closed := true }).enter subscriptionId
    else manager.enter subscriptionId
  else manager

/-- `abort_prepared_start` up to the release of the listener. -/
def abortPreparedStart (manager : McpSubscriptionManager Id Reader Payload) (subscriptionId : Id)
    (persist : Bool) (answer : LostAnswer) : McpSubscriptionManager Id Reader Payload :=
  let selected := manager.subscriptions subscriptionId
  if selected.prepared = true ∧ (selected.opening = true ∨ selected.live = true) then
    let durable := if persist = true then manager.transitionToLost selected.durable answer
      else selected.durable
    (manager.set subscriptionId
      { selected with
        opening := false
        live := false
        closed := selected.closed || selected.opening
        stop := true
        durable := durable }).rememberTerminal subscriptionId .lost selected
  else manager

/-! ## Readers -/

/-- What `status` finds in memory. -/
def status? (manager : McpSubscriptionManager Id Reader Payload) (subscriptionId : Id) :
    Except SubscriptionFault McpSubscriptionStatus :=
  let selected := manager.subscriptions subscriptionId
  if selected.live = true then
    if manager.revoked selected then .error .ownerClosed else .ok .active
  else if selected.opening = true then
    if manager.revoked selected then .error .ownerClosed else .ok .opening
  else if selected.stopping = true then
    if manager.revoked selected then .error .ownerClosed else .ok .active
  else match manager.terminal.get subscriptionId with
    | some record => .ok record.status
    | none => .error .unknown

def status (manager : McpSubscriptionManager Id Reader Payload) (subscriptionId : Id) :
    McpSubscriptionManager Id Reader Payload :=
  let selected := manager.subscriptions subscriptionId
  if selected.live = true ∨ selected.opening = true ∨ selected.stopping = true then manager
  else { manager with terminal := manager.terminal.touch subscriptionId }

/-- `events` up to its suspension. -/
def beginEvents (manager : McpSubscriptionManager Id Reader Payload) (read : EventRead Id Reader) :
    McpSubscriptionManager Id Reader Payload :=
  if 1 ≤ read.limit ∧ read.limit ≤ 1000 ∧
      ∀ other ∈ manager.eventReads, other.subscriptionId ≠ read.subscriptionId then
    { manager with eventReads := read :: manager.eventReads }
  else manager

def endEvents (manager : McpSubscriptionManager Id Reader Payload) (subscriptionId : Id) :
    McpSubscriptionManager Id Reader Payload :=
  { manager with eventReads := manager.eventReads.filter (·.subscriptionId ≠ subscriptionId) }

/-- The sequence of the last event, or the cursor if there is none. -/
def lastSequence (cursor : Nat) (batch : List (McpSubscriptionEvent Payload)) : Nat :=
  (batch.getLast?.map (·.sequence)).getD cursor

/-- The events of a window. -/
def window (events : List (McpSubscriptionEvent Payload)) (after limit : Nat) :
    List (McpSubscriptionEvent Payload) :=
  (events.filter (after < ·.sequence)).take limit

/-- The section of `events` that consumes a batch. -/
def readEvents (manager : McpSubscriptionManager Id Reader Payload) (read : EventRead Id Reader) :
    Except SubscriptionFault
      (List (McpSubscriptionEvent Payload) × McpSubscriptionManager Id Reader Payload) :=
  let selected := manager.subscriptions read.subscriptionId
  if selected.live = true then
    if manager.revoked selected = true then .error .ownerClosed
    else if read.after ≠ selected.eventCursor then .error .cursor
    else
      let batch := window selected.queue read.after read.limit
      .ok (batch, manager.set read.subscriptionId
        { selected with
          queue := selected.queue.drop batch.length
          eventCursor := lastSequence selected.eventCursor batch })
  else match manager.terminal.get read.subscriptionId with
    | none => .error .unknown
    | some record =>
        if read.after ≠ record.eventCursor then .error .cursor
        else
          let batch := window record.events read.after read.limit
          .ok (batch, { manager with
            terminal := manager.terminal.put read.subscriptionId
              { record with
                events := record.events.drop batch.length
                eventCursor := lastSequence record.eventCursor batch } })

/-- The end of a call of `events` for the id. -/
def events (manager : McpSubscriptionManager Id Reader Payload) (subscriptionId : Id) :
    McpSubscriptionManager Id Reader Payload :=
  match manager.eventReads.find? (·.subscriptionId = subscriptionId) with
  | none => manager
  | some read =>
      match manager.readEvents read with
      | .error _ => manager.endEvents subscriptionId
      | .ok (batch, consumed) =>
          { consumed.endEvents subscriptionId with batches := ⟨read, batch⟩ :: manager.batches }

/-! ## Stop -/

/-- `_claim_stop`. -/
def claimStop (manager : McpSubscriptionManager Id Reader Payload) (subscriptionId : Id)
    (persist swapped : Bool) : McpSubscriptionManager Id Reader Payload :=
  let selected := manager.subscriptions subscriptionId
  if selected.live = true ∧ selected.failing = true then
    -- the consumer runs on the same loop and reports its loss first
    manager
  else if selected.live = true then
    match if persist = true then manager.casRecord swapped selected.durable .stopping
      else some selected.durable with
    -- the live state is restored, with `stop` cleared again
    | none => (manager.set subscriptionId { selected with stop := false }).enter subscriptionId
    | some durable =>
        (manager.set subscriptionId
          { selected with
            live := false
            stopping := true
            stop := true
            durable := durable
            stopCall := some persist }).enter subscriptionId
  else { manager with terminal := manager.terminal.touch subscriptionId }

/-- The last section of `_stop`. -/
def finishStop (manager : McpSubscriptionManager Id Reader Payload) (subscriptionId : Id)
    (swapped : Bool) : McpSubscriptionManager Id Reader Payload :=
  let selected := manager.subscriptions subscriptionId
  match selected.stopCall with
  | none => manager
  | some persist =>
      let ended := { selected with stopCall := none }
      if selected.durable = .lost ∧ (manager.terminal.get subscriptionId).isSome = true then
        manager.set subscriptionId { ended with stopping := false }
      else
        match if persist = true then manager.casRecord swapped selected.durable .stopped
          else some selected.durable with
        | none =>
            manager.set subscriptionId
              { ended with stopping := selected.stopping && selected.durable != .lost }
        | some durable =>
            (manager.set subscriptionId
              { ended with stopping := false, durable := durable }).rememberTerminal
                subscriptionId .closed selected

/-- A stop whose drains or whose release raise. -/
def stopFailed (manager : McpSubscriptionManager Id Reader Payload) (subscriptionId : Id) :
    McpSubscriptionManager Id Reader Payload :=
  manager.set subscriptionId { manager.subscriptions subscriptionId with stopCall := none }

/-! ## Events and losses -/

/-- `_enqueue_event`; `recorded` tells whether the durable counters and the local caches could be
changed. After an overflow or an exception the consumer reports the loss. -/
def enqueueEvent (manager : McpSubscriptionManager Id Reader Payload) (subscriptionId : Id)
    (payload : Payload) (recorded : Bool) : McpSubscriptionManager Id Reader Payload :=
  let selected := manager.subscriptions subscriptionId
  if selected.live = true ∧ selected.failing = false ∧ selected.stop = false ∧
      manager.revoked selected = false then
    let event : McpSubscriptionEvent Payload := ⟨payload, selected.nextSequence⟩
    if manager.policy.queueEvents ≤ selected.queue.length then
      manager.set subscriptionId
        { selected with
          nextSequence := selected.nextSequence + 1
          failing := true
          dropped := selected.dropped + 1 }
    else
      manager.set subscriptionId
        { selected with
          nextSequence := selected.nextSequence + 1
          queue := selected.queue ++ [event]
          failing := !recorded
          accepted := selected.accepted ++ [event] }
  else manager

/-- `_connection_lost`. -/
def connectionLost (manager : McpSubscriptionManager Id Reader Payload) (subscriptionId : Id)
    (answer : LostAnswer) : McpSubscriptionManager Id Reader Payload :=
  let selected := manager.subscriptions subscriptionId
  if selected.live = true ∨ (selected.opening = true ∧ selected.prepared = true) then
    (manager.set subscriptionId
      { selected with
        live := false
        opening := selected.live && selected.opening
        closed := selected.closed || !selected.live
        stop := true
        durable := manager.transitionToLost selected.durable answer
        failing := false }).rememberTerminal subscriptionId .lost selected
  else manager.set subscriptionId { selected with failing := false }

/-- `_lose_selected_nowait` of a subscription that is taken out of its table. -/
def loseSelected (manager : McpSubscriptionManager Id Reader Payload) (subscriptionId : Id)
    (answer : LostAnswer) : McpSubscriptionManager Id Reader Payload :=
  let selected := manager.subscriptions subscriptionId
  (manager.set subscriptionId
    { selected with
      live := false
      stopping := false
      durable := manager.transitionToLost selected.durable answer }).rememberTerminal
        subscriptionId .lost selected

/-- The opening of an invalidated subscription is popped and remembered as lost. -/
def loseOpening (manager : McpSubscriptionManager Id Reader Payload) (subscriptionId : Id) :
    McpSubscriptionManager Id Reader Payload :=
  let selected := manager.subscriptions subscriptionId
  (manager.set subscriptionId
    { selected with
      opening := false
      closed := true
      stop := selected.stop || selected.prepared }).rememberTerminal subscriptionId .lost selected

/-- The revocations that end subscriptions. -/
inductive SubscriptionInvalidation
  | server (serverId : String)
  | owner (closedOwner : String)

def SubscriptionInvalidation.matchesFence : SubscriptionInvalidation → McpConnectionFence → Bool
  | .server serverId, fence => fence.serverId == serverId
  | .owner closedOwner, fence => fence.owner == closedOwner

/-- The loops of `_invalidate_nowait` over the live and over the stopping subscriptions. -/
def invalidateTable (change : SubscriptionInvalidation) (table : Subscription Payload → Bool)
    (answers : Id → LostAnswer) (manager : McpSubscriptionManager Id Reader Payload)
    (subscriptionId : Id) : McpSubscriptionManager Id Reader Payload :=
  let selected := manager.subscriptions subscriptionId
  if table selected = true ∧ change.matchesFence selected.fence = true then
    manager.loseSelected subscriptionId (answers subscriptionId)
  else manager

/-- The loop of `_invalidate_nowait` over the openings. The row of an opening that is not prepared
has to be read, and a failure ends the loop. -/
def invalidateOpenings (change : SubscriptionInvalidation) (readable : Id → Bool) :
    List Id → McpSubscriptionManager Id Reader Payload → McpSubscriptionManager Id Reader Payload
  | [], manager => manager
  | subscriptionId :: rest, manager =>
      let selected := manager.subscriptions subscriptionId
      if selected.opening = true ∧ change.matchesFence selected.fence = true then
        if selected.prepared = false ∧ manager.durableStore = true ∧
            readable subscriptionId = false then
          manager.set subscriptionId { selected with opening := false, closed := true }
        else invalidateOpenings change readable rest (manager.loseOpening subscriptionId)
      else invalidateOpenings change readable rest manager

/-- `_invalidate_nowait`. -/
def invalidateNowait (manager : McpSubscriptionManager Id Reader Payload)
    (change : SubscriptionInvalidation) (answers : Id → LostAnswer) (readable : Id → Bool) :
    McpSubscriptionManager Id Reader Payload :=
  let live := manager.identifiers.foldl (invalidateTable change (·.live) answers) manager
  let stopping := manager.identifiers.foldl (invalidateTable change (·.stopping) answers) live
  invalidateOpenings change readable manager.identifiers stopping

/-- The first section of `close_owner_nowait`. -/
def latchOwner (manager : McpSubscriptionManager Id Reader Payload) (owner : String) :
    McpSubscriptionManager Id Reader Payload :=
  { manager with
    revokedOwners := owner :: manager.revokedOwners
    subscriptions := fun id =>
      let selected := manager.subscriptions id
      if selected.opening = true ∧ selected.fence.owner = owner then
        { selected with closed := true }
      else selected }

/-- `close` up to its stops and aborts. -/
def beginClose (manager : McpSubscriptionManager Id Reader Payload) :
    McpSubscriptionManager Id Reader Payload :=
  { manager with closed := true }

end Operations

/-! ## Interleavings -/

/-- One locked section of the manager, with the answers of the store. -/
inductive SubscriptionEvent (Id Reader Payload : Type)
  | reserveOpening (subscriptionId : Id) (fence : McpConnectionFence)
  | insertFailed (subscriptionId : Id)
  | prepared (subscriptionId : Id)
  | prepareFailed (subscriptionId : Id) (answer : LostAnswer)
  | commitPreparedStart (subscriptionId : Id) (swapped : Bool)
  | finalizePreparedStart (subscriptionId : Id) (current started : Bool)
  | abortPreparedStart (subscriptionId : Id) (persist : Bool) (answer : LostAnswer)
  | status (subscriptionId : Id)
  | beginEvents (read : EventRead Id Reader)
  | events (subscriptionId : Id)
  | endEvents (subscriptionId : Id)
  | claimStop (subscriptionId : Id) (persist swapped : Bool)
  | finishStop (subscriptionId : Id) (swapped : Bool)
  | stopFailed (subscriptionId : Id)
  | enqueueEvent (subscriptionId : Id) (payload : Payload) (recorded : Bool)
  | connectionLost (subscriptionId : Id) (answer : LostAnswer)
  | latchOwner (owner : String)
  | invalidateNowait (change : SubscriptionInvalidation) (answers : Id → LostAnswer)
      (readable : Id → Bool)
  | beginClose

def step [DecidableEq Id] (manager : McpSubscriptionManager Id Reader Payload) :
    SubscriptionEvent Id Reader Payload → McpSubscriptionManager Id Reader Payload
  | .reserveOpening subscriptionId fence => manager.reserveOpening subscriptionId fence
  | .insertFailed subscriptionId => manager.insertFailed subscriptionId
  | .prepared subscriptionId => manager.prepared subscriptionId
  | .prepareFailed subscriptionId answer => manager.prepareFailed subscriptionId answer
  | .commitPreparedStart subscriptionId swapped =>
      manager.commitPreparedStart subscriptionId swapped
  | .finalizePreparedStart subscriptionId current started =>
      manager.finalizePreparedStart subscriptionId current started
  | .abortPreparedStart subscriptionId persist answer =>
      manager.abortPreparedStart subscriptionId persist answer
  | .status subscriptionId => manager.status subscriptionId
  | .beginEvents read => manager.beginEvents read
  | .events subscriptionId => manager.events subscriptionId
  | .endEvents subscriptionId => manager.endEvents subscriptionId
  | .claimStop subscriptionId persist swapped => manager.claimStop subscriptionId persist swapped
  | .finishStop subscriptionId swapped => manager.finishStop subscriptionId swapped
  | .stopFailed subscriptionId => manager.stopFailed subscriptionId
  | .enqueueEvent subscriptionId payload recorded =>
      manager.enqueueEvent subscriptionId payload recorded
  | .connectionLost subscriptionId answer => manager.connectionLost subscriptionId answer
  | .latchOwner owner => manager.latchOwner owner
  | .invalidateNowait change answers readable => manager.invalidateNowait change answers readable
  | .beginClose => manager.beginClose

end McpSubscriptionManager
end AgentLibOS.Mcp
