import AgentLibOS.Mcp.ContinuationStore

namespace AgentLibOS.Mcp
open Library Library.Run

/-- The broker value of an input round; its requests and state are the payload. -/
structure Envelope (Payload : Type) where
  round : Nat
  payload : Payload

/-- SHA-256 of canonical JSON, taken to be free of collisions. -/
structure ContentHash (Payload Digest : Type) where
  digest : Envelope Payload → Digest
  collisionFree : Function.Injective digest

structure ContinuationLimits where
  maxRounds : Nat
  positive : 1 ≤ maxRounds

inductive ContinuationCall
  | respond | cancel
  deriving DecidableEq, Repr

variable {Payload Digest : Type}

/-- A boundary call that has not ended. -/
structure Invocation (Payload Digest : Type) where
  call : ContinuationCall
  claimed : McpContinuationRecord Digest
  envelope : Envelope Payload

/-- A prepared transition of the record, with the number of the input round it opens. -/
structure Plan (Digest : Type) where
  preparation : Preparation Digest
  target : McpContinuationRecord Digest
  round : Option Nat

/-- What a boundary hands to the settler of `respond`. -/
inductive ResponseResult (Payload Digest : Type)
  | inputRequired (payload : Payload) (respondable : Bool) (humanRequestId brokerRef : String)
  | remoteTask (receipt : Digest) (brokerRef : String)
  | complete

inductive Moment (Digest : Type)
  | wrote (record : McpContinuationRecord Digest)
  | removed
  | invoked (call : ContinuationCall) (claimed : McpContinuationRecord Digest)
  | certified (revision : Nat)
  | opened (round : Nat)
  | reconciled
  deriving DecidableEq

/-- The durable rows, what the process holds in memory, and what has happened, newest first. -/
structure McpContinuationManager (Payload Digest : Type) where
  store : ContinuationStore Digest
  drawn : Nat
  invocations : List (Invocation Payload Digest)
  plans : List (Plan Digest)
  history : List (Moment Digest)

/-- A continuation right after its initial capture has been committed. -/
structure CapturedContinuation (hash : ContentHash Payload Digest) where
  record : McpContinuationRecord Digest
  brokerRef : String
  payload : Payload
  status : record.status = .inputRequired
  revision : record.revision = 0
  broker : record.broker = some (brokerRef, hash.digest ⟨1, payload⟩)

namespace McpContinuationManager

def start {hash : ContentHash Payload Digest} (captured : CapturedContinuation hash) :
    McpContinuationManager Payload Digest :=
  ⟨⟨some captured.record, none⟩, 0, [], [], [.opened 1, .wrote captured.record]⟩

def invocation? (manager : McpContinuationManager Payload Digest) (revision : Nat) :
    Option (Invocation Payload Digest) :=
  manager.invocations.find? (·.claimed.revision = revision)

def endInvocation (manager : McpContinuationManager Payload Digest) (revision : Nat) :
    McpContinuationManager Payload Digest :=
  { manager with invocations := manager.invocations.filter (·.claimed.revision ≠ revision) }

/-! ## Dispatch -/

/-- `_prepare_pending` on the record that the caller has loaded, without the transition to
`expired`. -/
def preparePending (record : McpContinuationRecord Digest) (expectedRevision : Nat)
    (binding : McpContinuationBinding) (now : Nat) : Except ContinuationFault Unit := do
  ensure (binding = record.binding) .bindingChanged
  ensure (record.revision = expectedRevision) .conflict
  ensure (record.status = .inputRequired) .invalidState
  ensure (now < record.expiresAt) .expired

/-- `_load_envelope`, without the transition to `needs_attention`. -/
def loadEnvelope [DecidableEq Digest] (hash : ContentHash Payload Digest)
    (record : McpContinuationRecord Digest) (secret : Option (Envelope Payload)) :
    Except ContinuationFault (Envelope Payload) :=
  match record.broker, secret with
  | some (_, valueSha256), some envelope => do
      ensure (hash.digest envelope = valueSha256) .broker
      .ok envelope
  | _, _ => .error .broker

/-- The version that a claim writes. -/
def claimedRecord (record : McpContinuationRecord Digest) (now : Nat) :
    McpContinuationRecord Digest :=
  { record with
    status := .dispatching
    revision := record.revision + 1
    metadata := ⟨.notStarted, .unsafeOrUnknown, none⟩
    updatedAt := now }

/-- The version that waits for input again after a call that did not start. -/
def restoredRecord (claimed : McpContinuationRecord Digest) (now : Nat) :
    McpContinuationRecord Digest :=
  { claimed with
    status := .inputRequired
    revision := claimed.revision + 1
    metadata := ⟨.notStarted, .reobserveRequired, none⟩
    updatedAt := now }

/-- `_cas_or_conflict` of the claim, and the boundary call that follows it. -/
def claim (manager : McpContinuationManager Payload Digest) (call : ContinuationCall)
    (record : McpContinuationRecord Digest) (envelope : Envelope Payload) (now : Nat) :
    Except ContinuationFault (McpContinuationManager Payload Digest) := do
  let claimed := claimedRecord record now
  match ← manager.store.compareAndSwap record.revision claimed none with
  | (_, false) => .error .conflict
  | (store, true) =>
      .ok { manager with
        store := store
        invocations := ⟨call, claimed, envelope⟩ :: manager.invocations
        history := .invoked call claimed :: .wrote claimed :: manager.history }

/-- `respond` of a caller that loaded `record` at any earlier time, up to its boundary call. The
Human answer and the parse of the requests can only stop it earlier. -/
def respond [DecidableEq Digest] (hash : ContentHash Payload Digest) (limits : ContinuationLimits)
    (manager : McpContinuationManager Payload Digest) (record : McpContinuationRecord Digest)
    (expectedRevision : Nat) (binding : McpContinuationBinding) (humanRequestId : String)
    (secret : Option (Envelope Payload)) (now later : Nat) :
    Except ContinuationFault (McpContinuationManager Payload Digest) := do
  ensure (.wrote record ∈ manager.history) .notFound
  preparePending record expectedRevision binding now
  ensure (humanRequestId = record.humanRequestId) .bindingChanged
  let envelope ← loadEnvelope hash record secret
  ensure (1 ≤ envelope.round ∧ envelope.round ≤ limits.maxRounds) .roundLimit
  manager.claim .respond record envelope later

def cancel [DecidableEq Digest] (hash : ContentHash Payload Digest)
    (manager : McpContinuationManager Payload Digest) (record : McpContinuationRecord Digest)
    (expectedRevision : Nat) (binding : McpContinuationBinding)
    (secret : Option (Envelope Payload)) (now later : Nat) :
    Except ContinuationFault (McpContinuationManager Payload Digest) := do
  ensure (.wrote record ∈ manager.history) .notFound
  preparePending record expectedRevision binding now
  let envelope ← loadEnvelope hash record secret
  manager.claim .cancel record envelope later

/-- The restore after `McpContinuationDispatchNotStarted`. -/
def notStarted (manager : McpContinuationManager Payload Digest) (revision now : Nat) :
    McpContinuationManager Payload Digest :=
  match manager.invocation? revision with
  | none => manager
  | some invocation =>
      let restored := restoredRecord invocation.claimed now
      let ended := { manager.endInvocation revision with
        history := .certified invocation.claimed.revision :: manager.history }
      match manager.store.compareAndSwap invocation.claimed.revision restored none with
      | .ok (store, true) =>
          { ended with
            store := store
            history := .wrote restored :: ended.history }
      | _ => ended

/-! ## Prepared transitions -/

/-- `_retirement_preparation`; `humanRequestId` and `broker` are the slots of a response result. -/
def preparationOf (manager : McpContinuationManager Payload Digest)
    (record : McpContinuationRecord Digest) (humanRequestId : Option String)
    (broker : Option (String × Digest)) : Preparation Digest where
  preparationId := manager.drawn
  operationRevision := record.revision
  fence := record.binding.toMcpAuthorityFence
  humanRequestId := humanRequestId
  broker := broker
  retireRefs := (record.broker.map Prod.fst).toList
  retireHumanRequestId := some record.humanRequestId

def prepare (manager : McpContinuationManager Payload Digest) (plan : Plan Digest) :
    Except ContinuationFault (McpContinuationManager Payload Digest) := do
  let store ← manager.store.insertPreparation plan.preparation
  .ok { manager with
    store := store
    drawn := manager.drawn + 1
    plans := plan :: manager.plans }

/-- The record leaves its round for `status`. -/
def retired (record : McpContinuationRecord Digest) (status : McpContinuationStatus)
    (metadata : ContinuationMetadata) (now : Nat) : McpContinuationRecord Digest :=
  { record with
    status := status
    revision := record.revision + 1
    broker := none
    metadata := metadata
    updatedAt := now }

/-- The version that waits for the input of a new round. -/
def nextRecord (claimed : McpContinuationRecord Digest) (humanRequestId : String)
    (broker : String × Digest) (now : Nat) : McpContinuationRecord Digest :=
  { claimed with
    status := .inputRequired
    revision := claimed.revision + 1
    humanRequestId := humanRequestId
    broker := some broker
    metadata := ⟨.started, .reobserveRequired, none⟩
    updatedAt := now }

/-- `_commit_retirement_transition` up to its commit. -/
def retire (manager : McpContinuationManager Payload Digest)
    (record : McpContinuationRecord Digest) (status : McpContinuationStatus)
    (metadata : ContinuationMetadata) (now : Nat) :
    Except ContinuationFault (McpContinuationManager Payload Digest) :=
  manager.prepare
    ⟨manager.preparationOf record none none, retired record status metadata now, none⟩

/-- `prepare_response_result`. -/
def settle (hash : ContentHash Payload Digest) (limits : ContinuationLimits)
    (manager : McpContinuationManager Payload Digest) (revision : Nat)
    (result : ResponseResult Payload Digest) (now : Nat) :
    Except ContinuationFault (McpContinuationManager Payload Digest) :=
  match manager.invocation? revision with
  | some ⟨.respond, claimed, envelope⟩ =>
      let nextRound := envelope.round + 1
      match result with
      | .inputRequired payload respondable humanRequestId brokerRef => do
          ensure (nextRound ≤ limits.maxRounds) .roundLimit
          if respondable = true then
            let broker := (brokerRef, hash.digest ⟨nextRound, payload⟩)
            manager.prepare ⟨manager.preparationOf claimed (some humanRequestId) (some broker),
              nextRecord claimed humanRequestId broker now, some nextRound⟩
          else
            manager.retire claimed .needsAttention
              ⟨.unknown, .unsafeOrUnknown, some "unsupported_input_request"⟩ now
      | .remoteTask receipt brokerRef =>
          manager.prepare ⟨manager.preparationOf claimed none (some (brokerRef, receipt)),
            { retired claimed .complete ⟨.started, .notApplicable, none⟩ now with
              broker := some (brokerRef, receipt) }, none⟩
      | .complete => manager.retire claimed .complete ⟨.started, .notApplicable, none⟩ now
  | _ => .error .notFound

/-- `commit_response_result_deferred`, or the commit of a retirement. -/
def commit [DecidableEq Digest] (manager : McpContinuationManager Payload Digest)
    (preparationId : Nat) : Except ContinuationFault (McpContinuationManager Payload Digest) :=
  match manager.plans.find? (·.preparation.preparationId = preparationId) with
  | none => .error .notFound
  | some plan => do
      match ← manager.store.commitPreparation preparationId plan.target with
      | (_, false) => .error .conflict
      | (store, true) =>
          .ok { manager with
            store := store
            history := .wrote plan.target :: ((plan.round.map Moment.opened).toList ++
              manager.history) }

/-- `cancel` once its boundary has returned. -/
def cancelled (manager : McpContinuationManager Payload Digest) (revision now : Nat) :
    McpContinuationManager Payload Digest :=
  match manager.invocation? revision with
  | some ⟨.cancel, claimed, _⟩ =>
      let ended := manager.endInvocation revision
      match ended.retire claimed .cancelled ⟨.started, .unsafeOrUnknown, none⟩ now with
      | .ok prepared => prepared
      | .error _ => ended
  | _ => manager

/-- `_mark_attention` of a caller that holds the record at `revision`. -/
def markAttention (manager : McpContinuationManager Payload Digest) (revision : Nat)
    (reason : String) (now : Nat) :
    Except ContinuationFault (McpContinuationManager Payload Digest) :=
  match manager.store.row with
  | none => .ok manager
  | some current =>
      if current.revision ≠ revision ∨ current.status = .needsAttention then .ok manager
      else manager.retire current .needsAttention ⟨.unknown, .unsafeOrUnknown, some reason⟩ now

/-- `_expire`, and `_reconcile_expired` with it. -/
def expire [DecidableEq Digest] (manager : McpContinuationManager Payload Digest)
    (record : McpContinuationRecord Digest) (now : Nat) :
    Except ContinuationFault (McpContinuationManager Payload Digest) := do
  ensure (.wrote record ∈ manager.history) .notFound
  ensure (record.status = .inputRequired ∧ record.expiresAt ≤ now) .invalidState
  manager.retire record .expired ⟨.notStarted, .notApplicable, none⟩ now

/-! ## Restart -/

/-- The process ends; the durable rows stay. -/
def crash (manager : McpContinuationManager Payload Digest) :
    McpContinuationManager Payload Digest :=
  { manager with invocations := [], plans := [] }

/-- One candidate of `reconcile_after_restart`. -/
def interrupt [DecidableEq Digest] (manager : McpContinuationManager Payload Digest)
    (record : McpContinuationRecord Digest) (now : Nat) :
    Except ContinuationFault (McpContinuationManager Payload Digest) := do
  ensure (.wrote record ∈ manager.history) .notFound
  ensure (record.status = .dispatching) .invalidState
  manager.retire record .needsAttention ⟨.unknown, .unsafeOrUnknown, none⟩ now

/-- The last query of `reconcile_after_restart`, which finds no candidate. -/
def reconciled (manager : McpContinuationManager Payload Digest) :
    Except ContinuationFault (McpContinuationManager Payload Digest) := do
  ensure (∀ current ∈ manager.store.row, current.status ≠ .dispatching) .invalidState
  .ok { manager with history := .reconciled :: manager.history }

/-- `_commit_terminal_retirement` up to its commit. -/
def prune [DecidableEq Digest] (manager : McpContinuationManager Payload Digest)
    (record : McpContinuationRecord Digest) :
    Except ContinuationFault (McpContinuationManager Payload Digest) := do
  ensure (.wrote record ∈ manager.history) .notFound
  let store ← manager.store.insertPreparation (manager.preparationOf record none none)
  .ok { manager with
    store := store
    drawn := manager.drawn + 1 }

def remove (manager : McpContinuationManager Payload Digest) (preparationId : Nat) :
    Except ContinuationFault (McpContinuationManager Payload Digest) := do
  match ← manager.store.commitTerminal preparationId with
  | (_, false) => .error .conflict
  | (store, true) =>
      .ok { manager with
        store := store
        history := .removed :: manager.history }

end McpContinuationManager

/-! ## Interleavings -/

/-- One transaction of a caller or of the boundary it called, or a crash; a boundary call of
`revision` is the one that claimed it. `get` writes only through `expire` and `markAttention`. -/
inductive ContinuationEvent (Payload Digest : Type)
  | respond (record : McpContinuationRecord Digest) (expectedRevision : Nat)
      (binding : McpContinuationBinding) (humanRequestId : String)
      (secret : Option (Envelope Payload)) (now later : Nat)
  | cancel (record : McpContinuationRecord Digest) (expectedRevision : Nat)
      (binding : McpContinuationBinding) (secret : Option (Envelope Payload)) (now later : Nat)
  | settle (revision : Nat) (result : ResponseResult Payload Digest) (now : Nat)
  | commit (preparationId : Nat)
  | notStarted (revision now : Nat)
  | boundaryEnds (revision : Nat)
  | cancelled (revision now : Nat)
  | markAttention (revision : Nat) (reason : String) (now : Nat)
  | expire (record : McpContinuationRecord Digest) (now : Nat)
  | interrupt (record : McpContinuationRecord Digest) (now : Nat)
  | reconciled
  | prune (record : McpContinuationRecord Digest)
  | remove (preparationId : Nat)
  | claimCleanup (preparationId : Nat)
  | deletePreparation (preparationId : Nat)
  | crash

/-- The call that an event may dispatch. -/
def ContinuationEvent.calls : ContinuationEvent Payload Digest → Option ContinuationCall
  | .respond .. => some .respond
  | .cancel .. => some .cancel
  | _ => none

namespace McpContinuationManager
variable [DecidableEq Digest]

def exec (hash : ContentHash Payload Digest) (limits : ContinuationLimits)
    (manager : McpContinuationManager Payload Digest) :
    ContinuationEvent Payload Digest →
      Except ContinuationFault (McpContinuationManager Payload Digest)
  | .respond record expectedRevision binding humanRequestId secret now later =>
      respond hash limits manager record expectedRevision binding humanRequestId secret now later
  | .cancel record expectedRevision binding secret now later =>
      cancel hash manager record expectedRevision binding secret now later
  | .settle revision result now => settle hash limits manager revision result now
  | .commit preparationId => manager.commit preparationId
  | .notStarted revision now => .ok (manager.notStarted revision now)
  | .boundaryEnds revision => .ok (manager.endInvocation revision)
  | .cancelled revision now => .ok (manager.cancelled revision now)
  | .markAttention revision reason now => manager.markAttention revision reason now
  | .expire record now => manager.expire record now
  | .interrupt record now => manager.interrupt record now
  | .reconciled => manager.reconciled
  | .prune record => manager.prune record
  | .remove preparationId => manager.remove preparationId
  | .claimCleanup preparationId =>
      .ok { manager with store := manager.store.claimCleanup preparationId }
  | .deletePreparation preparationId =>
      .ok { manager with store := manager.store.deletePreparation preparationId }
  | .crash => .ok manager.crash

def step (hash : ContentHash Payload Digest) (limits : ContinuationLimits) :
    McpContinuationManager Payload Digest → ContinuationEvent Payload Digest →
      McpContinuationManager Payload Digest :=
  transact (exec hash limits)

end McpContinuationManager
end AgentLibOS.Mcp
