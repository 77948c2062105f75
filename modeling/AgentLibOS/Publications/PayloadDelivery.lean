import AgentLibOS.Library.Run
import AgentLibOS.Library.Table
import AgentLibOS.Processes.Store

namespace AgentLibOS.Publications
open Library Library.Run Processes

inductive RuntimePublicationKind
  | processLaunch | processExec | checkpointRestore
  deriving DecidableEq, Repr

inductive PayloadDeliveryState
  | pending | confirmed | completed
  deriving DecidableEq, Repr

/-- Its state carries an attempt. -/
def PayloadDeliveryState.assigned : PayloadDeliveryState → Bool
  | .pending => false
  | .confirmed | .completed => true

inductive AttemptState
  | preparing | acked | aborted
  deriving DecidableEq, Repr

/-- The token of one startup delivery attempt. -/
structure CheckpointPayloadDeliveryAttempt where
  startedAt : String
  attemptId : String
  ownerInstanceId : String
  filled : startedAt ≠ "" ∧ attemptId ≠ "" ∧ ownerInstanceId ≠ ""
  deriving DecidableEq

/-! ## Publications -/

/-- The delivery columns, and what the receipt records about the delivery. -/
structure PayloadDelivery where
  state : Option PayloadDeliveryState
  attemptId : Option String
  startedAt : Option String
  receiptState : Option PayloadDeliveryState
  receiptAttempt : Option (String × String)
  deriving DecidableEq

/-- `_validate_payload_delivery_projection`, with the `CHECK` clauses of the columns; `deliverable`
is whether the publication is a committed and reconciled checkpoint restore. -/
def PayloadDelivery.valid (delivery : PayloadDelivery) (deliverable : Bool) : Bool :=
  match delivery.state with
  | none => delivery.receiptState.isNone && delivery.receiptAttempt.isNone &&
      delivery.attemptId.isNone && delivery.startedAt.isNone
  | some state => delivery.receiptState == some state && deliverable &&
      match delivery.attemptId, delivery.startedAt with
      | none, none => !state.assigned && delivery.receiptAttempt.isNone
      | some attemptId, some startedAt =>
          state.assigned && delivery.receiptAttempt == some (attemptId, startedAt)
      | _, _ => false

/-- `receipt["recovery"]`, as far as delivery reads it. -/
structure RecoveryReceipt where
  terminal : Bool
  leaseId : Option String
  deriving DecidableEq, Repr

structure RuntimePublication where
  kind : RuntimePublicationKind
  state : PublicationState
  phase : String
  ownerInstanceId : String
  operationReconciled : Bool
  recovery : Option RecoveryReceipt
  delivery : PayloadDelivery
  projection : delivery.valid (decide (kind = .checkpointRestore ∧ state = .committed ∧
    phase = "reconciled")) = true

namespace RuntimePublication

def deliverable (publication : RuntimePublication) : Bool :=
  decide (publication.kind = .checkpointRestore ∧ publication.state = .committed ∧
    publication.phase = "reconciled")

def carries (publication : RuntimePublication) (attemptId : String) : Prop :=
  publication.delivery.attemptId = some attemptId

instance (publication : RuntimePublication) (attemptId : String) :
    Decidable (publication.carries attemptId) := inferInstanceAs (Decidable (_ = _))

end RuntimePublication

/-! ## Transition requests -/

structure DeliveryRequest where
  expectedState : Option PayloadDeliveryState
  deliveryState : PayloadDeliveryState
  expectedAttempt : Option CheckpointPayloadDeliveryAttempt
  deliveryAttempt : Option CheckpointPayloadDeliveryAttempt
  ownerInstanceId : Option String
  recoveryLeaseId : Option String

inductive DeliveryFault
  | validation | integrity
  deriving DecidableEq, Repr

namespace DeliveryRequest

def transitions : List (Option PayloadDeliveryState × PayloadDeliveryState) :=
  [(none, .pending), (some .pending, .pending), (some .pending, .confirmed),
    (some .confirmed, .pending), (some .confirmed, .completed), (some .completed, .pending)]

/-- `_validate_payload_delivery_transition_request`. -/
def validate (request : DeliveryRequest) : Except DeliveryFault Unit := do
  ensure ((request.expectedState, request.deliveryState) ∈ transitions) .validation
  ensure (request.expectedState = none ∨ request.recoveryLeaseId = none) .validation
  ensure (request.ownerInstanceId ≠ some "") .validation
  ensure (request.deliveryState = .confirmed → request.deliveryAttempt ≠ none) .validation
  ensure (request.deliveryState = .completed → request.deliveryAttempt ≠ none ∧
    request.deliveryAttempt = request.expectedAttempt) .validation
  ensure (request.expectedState.any (·.assigned) → request.deliveryState = .pending →
    request.expectedAttempt ≠ none ∧ request.deliveryAttempt = none) .validation
  ensure (request.expectedState = none → request.deliveryAttempt = none) .validation

/-- `_payload_delivery_source_matches`. -/
def sourceMatches (request : DeliveryRequest) (publication : RuntimePublication) : Prop :=
  publication.deliverable = true ∧ publication.delivery.state = request.expectedState ∧
    publication.delivery.attemptId = request.expectedAttempt.map (·.attemptId) ∧
    publication.delivery.startedAt = request.expectedAttempt.map (·.startedAt)

instance (request : DeliveryRequest) (publication : RuntimePublication) :
    Decidable (request.sourceMatches publication) := inferInstanceAs (Decidable (_ ∧ _))

/-- `_initial_payload_delivery_recovery_matches`. -/
def recoveryMatches (request : DeliveryRequest) (publication : RuntimePublication) : Prop :=
  request.expectedState = none → publication.recovery.any (fun recovery =>
    recovery.terminal && request.recoveryLeaseId.any (· ≠ "") &&
      recovery.leaseId == request.recoveryLeaseId) = true

instance (request : DeliveryRequest) (publication : RuntimePublication) :
    Decidable (request.recoveryMatches publication) := inferInstanceAs (Decidable (_ → _))

/-- `_payload_delivery_receipt_target`, with its projection. -/
def deliveryTarget (request : DeliveryRequest) : PayloadDelivery where
  state := some request.deliveryState
  attemptId := request.deliveryAttempt.map (·.attemptId)
  startedAt := request.deliveryAttempt.map (·.startedAt)
  receiptState := some request.deliveryState
  receiptAttempt := request.deliveryAttempt.map fun attempt => (attempt.attemptId, attempt.startedAt)

/-- `_payload_delivery_owner_target`. -/
def ownerTarget (request : DeliveryRequest) (publication : RuntimePublication) :
    Except DeliveryFault (Option String) :=
  let selected := request.ownerInstanceId.getD publication.ownerInstanceId
  if request.deliveryState.assigned = true ∧
      request.deliveryAttempt.map (·.ownerInstanceId) ≠ some selected then
    .error .validation
  else if request.expectedState.any (·.assigned) = true ∧
      request.expectedAttempt.map (·.ownerInstanceId) ≠ some publication.ownerInstanceId then
    .ok none
  else .ok (some selected)

/-- The attempt whose control row fences the update. -/
def controlAttempt (request : DeliveryRequest) : Option CheckpointPayloadDeliveryAttempt :=
  request.expectedAttempt <|> request.deliveryAttempt

end DeliveryRequest

/-! ## The store -/

/-- A row of `checkpoint_payload_delivery_attempts`. -/
structure AttemptRow where
  ownerInstanceId : String
  state : AttemptState
  startedAt : String
  ackedAt : Option String
  deriving DecidableEq, Repr

structure DeliveryStore where
  publications : Table String RuntimePublication
  attempts : Table String AttemptRow

namespace DeliveryStore

/-- The row is the one of the attempt and still `preparing`. -/
def preparing (store : DeliveryStore) (attempt : CheckpointPayloadDeliveryAttempt) : Prop :=
  ∃ row ∈ store.attempts.get attempt.attemptId, row.ownerInstanceId = attempt.ownerInstanceId ∧
    row.startedAt = attempt.startedAt ∧ row.state = .preparing

instance (store : DeliveryStore) (attempt : CheckpointPayloadDeliveryAttempt) :
    Decidable (store.preparing attempt) :=
  inferInstanceAs (Decidable (∃ _ ∈ store.attempts.get attempt.attemptId, _))

/-- Some or every publication that carries the attempt. -/
def someCarrier (store : DeliveryStore) (attemptId : String) (test : RuntimePublication → Bool) :
    Prop :=
  ∃ id ∈ store.publications.keys, ∃ publication ∈ store.publications.get id,
    publication.deliverable = true ∧ publication.carries attemptId ∧ test publication = true

instance (store : DeliveryStore) (attemptId : String) (test : RuntimePublication → Bool) :
    Decidable (store.someCarrier attemptId test) :=
  inferInstanceAs (Decidable (∃ id ∈ store.publications.keys, ∃ _ ∈ store.publications.get id, _))

/-- The index on `state` admits one attempt that is `preparing`. -/
def beginAttempt (store : DeliveryStore) (attempt : CheckpointPayloadDeliveryAttempt) :
    DeliveryStore × Bool :=
  if (store.attempts.get attempt.attemptId).isSome = true ∨
      ∃ id ∈ store.attempts.keys, ∃ row ∈ store.attempts.get id, row.state = .preparing then
    (store, false)
  else
    ({ store with
      attempts := store.attempts.set attempt.attemptId
        ⟨attempt.ownerInstanceId, .preparing, attempt.startedAt, none⟩ }, true)

def ackAttempt (store : DeliveryStore) (attempt : CheckpointPayloadDeliveryAttempt) (now : String) :
    DeliveryStore × Bool :=
  let completed (publication : RuntimePublication) : Bool :=
    publication.delivery.state == some .completed
  if store.preparing attempt ∧
      store.someCarrier attempt.attemptId (fun publication => completed publication &&
        publication.ownerInstanceId == attempt.ownerInstanceId &&
        publication.operationReconciled) ∧
      ¬ store.someCarrier attempt.attemptId (fun publication =>
        publication.delivery.state == some .confirmed) ∧
      ¬ store.someCarrier attempt.attemptId (fun publication => completed publication &&
        publication.ownerInstanceId == attempt.ownerInstanceId &&
        !publication.operationReconciled) ∧
      ¬ store.someCarrier attempt.attemptId (fun publication => completed publication &&
        decide (publication.ownerInstanceId < attempt.ownerInstanceId)) ∧
      ¬ store.someCarrier attempt.attemptId (fun publication => completed publication &&
        decide (attempt.ownerInstanceId < publication.ownerInstanceId)) then
    ({ store with
      attempts := store.attempts.set attempt.attemptId
        ⟨attempt.ownerInstanceId, .acked, attempt.startedAt, some now⟩ }, true)
  else (store, false)

def abortAttempt (store : DeliveryStore) (attempt : CheckpointPayloadDeliveryAttempt) :
    DeliveryStore × Bool :=
  if store.preparing attempt ∧ ¬ store.someCarrier attempt.attemptId (fun _ => true) then
    ({ store with
      attempts := store.attempts.set attempt.attemptId
        ⟨attempt.ownerInstanceId, .aborted, attempt.startedAt, none⟩ }, true)
  else (store, false)

/-- The update writes the columns that it has just read in the same transaction, so only the
control row is left to compare. -/
def applyTransition (store : DeliveryStore) (publicationId : String)
    (publication : RuntimePublication) (request : DeliveryRequest) (owner : String) :
    Except DeliveryFault (DeliveryStore × Bool) :=
  if ∀ attempt ∈ request.controlAttempt, store.preparing attempt then
    if projection : request.deliveryTarget.valid publication.deliverable = true then
      .ok ({ store with
        publications := store.publications.set publicationId { publication with
          ownerInstanceId := owner
          delivery := request.deliveryTarget
          projection := projection } }, true)
    else .error .integrity
  else .ok (store, false)

def transitionPayloadDelivery (store : DeliveryStore) (publicationId : String)
    (request : DeliveryRequest) : Except DeliveryFault (DeliveryStore × Bool) := do
  request.validate
  match store.publications.get publicationId with
  | none => .ok (store, false)
  | some publication =>
      if request.sourceMatches publication ∧ request.recoveryMatches publication then do
        match ← request.ownerTarget publication with
        | none => .ok (store, false)
        | some owner => store.applyTransition publicationId publication request owner
      else .ok (store, false)

end DeliveryStore

inductive DeliveryCall
  | beginAttempt (attempt : CheckpointPayloadDeliveryAttempt)
  | ackAttempt (attempt : CheckpointPayloadDeliveryAttempt) (now : String)
  | abortAttempt (attempt : CheckpointPayloadDeliveryAttempt)
  | transition (publicationId : String) (request : DeliveryRequest)

namespace DeliveryStore

def exec (store : DeliveryStore) : DeliveryCall → Except DeliveryFault DeliveryStore
  | .beginAttempt attempt => .ok (store.beginAttempt attempt).1
  | .ackAttempt attempt now => .ok (store.ackAttempt attempt now).1
  | .abortAttempt attempt => .ok (store.abortAttempt attempt).1
  | .transition publicationId request =>
      (store.transitionPayloadDelivery publicationId request).map Prod.fst

def step : DeliveryStore → DeliveryCall → DeliveryStore := transact exec

end DeliveryStore
end AgentLibOS.Publications
