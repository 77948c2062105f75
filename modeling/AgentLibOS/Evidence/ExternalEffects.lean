import AgentLibOS.Capability.Value
import AgentLibOS.Effects.Store
import AgentLibOS.Library.Run
import AgentLibOS.Library.Table

namespace AgentLibOS.Evidence
open Library Library.Run Capability Effects

/-- `{**entries, key: value}`. -/
def assign (entries : Dict) (key : String) (value : Value) : Dict :=
  (key, value) :: entries.filter (·.1 != key)

inductive RollbackClass
  | irreversible | rollbackable | noRollbackRequired | unknown
  deriving DecidableEq, Repr

inductive RollbackStatus
  | notSupported | notApplied | notRequired | unknown
  deriving DecidableEq, Repr

/-- What a provider call is about. -/
structure EffectBoundary where
  pid : String
  provider : String
  operation : String
  target : Option String
  deriving DecidableEq, Repr

structure ExternalEffectClassification where
  rollbackClass : RollbackClass
  rollbackStatus : RollbackStatus
  stateMutation : Bool
  informationFlow : Bool
  deriving DecidableEq, Repr

/-- `fullPayload` is whether the retention tier of the payloads is still full. -/
structure ExternalEffectRecord where
  effectId : String
  recordId : Option String
  eventId : Option String
  boundary : EffectBoundary
  classification : ExternalEffectClassification
  providerMetadata : Dict
  createdAt : String
  effectState : EffectState
  transactionState : TransactionState
  canonicalArgsHash : Option String
  idempotencyKey : Option String
  providerReceipt : Dict
  updatedAt : String
  fullPayload : Bool

/-- A row of `external_effect_transitions`. -/
structure EffectTransition where
  seq : Nat
  effectId : String
  effectState : EffectState
  transactionState : TransactionState
  occurredAt : String
  deriving DecidableEq, Repr

/-- `ledgerSeq` is the `external_effect_ledger` counter; transitions are newest first. -/
structure EffectStore where
  effects : Table String ExternalEffectRecord
  ledgerSeq : Nat
  transitions : List EffectTransition

inductive EffectFault
  | validation | integrity
  deriving DecidableEq, Repr

/-! ## Records -/

/-- The record of `prepare_external_effect_intent`. -/
def intentRecord (effectId : String) (boundary : EffectBoundary) (stateMutation : Bool)
    (informationFlow : Bool) (metadata : Dict) (argsHash idempotencyKey now : String) :
    ExternalEffectRecord where
  effectId := effectId
  recordId := none
  eventId := none
  boundary := boundary
  classification := ⟨.unknown, .unknown, stateMutation, informationFlow⟩
  providerMetadata := assign (assign metadata "effect_state" (.str "pending")) "outcome"
    (.str "unknown_after_provider_boundary")
  createdAt := now
  effectState := .pending
  transactionState := .prepared
  canonicalArgsHash := some argsHash
  idempotencyKey := some idempotencyKey
  providerReceipt := []
  updatedAt := now
  fullPayload := true

/-- An explicitly unknown outcome leaves the transaction unknown, a failed one is no commit. -/
def outcomeState (metadata : Dict) : TransactionState :=
  match metadata.get "outcome" with
  | .str outcome =>
      if "unknown".toList <+: outcome.toList then .unknown
      else if outcome = "failed" then .failed
      else .committed
  | _ => .committed

def receiptOf (metadata : Dict) : Dict :=
  match metadata.get "provider_receipt" with
  | .dict receipt => receipt
  | _ => []

/-- What `record_external_effect` is told about an outcome. -/
structure EffectOutcome where
  recordId : Option String
  eventId : Option String
  boundary : EffectBoundary
  classification : ExternalEffectClassification
  metadata : Dict

/-- The record of `record_external_effect`; `intent` is the row it read before. -/
def EffectOutcome.finalRecord (outcome : EffectOutcome) (effectId : String)
    (intent : Option ExternalEffectRecord) (now : String) : ExternalEffectRecord where
  effectId := effectId
  recordId := outcome.recordId
  eventId := outcome.eventId
  boundary := outcome.boundary
  classification := outcome.classification
  providerMetadata := assign outcome.metadata "effect_state" (.str "finalized")
  createdAt := now
  effectState := .finalized
  transactionState := outcomeState outcome.metadata
  canonicalArgsHash := intent.bind (·.canonicalArgsHash)
  idempotencyKey := intent.bind (·.idempotencyKey)
  providerReceipt := receiptOf outcome.metadata
  updatedAt := now
  fullPayload := true

inductive ProviderState
  | committed | failed | compensated | notStarted
  deriving DecidableEq, Repr

def ProviderState.settled : ProviderState → TransactionState
  | .committed => .committed
  | .failed | .notStarted => .failed
  | .compensated => .compensated

namespace EffectStore

def empty : EffectStore := ⟨.empty, 0, []⟩

/-! ## Store operations -/

/-- `_append_external_effect_transition` after the write of the row. -/
def writeEffect (store : EffectStore) (record : ExternalEffectRecord) (occurredAt : String) :
    EffectStore where
  effects := store.effects.set record.effectId record
  ledgerSeq := store.ledgerSeq + 1
  transitions := ⟨store.ledgerSeq + 1, record.effectId, record.effectState,
    record.transactionState, occurredAt⟩ :: store.transitions

/-- The unique index on `(pid, idempotency_key)` admits the record. -/
def keyFree (store : EffectStore) (record : ExternalEffectRecord) : Prop :=
  ∀ id ∈ store.effects.keys, id ≠ record.effectId → ∀ other ∈ store.effects.get id,
    other.boundary.pid = record.boundary.pid → record.idempotencyKey.isSome = true →
      other.idempotencyKey ≠ record.idempotencyKey

instance (store : EffectStore) (record : ExternalEffectRecord) : Decidable (store.keyFree record) :=
  inferInstanceAs (Decidable (∀ id ∈ store.effects.keys, _ → ∀ _ ∈ store.effects.get id, _))

def insertExternalEffect (store : EffectStore) (record : ExternalEffectRecord) :
    Except EffectFault EffectStore := do
  ensure (record.fullPayload = true) .validation
  ensure ((store.effects.get record.effectId).isNone = true ∧ store.keyFree record) .integrity
  .ok (store.writeEffect record record.updatedAt)

/-- The row that an intent still is before its provider call is finalised or abandoned. -/
def untouchedIntent (row : ExternalEffectRecord) : Prop :=
  row.recordId = none ∧ row.eventId = none ∧ row.classification.rollbackClass = .unknown ∧
    row.classification.rollbackStatus = .unknown ∧ row.effectState = .pending

instance (row : ExternalEffectRecord) : Decidable (untouchedIntent row) :=
  inferInstanceAs (Decidable (_ ∧ _))

def finalizeExternalEffect (store : EffectStore) (record : ExternalEffectRecord) :
    Except EffectFault (EffectStore × Bool) := do
  ensure (record.effectState = .finalized) .validation
  ensure (record.fullPayload = true) .validation
  match store.effects.get record.effectId with
  | none => .ok (store, false)
  | some row =>
      if row.boundary = record.boundary ∧ untouchedIntent row then do
        ensure (store.keyFree record) .integrity
        .ok (store.writeEffect record record.updatedAt, true)
      else .ok (store, false)

def transitionExternalEffect (store : EffectStore) (effectId : String)
    (expectedStates : List TransactionState) (transactionState : TransactionState)
    (providerMetadata providerReceipt : Option Dict) (updatedAt : String) :
    Except EffectFault (EffectStore × Bool) :=
  match store.effects.get effectId with
  | none => .ok (store, false)
  | some current =>
      if current.transactionState ∈ expectedStates then do
        ensure (current.fullPayload = true) .validation
        .ok (store.writeEffect
          { current with
            effectId := effectId
            transactionState := transactionState
            providerMetadata := providerMetadata.getD current.providerMetadata
            providerReceipt := providerReceipt.getD current.providerReceipt
            updatedAt := updatedAt } updatedAt, true)
      else .ok (store, false)

/-- `_require_external_effect_globally_not_started`. -/
def globallyNotStarted (metadata : Dict) : Bool :=
  match metadata.get "completed_provider_phases" with
  | .list phases => phases.all fun
      | .dict phase => !(Dict.get phase "state_mutation").truthy &&
          !(Dict.get phase "information_flow").truthy &&
          !(Dict.get phase "commits_authority").truthy
      | _ => false
  | phases => !phases.truthy

/-- `converges` is whether the TaskRun fence holds and the reservations of the effect can be
settled; otherwise the transaction ends without a change. -/
def settleExternalEffectRecovery (store : EffectStore) (effectId : String)
    (expected : TransactionState) (providerState : ProviderState)
    (providerMetadata providerReceipt : Dict) (auditId updatedAt : String) (converges : Bool) :
    Except EffectFault (EffectStore × Bool) := do
  ensure (expected ∈ [.prepared, .authorized, .approved, .dispatched, .unknown]) .validation
  ensure (expected = .prepared → providerState = .notStarted) .validation
  ensure (providerReceipt ≠ []) .validation
  match store.effects.get effectId with
  | none => .ok (store, false)
  | some current =>
      if current.effectState = .pending ∧ current.transactionState = expected then do
        ensure (current.fullPayload = true) .validation
        ensure (providerState = .notStarted →
          globallyNotStarted current.providerMetadata = true) .validation
        ensure (converges = true) .validation
        .ok (store.writeEffect
          { current with
            effectId := effectId
            recordId := current.recordId <|> some auditId
            effectState := .finalized
            transactionState := providerState.settled
            providerMetadata := providerMetadata
            providerReceipt := providerReceipt
            idempotencyKey := if providerState = .notStarted then none else current.idempotencyKey
            updatedAt := updatedAt } updatedAt, true)
      else .ok (store, false)

def abandonExternalEffectIntent (store : EffectStore) (effectId : String) : EffectStore :=
  match store.effects.get effectId with
  | none => store
  | some row =>
      if untouchedIntent row then
        { store with effects := store.effects.restrict (· != effectId) }
      else store

end EffectStore

/-! ## Writers -/

/-- The states from which `unknown` may be entered. -/
def unsettledStates : List TransactionState :=
  [.prepared, .authorized, .approved, .dispatched, .unknown]

/-- One store transaction of a writer. `seen` is the row that the writer read in an earlier one,
and `metadata` of a phase is what the writer computed from such a row. -/
inductive EffectWrite
  | prepare (effectId : String) (boundary : EffectBoundary) (stateMutation informationFlow : Bool)
      (metadata : Dict) (argsHash idempotencyKey now : String)
  | record (effectId : String) (outcome : EffectOutcome) (now : String)
  | finalize (effectId : String) (outcome : EffectOutcome) (seen : Option ExternalEffectRecord)
      (now : String)
  | markDispatched (effectId : String) (seen : ExternalEffectRecord) (now : String)
  | recordPhase (effectId : String) (metadata : Dict) (now : String)
  | markUnknown (effectId : String) (seen : ExternalEffectRecord) (reason : String)
      (receipt : Option Dict) (now : String)
  | reconcileUnknown (effectId : String) (seen : ExternalEffectRecord) (receipt : Option Dict)
      (now : String)
  | settle (effectId : String) (expected : TransactionState) (providerState : ProviderState)
      (metadata receipt : Dict) (auditId now : String) (converges : Bool)
  | abandon (effectId : String)

namespace EffectStore

/-- A write of `unknown`, unless the row that was seen says the same already. -/
def becomeUnknown (store : EffectStore) (effectId : String) (seen : ExternalEffectRecord)
    (metadata receipt : Dict) (now : String) : Except EffectFault EffectStore :=
  if seen.transactionState = .unknown ∧
      Value.eq (.dict seen.providerMetadata) (.dict metadata) = true ∧
      Value.eq (.dict seen.providerReceipt) (.dict receipt) = true then
    .ok store
  else
    (store.transitionExternalEffect effectId unsettledStates .unknown (some metadata)
      (some receipt) now).map Prod.fst

def exec (store : EffectStore) : EffectWrite → Except EffectFault EffectStore
  | .prepare effectId boundary stateMutation informationFlow metadata argsHash key now =>
      store.insertExternalEffect
        (intentRecord effectId boundary stateMutation informationFlow metadata argsHash key now)
  | .record effectId outcome now =>
      store.insertExternalEffect (outcome.finalRecord effectId none now)
  | .finalize effectId outcome seen now =>
      (store.finalizeExternalEffect (outcome.finalRecord effectId seen now)).map Prod.fst
  | .markDispatched effectId seen now =>
      (store.transitionExternalEffect effectId [.prepared, .authorized, .approved] .dispatched
        (some (assign seen.providerMetadata "transaction_state" (.str "dispatched"))) none
        now).map Prod.fst
  | .recordPhase effectId metadata now =>
      (store.transitionExternalEffect effectId [.dispatched] .dispatched (some metadata) none
        now).map Prod.fst
  | .markUnknown effectId seen reason receipt now =>
      store.becomeUnknown effectId seen
        (assign (assign (assign seen.providerMetadata "outcome" (.str "unknown"))
          "reconciliation_reason" (.str reason)) "transaction_state" (.str "unknown"))
        (receipt.getD seen.providerReceipt) now
  | .reconcileUnknown effectId seen receipt now =>
      store.becomeUnknown effectId seen
        (assign (assign (assign seen.providerMetadata "reconciled" (.bool true))
          "transaction_state" (.str "unknown")) "outcome" (.str "unknown"))
        (receipt.getD []) now
  | .settle effectId expected providerState metadata receipt auditId now converges =>
      (store.settleExternalEffectRecovery effectId expected providerState metadata receipt auditId
        now converges).map Prod.fst
  | .abandon effectId => .ok (store.abandonExternalEffectIntent effectId)

def step : EffectStore → EffectWrite → EffectStore := transact exec

end EffectStore
end AgentLibOS.Evidence
