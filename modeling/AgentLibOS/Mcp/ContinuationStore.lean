import AgentLibOS.Library.Run
import Mathlib.Order.Basic

namespace AgentLibOS.Mcp
open Library Library.Run

inductive McpContinuationStatus
  | inputRequired | dispatching | complete | cancelled | expired | needsAttention
  deriving DecidableEq, Repr

namespace McpContinuationStatus

/-- The statuses of `list_terminal_mcp_continuations`. -/
def terminal : McpContinuationStatus → Bool
  | .complete | .cancelled | .expired | .needsAttention => true
  | .inputRequired | .dispatching => false

/-- The table `allowed` of `_require_mcp_continuation_transition`. -/
def allowed : McpContinuationStatus → List McpContinuationStatus
  | .inputRequired => [.inputRequired, .dispatching, .cancelled, .expired, .needsAttention]
  | .dispatching => [.inputRequired, .complete, .cancelled, .expired, .needsAttention]
  | .needsAttention => [.needsAttention, .dispatching, .cancelled, .expired]
  | .complete | .cancelled | .expired => []

end McpContinuationStatus

/-! ## Records -/

/-- The fence that a record shares with its side effects. -/
structure McpAuthorityFence where
  serverId : String
  serverSpecSha256 : String
  serverGeneration : Nat
  ownerId : String
  authPrincipalSha256 : String
  authScopeSha256 : String
  deriving DecidableEq, Repr

structure McpContinuationBinding extends McpAuthorityFence where
  requestSha256 : String
  effectId : String
  capabilitySha256 : String
  dataFlowSha256 : String
  deriving DecidableEq, Repr

inductive DispatchState
  | notStarted | started | unknown
  deriving DecidableEq, Repr

inductive RetryClass
  | unsafeOrUnknown | reobserveRequired | notApplicable
  deriving DecidableEq, Repr

/-- `_metadata`, whose input schema digest is a function of the envelope. -/
structure ContinuationMetadata where
  dispatchState : DispatchState
  retryClass : RetryClass
  reasonCode : Option String
  deriving DecidableEq, Repr

/-- A row of `mcp_continuations`; a broker reference comes with the digest of its value. -/
structure McpContinuationRecord (Digest : Type) where
  continuationId : String
  binding : McpContinuationBinding
  humanRequestId : String
  broker : Option (String × Digest)
  status : McpContinuationStatus
  revision : Nat
  expiresAt : Nat
  metadata : ContinuationMetadata
  createdAt : Nat
  updatedAt : Nat
  deriving DecidableEq

/-- A row of `mcp_side_effect_preparations` for the operation, without its status. -/
structure Preparation (Digest : Type) where
  preparationId : Nat
  operationRevision : Nat
  fence : McpAuthorityFence
  humanRequestId : Option String
  broker : Option (String × Digest)
  retireRefs : List String
  retireHumanRequestId : Option String
  deriving DecidableEq

inductive CleanupMode
  | abort | retire
  deriving DecidableEq, Repr

inductive PreparationStatus
  | prepared
  | cleaning (mode : CleanupMode)
  deriving DecidableEq, Repr

inductive ContinuationFault
  | validation | conflict | slotReserved | bindingChanged | expired | invalidState | broker
  | roundLimit | notFound
  deriving DecidableEq, Repr

/-- The rows of one continuation. Checks against rows of other operations belong to the
environment: a call that they refuse changes nothing. -/
structure ContinuationStore (Digest : Type) where
  row : Option (McpContinuationRecord Digest)
  sidecar : Option (Preparation Digest × PreparationStatus)

namespace ContinuationStore
variable {Digest : Type}

/-! ## Compare and swap -/

/-- `_require_mcp_v7_identity` on the immutable columns. -/
def sameIdentity (current target : McpContinuationRecord Digest) : Prop :=
  target.continuationId = current.continuationId ∧ target.binding = current.binding ∧
    target.expiresAt = current.expiresAt ∧ target.createdAt = current.createdAt

instance (current target : McpContinuationRecord Digest) : Decidable (sameIdentity current target) :=
  inferInstanceAs (Decidable (_ ∧ _))

/-- `_require_mcp_continuation_transition`. -/
def requireTransition (current target : McpContinuationRecord Digest) :
    Except ContinuationFault Unit := do
  ensure (sameIdentity current target) .validation
  ensure (current.updatedAt ≤ target.updatedAt) .validation
  ensure (target.status ∈ current.status.allowed) .validation
  ensure (target.humanRequestId = current.humanRequestId ∨
    current.status = .dispatching ∧ target.status = .inputRequired) .validation

/-- `_require_mcp_preparation_slot_owner`. -/
def requireSlotOwner (store : ContinuationStore Digest) (preparationId : Option Nat) :
    Except ContinuationFault Unit :=
  ensure (∀ owner ∈ store.sidecar, some owner.1.preparationId = preparationId) .slotReserved

def compareAndSwap (store : ContinuationStore Digest) (expectedRevision : Nat)
    (replacement : McpContinuationRecord Digest) (preparationId : Option Nat) :
    Except ContinuationFault (ContinuationStore Digest × Bool) := do
  ensure (replacement.revision = expectedRevision + 1) .validation
  store.requireSlotOwner preparationId
  match store.row with
  | none => .ok (store, false)
  | some current =>
      if current.revision ≠ expectedRevision then .ok (store, false)
      else do
        requireTransition current replacement
        .ok ({ store with row := some replacement }, true)

/-! ## Side effects -/

/-- `insert_mcp_side_effect_preparation`, with the checks of the operation's own row. -/
def insertPreparation (store : ContinuationStore Digest) (preparation : Preparation Digest) :
    Except ContinuationFault (ContinuationStore Digest) := do
  ensure (store.sidecar.isNone) .validation
  match store.row with
  | none => .error .validation
  | some current => do
      ensure (current.revision = preparation.operationRevision) .validation
      ensure (current.status ∈ [.complete, .cancelled, .expired] →
        preparation.humanRequestId = none ∧ preparation.broker = none) .validation
      ensure (preparation.fence = current.binding.toMcpAuthorityFence) .validation
      ensure (preparation.humanRequestId ≠ some current.humanRequestId) .slotReserved
      ensure (∀ slot ∈ preparation.broker, ∀ used ∈ current.broker, slot.1 ≠ used.1) .slotReserved
      .ok { store with sidecar := some (preparation, .prepared) }

/-- `_require_mcp_side_effect_commit_binding` of an operation that has a row, with
`_mcp_side_effect_retire_refs`. -/
def requireCommitBinding [DecidableEq Digest] (preparation : Preparation Digest)
    (current replacement : McpContinuationRecord Digest) : Except ContinuationFault Unit := do
  ensure (preparation.fence = replacement.binding.toMcpAuthorityFence) .validation
  ensure (replacement.revision = preparation.operationRevision + 1) .validation
  ensure (preparation.fence = current.binding.toMcpAuthorityFence) .validation
  ensure (preparation.humanRequestId =
    if replacement.humanRequestId ≠ current.humanRequestId then some replacement.humanRequestId
    else none) .validation
  ensure (preparation.retireHumanRequestId =
    if current.humanRequestId ≠ replacement.humanRequestId ∨ replacement.status.terminal = true then
      some current.humanRequestId
    else none) .validation
  ensure (preparation.broker =
    if replacement.broker ≠ current.broker then replacement.broker else none) .validation
  ensure (preparation.retireRefs =
    (current.broker.map Prod.fst).toList.filter (some · ≠ replacement.broker.map Prod.fst))
    .validation

/-- `commit_mcp_side_effect_preparation`. -/
def commitPreparation [DecidableEq Digest] (store : ContinuationStore Digest)
    (preparationId : Nat) (replacement : McpContinuationRecord Digest) :
    Except ContinuationFault (ContinuationStore Digest × Bool) :=
  match store.sidecar, store.row with
  | some (preparation, .prepared), some current =>
      if preparation.preparationId ≠ preparationId ∨
          current.revision ≠ preparation.operationRevision then .ok (store, false)
      else do
        requireCommitBinding preparation current replacement
        match ← store.compareAndSwap preparation.operationRevision replacement
            (some preparationId) with
        | (_, false) => .ok (store, false)
        | (swapped, true) =>
            .ok ({ swapped with sidecar := some (preparation, .cleaning .retire) }, true)
  | _, _ => .ok (store, false)

/-- `commit_terminal_mcp_side_effect_preparation`. -/
def commitTerminal (store : ContinuationStore Digest) (preparationId : Nat) :
    Except ContinuationFault (ContinuationStore Digest × Bool) :=
  match store.sidecar, store.row with
  | some (preparation, .prepared), some current =>
      if preparation.preparationId ≠ preparationId ∨
          current.revision ≠ preparation.operationRevision then .ok (store, false)
      else do
        ensure (preparation.fence = current.binding.toMcpAuthorityFence) .validation
        ensure (preparation.humanRequestId = none ∧ preparation.broker = none ∧
          preparation.retireRefs = (current.broker.map Prod.fst).toList ∧
          preparation.retireHumanRequestId = some current.humanRequestId) .validation
        ensure (current.status.terminal = true) .validation
        .ok (⟨none, some (preparation, .cleaning .retire)⟩, true)
  | _, _ => .ok (store, false)

/-- The claim of `cleanup_mcp_preparation`. -/
def claimCleanup (store : ContinuationStore Digest) (preparationId : Nat) :
    ContinuationStore Digest :=
  match store.sidecar with
  | some (preparation, .prepared) =>
      if preparation.preparationId = preparationId then
        { store with sidecar := some (preparation, .cleaning .abort) }
      else store
  | _ => store

/-- `delete_mcp_side_effect_preparation`. -/
def deletePreparation (store : ContinuationStore Digest) (preparationId : Nat) :
    ContinuationStore Digest :=
  match store.sidecar with
  | some (preparation, .cleaning _) =>
      if preparation.preparationId = preparationId then { store with sidecar := none } else store
  | _ => store

/-! ## What a successful write has checked -/

theorem compareAndSwap_ok {store store' : ContinuationStore Digest} {expectedRevision : Nat}
    {replacement : McpContinuationRecord Digest} {preparationId : Option Nat}
    (done : store.compareAndSwap expectedRevision replacement preparationId = .ok (store', true)) :
    ∃ current, store.row = some current ∧ current.revision = expectedRevision ∧
      replacement.revision = expectedRevision + 1 ∧
      sameIdentity current replacement ∧ replacement.status ∈ current.status.allowed ∧
      store' = { store with row := some replacement } := by
  simp only [compareAndSwap, bind_eq_ok, ensure_ok, exists_const] at done
  obtain ⟨revision, _, _, done⟩ := done
  split at done
  · cases done
  · rename_i current found
    split_ifs at done with same
    · cases done
    · simp only [requireTransition, bind_eq_ok, ensure_ok, exists_const] at done
      obtain ⟨⟨identity, _, allowed, _⟩, done⟩ := done
      cases done
      exact ⟨current, found, not_not.mp same, revision, identity, allowed, rfl⟩

theorem commitPreparation_ok [DecidableEq Digest] {store store' : ContinuationStore Digest}
    {preparationId : Nat} {replacement : McpContinuationRecord Digest}
    (done : store.commitPreparation preparationId replacement = .ok (store', true)) :
    ∃ preparation current, store.sidecar = some (preparation, .prepared) ∧
      preparation.preparationId = preparationId ∧ store.row = some current ∧
      current.revision = preparation.operationRevision ∧
      requireCommitBinding preparation current replacement = .ok () ∧
      sameIdentity current replacement ∧ replacement.status ∈ current.status.allowed ∧
      store' = ⟨some replacement, some (preparation, .cleaning .retire)⟩ := by
  unfold commitPreparation at done
  split at done
  · rename_i preparation current planned found
    split_ifs at done with other
    · cases done
    · obtain ⟨same, revision⟩ := not_or.mp other
      obtain ⟨⟨⟩, bound, done⟩ := bind_eq_ok.mp done
      obtain ⟨⟨swapped, written⟩, swap, done⟩ := bind_eq_ok.mp done
      cases written with
      | false => cases done
      | true =>
          cases done
          obtain ⟨current', found', _, _, identity, allowed, rfl⟩ := compareAndSwap_ok swap
          rw [found] at found'
          cases found'
          exact ⟨preparation, current, planned, not_not.mp same, found, not_not.mp revision, bound,
            identity, allowed, rfl⟩
  · cases done

theorem commitTerminal_ok {store store' : ContinuationStore Digest} {preparationId : Nat}
    (done : store.commitTerminal preparationId = .ok (store', true)) :
    ∃ preparation current, store.sidecar = some (preparation, .prepared) ∧
      store.row = some current ∧ current.status.terminal = true ∧
      store' = ⟨none, some (preparation, .cleaning .retire)⟩ := by
  unfold commitTerminal at done
  split at done
  · rename_i preparation current planned found
    split_ifs at done with other
    · cases done
    · simp only [bind_eq_ok, ensure_ok, exists_const] at done
      obtain ⟨_, _, terminal, done⟩ := done
      cases done
      exact ⟨preparation, current, planned, found, terminal, rfl⟩
  · cases done

theorem insertPreparation_ok {store store' : ContinuationStore Digest}
    {preparation : Preparation Digest}
    (done : store.insertPreparation preparation = .ok store') :
    store' = { store with sidecar := some (preparation, .prepared) } ∧
      ∃ current, store.row = some current ∧
        current.revision = preparation.operationRevision := by
  simp only [insertPreparation, bind_eq_ok, ensure_ok, exists_const] at done
  obtain ⟨_, done⟩ := done
  split at done
  · cases done
  · rename_i current found
    simp only [bind_eq_ok, ensure_ok, exists_const] at done
    obtain ⟨revision, _, _, _, _, done⟩ := done
    cases done
    exact ⟨rfl, current, found, revision⟩

end ContinuationStore
end AgentLibOS.Mcp
