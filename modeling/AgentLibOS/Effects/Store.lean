import AgentLibOS.Capability.Store
import AgentLibOS.Library.JoinFold
import AgentLibOS.Library.Program
import Mathlib

namespace AgentLibOS.Effects
open Library Library.JoinFold Capability

/-- Whether state is mutated and whether information flows. -/
abbrev EffectFlags := Bool × Bool

instance : SemilatticeSup EffectFlags where
  sup left right := (left.1 || right.1, left.2 || right.2)
  le_sup_left := by decide
  le_sup_right := by decide
  sup_le := by decide

structure ProviderPhase where
  name : String
  stateMutation : Bool
  informationFlow : Bool
  commitsAuthority : Bool
  deriving DecidableEq, Repr

namespace ProviderPhase

def flags (phase : ProviderPhase) : EffectFlags := (phase.stateMutation, phase.informationFlow)

def effectful (phase : ProviderPhase) : Bool :=
  phase.stateMutation || phase.informationFlow || phase.commitsAuthority

end ProviderPhase

/-- The flags of `start` and of all phases. -/
def phaseFlags (start : EffectFlags) (phases : List ProviderPhase) : EffectFlags :=
  joinAll start (phases.map ProviderPhase.flags)

/-! ## Rows -/

inductive EffectState
  | pending | finalized
  deriving DecidableEq, Repr

inductive TransactionState
  | prepared | authorized | approved | dispatched | unknown | committed | failed | compensated
  deriving DecidableEq, Repr

/-- `provider_metadata["protected_operation"]`. -/
structure ProtectedEvidence where
  contractName : String
  actor : String
  reservationIds : List String
  deriving DecidableEq, Repr

structure EffectRow where
  flags : EffectFlags
  effectState : EffectState
  transactionState : TransactionState
  protectedOperation : Option ProtectedEvidence
  completedPhases : List ProviderPhase
  activePhase : Option ProviderPhase
  idempotencyKey : Option String
  deriving DecidableEq, Repr

/-- A row of `capability_use_reservations`; its count is one. -/
structure Reservation where
  capId : String
  status : ReservationStatus
  reservedBy : String
  reason : String
  deriving DecidableEq, Repr

inductive EnvelopeStatus
  | active | settled | released | chargedMaximum
  deriving DecidableEq, Repr

structure LedgerEntry where
  effectState : EffectState
  transactionState : TransactionState
  deriving DecidableEq, Repr

inductive AuditAction
  | operationEvidence | recoverySettled
  deriving DecidableEq, Repr

/-! ## What happened at the provider -/

inductive PhaseOutcome
  | returned | raised | certifiedNotStarted
  deriving DecidableEq, Repr

/-- One invocation of a provider function; a running one has no outcome. -/
structure PhaseRun where
  phase : ProviderPhase
  outcome : Option PhaseOutcome
  deriving DecidableEq, Repr

namespace PhaseRun

def certified (run : PhaseRun) : Bool := run.outcome == some .certifiedNotStarted

/-- The phase may have had an effect. -/
def spent (run : PhaseRun) : Bool := run.phase.effectful && !run.certified

/-- The phase ended without a certificate and had an effect or failed. -/
def touched (run : PhaseRun) : Bool :=
  run.outcome == some .raised || run.outcome == some .returned && run.phase.effectful

end PhaseRun

/-- The invocations before the last dispatch and the one after it. No code reads this. -/
structure ProviderTrace where
  earlier : List PhaseRun
  current : Option PhaseRun
  deriving DecidableEq, Repr

namespace ProviderTrace

def empty : ProviderTrace := ⟨[], none⟩

def all (trace : ProviderTrace) : List PhaseRun := trace.earlier ++ trace.current.toList

def dispatched (trace : ProviderTrace) : ProviderTrace := ⟨trace.all, none⟩

def invoked (trace : ProviderTrace) (phase : ProviderPhase) : ProviderTrace :=
  ⟨trace.all, some ⟨phase, none⟩⟩

def ended (trace : ProviderTrace) (outcome : PhaseOutcome) : ProviderTrace :=
  ⟨trace.earlier, trace.current.map fun run => { run with outcome := some outcome }⟩

end ProviderTrace

/-! ## One operation -/

/-- The fields of a `ProtectedOperation` object. -/
structure Operation where
  reservationIds : List String
  resourceReserved : Bool
  reservationsCommitted : Bool
  dispatched : Bool
  terminal : Bool
  completedPhases : List ProviderPhase
  failureSettlementRun : Bool
  dataFlowIngressObserved : Bool
  deriving DecidableEq, Repr

def Operation.new : Operation := ⟨[], false, false, false, false, [], false, false⟩

/-- One operation with the rows of the store that belong to its effect. Effect ids and reservation
ids are drawn for one operation, so no two operations share such a row. -/
structure Cell where
  operation : Operation
  row : Option EffectRow
  reservations : String → Option Reservation
  envelope : Option EnvelopeStatus
  ledger : List LedgerEntry
  audits : List AuditAction
  trace : ProviderTrace

def Cell.new : Cell := ⟨.new, none, fun _ => none, none, [], [], .empty⟩

/-- What one operation works on: its own cell and the capability rows, which all share. -/
structure Local extends Cell where
  capabilities : String → Option CapabilityRow

/-- Whether an exception is an `Exception`. -/
inductive Fault
  | exception | interrupt
  deriving DecidableEq, Repr

namespace Local

/-! ## Effect rows -/

def record (s : Local) (row : EffectRow) : Local :=
  { s with row := some row, ledger := s.ledger ++ [⟨row.effectState, row.transactionState⟩] }

def transitionExternalEffect (s : Local) (expected : List TransactionState)
    (state : TransactionState) (change : EffectRow → EffectRow) : Option Local :=
  match s.row with
  | some row =>
      if row.transactionState ∈ expected then
        some (s.record { change row with transactionState := state })
      else none
  | none => none

def markExternalEffectDispatched (s : Local) : Option Local :=
  match s.transitionExternalEffect [.prepared, .authorized, .approved] .dispatched id with
  | some s' => some s'
  | none =>
      match s.row with
      | some row => if row.transactionState = .dispatched then some s else none
      | none => none

def finalizeExternalEffect (s : Local) (flags : EffectFlags) (state : TransactionState)
    (evidence : Option ProtectedEvidence) : Option Local :=
  match s.row with
  | some row =>
      if row.effectState = .pending then
        some (s.record
          { row with
            flags := flags
            effectState := .finalized
            transactionState := state
            protectedOperation := evidence
            completedPhases := []
            activePhase := none })
      else none
  | none => none

def abandonExternalEffectIntent (s : Local) : Option Local :=
  match s.row with
  | some row => if row.effectState = .pending then some { s with row := none } else none
  | none => none

/-! ## Reservations -/

def setReservation (s : Local) (id : String) (reservation : Reservation) : Local :=
  { s with reservations := fun id' => if id' = id then some reservation else s.reservations id' }

def setCapability (s : Local) (capId : String) (row : CapabilityRow) : Local :=
  { s with capabilities := fun id => if id = capId then some row else s.capabilities id }

def commitReservedUse (s : Local) (id : String) : Local :=
  match s.reservations id with
  | some reservation =>
      if reservation.status = .reserved then
        s.setReservation id { reservation with status := .committed }
      else s
  | none => s

def giveBackUse (s : Local) (reservation : Reservation) : Option CapabilityRow :=
  (s.capabilities reservation.capId).bind (·.giveBack 1 Nat.one_pos)

def restoreReservedUse (s : Local) (id : String) : Local :=
  match s.reservations id with
  | some reservation =>
      if reservation.status = .reserved then
        match s.giveBackUse reservation with
        | some row => (s.setCapability reservation.capId row).setReservation id
            { reservation with status := .restored }
        | none => s.setReservation id { reservation with status := .invalidated }
      else s
  | none => s

/-- `settle_usage_reservation`; a settled envelope stays as it is. -/
def settleUsageReservation (s : Local) (status : EnvelopeStatus) : Option Local :=
  match s.envelope with
  | some .active => some { s with envelope := some status }
  | some _ => some s
  | none => none

end Local
end AgentLibOS.Effects
