import AgentLibOS.Library.Run
import AgentLibOS.Library.Text
import Mathlib.Tactic.Common

namespace AgentLibOS.Capability
open Library.Text Library.Run

inductive CapabilityStatus
  | active | revoked | disabled | execRevoked
  deriving DecidableEq, Repr

inductive ReservationStatus
  | reserved | committed | restored | invalidated
  deriving DecidableEq, Repr

/-- The lifecycle columns of a capability row. A row that is active, or that a failed publication
would make active again, has a use left. -/
structure CapabilityRow where
  subject : String
  resource : String
  revocable : Bool
  usesRemaining : Option Nat
  status : CapabilityStatus
  /-- `metadata[EXEC_ROLLBACK_TOKEN_KEY]`. -/
  rollbackToken : Option String
  positive : status = .active ∨ status = .execRevoked → usesRemaining ≠ some 0

structure UseReservation where
  capId : String
  count : Nat
  status : ReservationStatus
  positive : 0 < count

structure CapabilityStore where
  capabilities : String → Option CapabilityRow
  reservations : String → Option UseReservation

inductive LeaseError
  | notFound (message : String)
  | denied (message : String)
  | validation (message : String)
  | value (message : String)
  | integrity
  deriving DecidableEq, Repr

namespace CapabilityRow

def active (row : CapabilityRow) : Bool := row.status == .active

/-- The guarded update that consuming and reserving share. -/
def takeUses (row : CapabilityRow) (count : Nat) : Option CapabilityRow :=
  match row.usesRemaining with
  | none => none
  | some uses =>
      if row.status = .active ∧ count ≤ uses then
        some
          { row with
            usesRemaining := some (uses - count)
            status := if uses - count = 0 then .revoked else row.status
            positive := by
              split_ifs with spent
              · simp
              · simp [spent] }
      else none

/-- The guarded update of a restore. It cannot tell an exhausted row from a revoked one. -/
def giveBack (row : CapabilityRow) (count : Nat) (counted : 0 < count) : Option CapabilityRow :=
  match row.usesRemaining with
  | none => none
  | some uses =>
      if row.status = .active ∨ row.status = .revoked then
        some
          { row with
            usesRemaining := some (uses + count)
            status := if row.status = .revoked then .active else row.status
            positive := by
              intro _
              simp
              omega }
      else none

/-- `replace(cap, status=status, metadata=_without_exec_rollback_token(cap.metadata))`. -/
def retire (row : CapabilityRow) (status : CapabilityStatus)
    (final : status = .revoked ∨ status = .disabled) : CapabilityRow :=
  { row with
    status := status
    rollbackToken := none
    positive := by rcases final with rfl | rfl <;> simp }

def stage (row : CapabilityRow) (token : String) (live : row.active = true) : CapabilityRow :=
  { row with
    status := .execRevoked
    rollbackToken := some token
    positive := fun _ => row.positive (Or.inl (by simpa [active] using live)) }

/-- The row an exec publication staged, put back as its snapshot has it. -/
def unstage (row old : CapabilityRow) (staged : row.status = .execRevoked) : CapabilityRow :=
  { row with
    status := old.status
    rollbackToken := old.rollbackToken
    positive := fun _ => row.positive (Or.inr staged) }

end CapabilityRow

namespace CapabilityStore

def setRow (store : CapabilityStore) (capId : String) (row : CapabilityRow) : CapabilityStore :=
  { store with capabilities := fun id => if id = capId then some row else store.capabilities id }

def setReservation (store : CapabilityStore) (reservationId : String)
    (reservation : UseReservation) : CapabilityStore :=
  { store with
    reservations := fun id =>
      if id = reservationId then some reservation else store.reservations id }

/-- What leaving the active status does to the outstanding reservations of the chosen rows. -/
def invalidate (store : CapabilityStore) (chosen : String → Bool) : CapabilityStore :=
  { store with
    reservations := fun id => (store.reservations id).map fun reservation =>
      if chosen reservation.capId = true ∧ reservation.status = .reserved then
        { reservation with status := .invalidated }
      else reservation }

/-- `update_capability` with a row that is not active. -/
def updateInactive (store : CapabilityStore) (capId : String) (row : CapabilityRow) :
    CapabilityStore :=
  (store.setRow capId row).invalidate fun id => id == capId

/-- The loop of `finalize_exec_revocations` and `revoke_resource`: `update_capability` on every row
of the selection. -/
def revokeWhere (store : CapabilityStore) (selected : CapabilityRow → Bool) : CapabilityStore :=
  invalidate
    { store with
      capabilities := fun id => (store.capabilities id).map fun row =>
        if selected row then row.retire .revoked (by decide) else row }
    fun id => (store.capabilities id).any selected

def require (store : CapabilityStore) (capId : String) : Except LeaseError CapabilityRow :=
  match store.capabilities capId with
  | some row => .ok row
  | none => .error (.notFound ("capability not found: " ++ capId))

def requireRevocable (store : CapabilityStore) (capId : String) :
    Except LeaseError CapabilityRow := do
  let row ← store.require capId
  if row.revocable then pure row
  else .error (.denied ("capability is not revocable: " ++ capId))

def insertCapability (store : CapabilityStore) (capId : String) (row : CapabilityRow) :
    Except LeaseError CapabilityStore :=
  match store.capabilities capId with
  | some _ => .error .integrity
  | none => .ok (store.setRow capId row)

/-! ## Lease service -/

def consume (store : CapabilityStore) (capId : String) (count : Nat) :
    Except LeaseError CapabilityStore := do
  if count < 1 then
    .error (.validation "capability consume count must be a positive integer")
  else
    let row ← store.require capId
    if row.usesRemaining = none then pure store
    else match row.takeUses count with
      | some updated => pure (store.setRow capId updated)
      | none => .error (.denied ("capability use exhausted: " ++ capId))

def reserve (store : CapabilityStore) (capId reservationId : String) (count : Nat) :
    Except LeaseError CapabilityStore := do
  if counted : 0 < count then
    let row ← store.require capId
    if row.usesRemaining = none then
      .error (.validation ("capability is not finite-use: " ++ capId))
    else match row.takeUses count, store.reservations reservationId with
      | none, _ => .error (.denied ("capability use exhausted: " ++ capId))
      | some _, some _ => .error .integrity
      | some updated, none =>
          pure ((store.setRow capId updated).setReservation reservationId
            ⟨capId, count, .reserved, counted⟩)
  else .error (.validation "capability reservation count must be a positive integer")

def settle (store : CapabilityStore) (reservationId : String) (reservation : UseReservation)
    (status : ReservationStatus) : CapabilityStore :=
  store.setReservation reservationId { reservation with status := status }

def commit (store : CapabilityStore) (reservationId : String) : CapabilityStore :=
  match store.reservations reservationId with
  | some reservation =>
      if reservation.status = .reserved then store.settle reservationId reservation .committed
      else store
  | none => store

def restore (store : CapabilityStore) (reservationId : String) : CapabilityStore :=
  match store.reservations reservationId with
  | some reservation =>
      if reservation.status = .reserved then
        match (store.capabilities reservation.capId).bind
            (·.giveBack reservation.count reservation.positive) with
        | some updated =>
            (store.setRow reservation.capId updated).settle reservationId reservation .restored
        | none => store.settle reservationId reservation .invalidated
      else store
  | none => store

/-! ## Mutation service -/

/-- A one-time decision names the finite-use capability it consumes; the reservation id is drawn
for it. -/
def reserveDecision (store : CapabilityStore) :
    Option (String × String) → Except LeaseError CapabilityStore
  | none => .ok store
  | some (capId, reservationId) => store.reserve capId reservationId 1

def commitDecision (store : CapabilityStore) : Option (String × String) → CapabilityStore
  | none => store
  | some (_, reservationId) => store.commit reservationId

def revoke (store : CapabilityStore) (capId : String) (authority : Option (String × String)) :
    Except LeaseError CapabilityStore := do
  let current ← store.requireRevocable capId
  let reserved ← store.reserveDecision authority
  pure ((reserved.updateInactive capId (current.retire .revoked (by decide))).commitDecision
    authority)

def stageExecRevocation (store : CapabilityStore) (capId rollbackToken : String) :
    Except LeaseError CapabilityStore := do
  let selected := String.ofList (strip isSpace rollbackToken.toList)
  if selected = "" then .error (.value "exec capability rollback token must not be empty")
  else
    let current ← store.requireRevocable capId
    if live : current.active = true then
      pure (store.updateInactive capId (current.stage selected live))
    else pure store

def finalizeExecRevocations (store : CapabilityStore) (subject rollbackToken : String) :
    CapabilityStore :=
  store.revokeWhere fun row => row.subject == subject && row.status == .execRevoked &&
    row.rollbackToken == some rollbackToken

def disable (store : CapabilityStore) (capId : String) : Except LeaseError CapabilityStore := do
  let row ← store.require capId
  pure (store.updateInactive capId (row.retire .disabled (by decide)))

def revokeResource (store : CapabilityStore) (resource : String) : CapabilityStore :=
  store.revokeWhere fun row => row.resource == resource &&
    (row.status == .active || row.status == .execRevoked)

/-- `_restore_exec_revoked_capabilities`: a failed publication puts back the rows it still owns.
`before` is its snapshot. -/
def restoreExecRevoked (store : CapabilityStore) (subject rollbackToken : String)
    (before : String → Option CapabilityRow) : CapabilityStore :=
  { store with
    capabilities := fun id => (store.capabilities id).map fun row =>
      if owned : row.status = .execRevoked ∧ row.subject = subject ∧
          row.rollbackToken = some rollbackToken then
        match before id with
        | some old => row.unstage old owned.1
        | none => row
      else row }

end CapabilityStore

/-! ## Interleavings -/

inductive StoreOp
  | issue (capId : String) (row : CapabilityRow)
  | consume (capId : String) (count : Nat)
  | reserve (capId reservationId : String) (count : Nat)
  | commit (reservationId : String)
  | restore (reservationId : String)
  | revoke (capId : String) (authority : Option (String × String))
  | disable (capId : String)
  | stageExecRevocation (capId rollbackToken : String)
  | finalizeExecRevocations (subject rollbackToken : String)
  | restoreExecRevoked (subject rollbackToken : String) (before : String → Option CapabilityRow)
  | revokeResource (resource : String)

def StoreOp.exec (store : CapabilityStore) : StoreOp → Except LeaseError CapabilityStore
  | .issue capId row => store.insertCapability capId row
  | .consume capId count => store.consume capId count
  | .reserve capId reservationId count => store.reserve capId reservationId count
  | .commit reservationId => .ok (store.commit reservationId)
  | .restore reservationId => .ok (store.restore reservationId)
  | .revoke capId authority => store.revoke capId authority
  | .disable capId => store.disable capId
  | .stageExecRevocation capId token => store.stageExecRevocation capId token
  | .finalizeExecRevocations subject token => .ok (store.finalizeExecRevocations subject token)
  | .restoreExecRevoked subject token before => .ok (store.restoreExecRevoked subject token before)
  | .revokeResource resource => .ok (store.revokeResource resource)

end AgentLibOS.Capability
