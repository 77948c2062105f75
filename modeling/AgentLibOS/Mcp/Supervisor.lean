import AgentLibOS.Library.Run
import Mathlib.Order.Lattice

namespace AgentLibOS.Mcp
open Library Library.Run

structure McpConnectionFence where
  serverId : String
  serverSpecSha256 : String
  registryGeneration : Int
  owner : String
  authPrincipalSha256 : Option String
  authScopeSha256 : Option String
  authGeneration : Int
  deriving DecidableEq, Repr

inductive Purpose
  | read | mutation | subscription | oauth
  deriving DecidableEq, Repr

inductive ConnectionStatus
  | active | lost | closed
  deriving DecidableEq, Repr

/-- A change that revokes the fences it matches. -/
inductive Invalidation
  | server (serverId : String) (currentSpecSha256 : Option String)
      (currentRegistryGeneration : Option Int)
  | auth (authPrincipalSha256 : String) (currentGeneration : Option Int)
  | owner (closedOwner : String)
  deriving DecidableEq, Repr

namespace Invalidation

def matchesFence : Invalidation → McpConnectionFence → Bool
  | .server serverId currentSpecSha256 currentRegistryGeneration, fence =>
      fence.serverId == serverId && (currentSpecSha256.isNone ||
        some fence.serverSpecSha256 != currentSpecSha256 ||
        currentRegistryGeneration.any (fence.registryGeneration != ·))
  | .auth authPrincipalSha256 currentGeneration, fence =>
      fence.authPrincipalSha256 == some authPrincipalSha256 &&
        (currentGeneration.isNone || some fence.authGeneration != currentGeneration)
  | .owner closedOwner, fence => fence.owner == closedOwner

def reason : Invalidation → String
  | .server .. => "registry_fence_changed"
  | .auth .. => "auth_fence_changed"
  | .owner _ => "owner_closed"

end Invalidation

/-- `secrets.token_urlsafe`, which does not repeat a token. -/
structure TokenSource (Token : Type) where
  draw : Nat → Token
  fresh : Function.Injective draw

structure Limits (Time : Type) where
  idleTtl : Time
  absoluteTtl : Time
  maxConnections : Nat

/-! ## Connections, openings and leases -/

/-- A connection id is the number in `mcp-connection-…`. -/
structure ConnectionState (Token Session Time : Type) where
  connectionId : Nat
  fence : McpConnectionFence
  purpose : Purpose
  session : Session
  createdMonotonic : Time
  lastUsedMonotonic : Time
  absoluteExpiresMonotonic : Time
  idleExpiresMonotonic : Time
  leases : List Token
  state : ConnectionStatus
  lostReason : Option String
  ownerLoop : Nat

structure OpeningState (Token : Type) where
  openingId : Token
  fence : McpConnectionFence
  purpose : Purpose
  invalidatedReason : Option String
  ownerLoop : Nat

structure McpManagedConnection (Token Session Time : Type) where
  connectionId : Nat
  leaseToken : Token
  fence : McpConnectionFence
  purpose : Purpose
  session : Session
  createdMonotonic : Time
  lastUsedMonotonic : Time
  absoluteExpiresMonotonic : Time
  idleExpiresMonotonic : Time
  leaseCount : Nat
  state : ConnectionStatus
  lostReason : Option String

variable {Token Session Time : Type}

/-- `_lease`. -/
def ConnectionState.lease (selected : ConnectionState Token Session Time) (leaseToken : Token) :
    McpManagedConnection Token Session Time where
  connectionId := selected.connectionId
  leaseToken := leaseToken
  fence := selected.fence
  purpose := selected.purpose
  session := selected.session
  createdMonotonic := selected.createdMonotonic
  lastUsedMonotonic := selected.lastUsedMonotonic
  absoluteExpiresMonotonic := selected.absoluteExpiresMonotonic
  idleExpiresMonotonic := selected.idleExpiresMonotonic
  leaseCount := selected.leases.length
  state := selected.state
  lostReason := selected.lostReason

def ConnectionState.without [DecidableEq Token] (selected : ConnectionState Token Session Time)
    (leaseToken : Token) (used : Time) : ConnectionState Token Session Time :=
  { selected with
    leases := selected.leases.erase leaseToken
    lastUsedMonotonic := used }

/-- Where a lease comes from: a factory that finished, or a live connection that was reusable when
the clock was read. -/
inductive LeaseSource (Token Time : Type)
  | opening (openingId : Token)
  | reuse (now : Time)

/-- A lease together with the fence and the purpose that its caller asked for. -/
structure Grant (Token Session Time : Type) where
  fence : McpConnectionFence
  purpose : Purpose
  lease : McpManagedConnection Token Session Time
  source : LeaseSource Token Time

/-- What callers and sessions see of the supervisor. -/
inductive Observation (Token Session Time : Type)
  | opened (openingId : Token) (fence : McpConnectionFence)
  | granted (grant : Grant Token Session Time)
  | released (connectionId : Nat) (leaseToken : Token)
  | invalidated (change : Invalidation)
  | revoked (owner : String)
  | shut
  | detached (connectionId : Nat) (state : ConnectionStatus)
  | closing (connectionId : Nat)
  | abandoned (connectionId : Nat) (ownerLoop : Nat)
  | discarded (openingId : Token)

/-- `pending` holds the connections that are detached and not closed yet, `history` what has been
seen so far, newest first. -/
structure McpConnectionSupervisor (Token Session Time : Type) where
  connections : List (ConnectionState Token Session Time)
  openings : List (OpeningState Token)
  revokedOwners : List String
  sequence : Nat
  closed : Bool
  drawn : Nat
  pending : List (ConnectionState Token Session Time)
  closedLoops : List Nat
  history : List (Observation Token Session Time)

inductive SupervisorFault
  | closed | ownerInvalid | ownerClosed | limitReached | tokenMismatch | idInvalid | tokenRequired
  deriving DecidableEq, Repr

namespace McpConnectionSupervisor

def initial : McpConnectionSupervisor Token Session Time := ⟨[], [], [], 0, false, 0, [], [], []⟩

def connection? (supervisor : McpConnectionSupervisor Token Session Time) (connectionId : Nat) :
    Option (ConnectionState Token Session Time) :=
  supervisor.connections.find? (·.connectionId = connectionId)

def opening? [DecidableEq Token] (supervisor : McpConnectionSupervisor Token Session Time)
    (openingId : Token) : Option (OpeningState Token) :=
  supervisor.openings.find? (·.openingId = openingId)

/-- Writes back a connection whose fields have changed. -/
def update (supervisor : McpConnectionSupervisor Token Session Time)
    (selected : ConnectionState Token Session Time) : McpConnectionSupervisor Token Session Time :=
  { supervisor with
    connections := supervisor.connections.map fun other =>
      if other.connectionId = selected.connectionId then selected else other }

def note (supervisor : McpConnectionSupervisor Token Session Time)
    (seen : Observation Token Session Time) : McpConnectionSupervisor Token Session Time :=
  { supervisor with history := seen :: supervisor.history }

/-- `_bounded_reason`. -/
def boundedReason (reason : String) : String := String.ofList (reason.toList.take 256)

/-- `_detach_locked`. -/
def detach (supervisor : McpConnectionSupervisor Token Session Time)
    (selected : ConnectionState Token Session Time) (state : ConnectionStatus)
    (reason : Option String) : McpConnectionSupervisor Token Session Time :=
  { supervisor with
    connections := supervisor.connections.filter (·.connectionId ≠ selected.connectionId)
    pending := { selected with
      state := state
      lostReason := reason.map boundedReason } :: supervisor.pending
    history := .detached selected.connectionId state :: supervisor.history }

def detachBy (supervisor : McpConnectionSupervisor Token Session Time)
    (selected : ConnectionState Token Session Time) :
    Option (ConnectionStatus × Option String) → McpConnectionSupervisor Token Session Time
  | none => supervisor
  | some (state, reason) => supervisor.detach selected state reason

/-- A loop over the catalog that detaches what `verdict` selects. -/
def detachEach (verdict : ConnectionState Token Session Time →
      Option (ConnectionStatus × Option String))
    (supervisor : McpConnectionSupervisor Token Session Time)
    (catalog : List (ConnectionState Token Session Time)) :
    McpConnectionSupervisor Token Session Time :=
  catalog.foldl (fun current selected => current.detachBy selected (verdict selected)) supervisor

/-- Openings that a change matches learn its reason. -/
def invalidateOpenings (supervisor : McpConnectionSupervisor Token Session Time)
    (predicate : McpConnectionFence → Bool) (reason : String) :
    McpConnectionSupervisor Token Session Time :=
  { supervisor with
    openings := supervisor.openings.map fun opening =>
      if predicate opening.fence then { opening with invalidatedReason := some reason }
      else opening }

def dropOpening [DecidableEq Token] (supervisor : McpConnectionSupervisor Token Session Time)
    (openingId : Token) : McpConnectionSupervisor Token Session Time :=
  { supervisor with openings := supervisor.openings.filter (·.openingId ≠ openingId) }

/-! ## Operations, one locked section each -/

section Leases
variable [LinearOrder Time] [Add Time]

/-- `_find_reusable_locked`. -/
def findReusable (supervisor : McpConnectionSupervisor Token Session Time)
    (fence : McpConnectionFence) (purpose : Purpose) (now : Time) :
    Option (ConnectionState Token Session Time) :=
  supervisor.connections.find? fun selected => decide (selected.state = .active ∧
    selected.fence = fence ∧ selected.purpose = purpose ∧ now < selected.absoluteExpiresMonotonic)

/-- A further lease on a live connection; `now` is the reading of the search and `used` the later
one. -/
def share (limits : Limits Time) (tokens : TokenSource Token)
    (supervisor : McpConnectionSupervisor Token Session Time) (fence : McpConnectionFence)
    (purpose : Purpose) (selected : ConnectionState Token Session Time) (now used : Time) :
    McpConnectionSupervisor Token Session Time :=
  let leaseToken := tokens.draw supervisor.drawn
  let shared := { selected with
    leases := selected.leases ++ [leaseToken]
    lastUsedMonotonic := used
    idleExpiresMonotonic := min selected.absoluteExpiresMonotonic (used + limits.idleTtl) }
  { (supervisor.update shared).note
      (.granted ⟨fence, purpose, shared.lease leaseToken, .reuse now⟩) with
    drawn := supervisor.drawn + 1 }

def reserve (tokens : TokenSource Token) (supervisor : McpConnectionSupervisor Token Session Time)
    (fence : McpConnectionFence) (purpose : Purpose) (ownerLoop : Nat) :
    McpConnectionSupervisor Token Session Time :=
  let openingId := tokens.draw supervisor.drawn
  { supervisor.note (.opened openingId fence) with
    openings := supervisor.openings ++ [⟨openingId, fence, purpose, none, ownerLoop⟩]
    drawn := supervisor.drawn + 1 }

/-- `acquire` up to its factory. -/
def acquire (limits : Limits Time) (tokens : TokenSource Token)
    (supervisor : McpConnectionSupervisor Token Session Time) (fence : McpConnectionFence)
    (purpose : Purpose) (reusable : Bool) (ownerLoop : Nat) (now used : Time) :
    Except SupervisorFault (McpConnectionSupervisor Token Session Time) := do
  ensure (supervisor.closed = false) .closed
  ensure (fence.owner ≠ "") .ownerInvalid
  ensure (fence.owner ∉ supervisor.revokedOwners) .ownerClosed
  match if reusable = true ∧ purpose ≠ .mutation then supervisor.findReusable fence purpose now
    else none with
  | some selected => .ok (share limits tokens supervisor fence purpose selected now used)
  | none => do
      ensure (supervisor.connections.length + supervisor.openings.length < limits.maxConnections)
        .limitReached
      .ok (reserve tokens supervisor fence purpose ownerLoop)

/-- The new connection of an opening. -/
def connect (limits : Limits Time) (tokens : TokenSource Token)
    (supervisor : McpConnectionSupervisor Token Session Time) (opening : OpeningState Token)
    (session : Session) (now : Time) : McpConnectionSupervisor Token Session Time :=
  let leaseToken := tokens.draw supervisor.drawn
  let selected : ConnectionState Token Session Time :=
    { connectionId := supervisor.sequence + 1
      fence := opening.fence
      purpose := opening.purpose
      session := session
      createdMonotonic := now
      lastUsedMonotonic := now
      absoluteExpiresMonotonic := now + limits.absoluteTtl
      idleExpiresMonotonic := min (now + limits.idleTtl) (now + limits.absoluteTtl)
      leases := [leaseToken]
      state := .active
      lostReason := none
      ownerLoop := opening.ownerLoop }
  { supervisor.note (.granted ⟨opening.fence, opening.purpose, selected.lease leaseToken,
      .opening opening.openingId⟩) with
    connections := supervisor.connections ++ [selected]
    sequence := supervisor.sequence + 1
    drawn := supervisor.drawn + 1 }

/-- `acquire` once its factory has returned a session. -/
def publish [DecidableEq Token] (limits : Limits Time) (tokens : TokenSource Token)
    (supervisor : McpConnectionSupervisor Token Session Time) (openingId : Token)
    (session : Session) (now : Time) : McpConnectionSupervisor Token Session Time :=
  match supervisor.opening? openingId with
  | none => supervisor
  | some opening =>
      if opening.invalidatedReason = none ∧ supervisor.closed = false then
        connect limits tokens (supervisor.dropOpening openingId) opening session now
      else (supervisor.dropOpening openingId).note (.discarded openingId)

/-- `_release_identity`. -/
inductive ReleaseTarget (Token : Type)
  | lease (connectionId : Nat) (held : Token) (leaseToken : Option Token)
  | number (connectionId : Nat) (leaseToken : Option Token)

def ReleaseTarget.identity [DecidableEq Token] :
    ReleaseTarget Token → Except SupervisorFault (Nat × Option Token)
  | .lease connectionId held leaseToken => do
      ensure (leaseToken = none ∨ leaseToken = some held) .tokenMismatch
      .ok (connectionId, some held)
  | .number connectionId leaseToken => .ok (connectionId, leaseToken)

/-- The lease that a release without a token means. -/
def onlyLease (selected : ConnectionState Token Session Time) :
    Option Token → Except SupervisorFault Token
  | some leaseToken => .ok leaseToken
  | none => match selected.leases with
    | [leaseToken] => .ok leaseToken
    | _ => .error .tokenRequired

/-- The clock is read up to three times. -/
def release [DecidableEq Token] (limits : Limits Time)
    (supervisor : McpConnectionSupervisor Token Session Time) (target : ReleaseTarget Token)
    (keepAlive : Bool) (used now later : Time) :
    Except SupervisorFault (McpConnectionSupervisor Token Session Time) := do
  let (connectionId, requested) ← target.identity
  match supervisor.connection? connectionId with
  | none => .ok supervisor
  | some selected => do
      let leaseToken ← onlyLease selected requested
      if leaseToken ∉ selected.leases then .ok supervisor
      else
        let remaining := selected.without leaseToken used
        let released := (supervisor.update remaining).note (.released connectionId leaseToken)
        if remaining.leases ≠ [] then .ok released
        else if keepAlive = true ∧ remaining.purpose ≠ .mutation ∧ remaining.state = .active ∧
            now < remaining.absoluteExpiresMonotonic then
          .ok (released.update { remaining with
            idleExpiresMonotonic :=
              min remaining.absoluteExpiresMonotonic (later + limits.idleTtl) })
        else .ok (released.detach remaining .closed none)

/-- `_detach_expired`. -/
def detachExpired (supervisor : McpConnectionSupervisor Token Session Time) (now : Time) :
    McpConnectionSupervisor Token Session Time :=
  supervisor.detachEach (fun selected =>
    if selected.absoluteExpiresMonotonic ≤ now then some (.lost, some "absolute_ttl_expired")
    else if selected.leases = [] ∧ selected.idleExpiresMonotonic ≤ now then some (.closed, none)
    else none) supervisor.connections

/-- `_close_idle`. -/
def closeIdle (supervisor : McpConnectionSupervisor Token Session Time) (connectionId : Nat)
    (now : Time) : McpConnectionSupervisor Token Session Time :=
  match supervisor.connection? connectionId with
  | none => supervisor
  | some selected =>
      if selected.leases = [] ∧ selected.idleExpiresMonotonic ≤ now then
        supervisor.detach selected .closed none
      else supervisor

end Leases

def markLost (supervisor : McpConnectionSupervisor Token Session Time) (connectionId : Nat)
    (reason : String) : McpConnectionSupervisor Token Session Time :=
  match supervisor.connection? connectionId with
  | none => supervisor
  | some selected => supervisor.detach selected .lost (some (boundedReason reason))

/-- `_invalidate`, and `_invalidate_nowait` with it. -/
def invalidate (supervisor : McpConnectionSupervisor Token Session Time) (change : Invalidation) :
    McpConnectionSupervisor Token Session Time :=
  let marked := supervisor.invalidateOpenings change.matchesFence change.reason
  (marked.note (.invalidated change)).detachEach (fun selected =>
    if change.matchesFence selected.fence then some (.lost, some change.reason) else none)
    supervisor.connections

def latchOwnerRevocation (supervisor : McpConnectionSupervisor Token Session Time)
    (owner : String) : McpConnectionSupervisor Token Session Time :=
  if owner = "" then supervisor
  else { supervisor.note (.revoked owner) with
    revokedOwners := owner :: supervisor.revokedOwners }

def close (supervisor : McpConnectionSupervisor Token Session Time) :
    McpConnectionSupervisor Token Session Time :=
  let marked := supervisor.invalidateOpenings (fun _ => true) "supervisor_closed"
  { marked.note .shut with
    closed := true }.detachEach (fun _ => some (.lost, some "supervisor_closed"))
    supervisor.connections

/-- `_close_detached_on_owner`, which finds the loop of the connection open or gives the session
up. -/
def closeDetached (supervisor : McpConnectionSupervisor Token Session Time) (connectionId : Nat) :
    McpConnectionSupervisor Token Session Time :=
  match supervisor.pending.find? (·.connectionId = connectionId) with
  | none => supervisor
  | some selected =>
      { supervisor.note (if selected.ownerLoop ∈ supervisor.closedLoops then
          .abandoned connectionId selected.ownerLoop else .closing connectionId) with
        pending := supervisor.pending.filter (·.connectionId ≠ connectionId) }

end McpConnectionSupervisor

/-! ## Interleavings -/

/-- One locked section, or a step of the environment: a factory that returns or fails, the close of
a detached session, the end of an event loop. -/
inductive SupervisorEvent (Token Session Time : Type)
  | acquire (fence : McpConnectionFence) (purpose : Purpose) (reusable : Bool) (ownerLoop : Nat)
      (now used : Time)
  | publish (openingId : Token) (session : Session) (now : Time)
  | failOpening (openingId : Token)
  | release (target : McpConnectionSupervisor.ReleaseTarget Token) (keepAlive : Bool)
      (used now later : Time)
  | markLost (connectionId : Nat) (reason : String)
  | invalidate (change : Invalidation)
  | latchOwnerRevocation (owner : String)
  | close
  | detachExpired (now : Time)
  | closeIdle (connectionId : Nat) (now : Time)
  | closeDetached (connectionId : Nat)
  | closeLoop (ownerLoop : Nat)

namespace McpConnectionSupervisor
variable [DecidableEq Token] [LinearOrder Time] [Add Time]

def exec (limits : Limits Time) (tokens : TokenSource Token)
    (supervisor : McpConnectionSupervisor Token Session Time) :
    SupervisorEvent Token Session Time →
      Except SupervisorFault (McpConnectionSupervisor Token Session Time)
  | .acquire fence purpose reusable ownerLoop now used =>
      acquire limits tokens supervisor fence purpose reusable ownerLoop now used
  | .publish openingId session now => .ok (publish limits tokens supervisor openingId session now)
  | .failOpening openingId => .ok (supervisor.dropOpening openingId)
  | .release target keepAlive used now later =>
      supervisor.release limits target keepAlive used now later
  | .markLost connectionId reason => .ok (supervisor.markLost connectionId reason)
  | .invalidate change => .ok (supervisor.invalidate change)
  | .latchOwnerRevocation owner => .ok (supervisor.latchOwnerRevocation owner)
  | .close => .ok supervisor.close
  | .detachExpired now => .ok (supervisor.detachExpired now)
  | .closeIdle connectionId now => .ok (supervisor.closeIdle connectionId now)
  | .closeDetached connectionId => .ok (supervisor.closeDetached connectionId)
  | .closeLoop ownerLoop =>
      .ok { supervisor with closedLoops := ownerLoop :: supervisor.closedLoops }

def step (limits : Limits Time) (tokens : TokenSource Token) :
    McpConnectionSupervisor Token Session Time → SupervisorEvent Token Session Time →
      McpConnectionSupervisor Token Session Time :=
  transact (exec limits tokens)

end McpConnectionSupervisor
end AgentLibOS.Mcp
