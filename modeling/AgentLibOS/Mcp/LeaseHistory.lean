import AgentLibOS.Mcp.Supervisor
import Mathlib.Data.List.Basic
import Mathlib.Order.Basic

namespace AgentLibOS.Mcp
open Library Library.Run

variable {Token Session Time : Type}

/-! ## Lawful histories -/

/-- Two leases on one connection, the earlier one first. -/
structure SharedBy [LinearOrder Time] (earlier later : Grant Token Session Time) : Prop where
  fence : later.fence = earlier.fence
  purpose : later.purpose = earlier.purpose
  shareable : later.purpose ≠ .mutation
  alive : ∃ now, later.source = .reuse now ∧ now < earlier.lease.absoluteExpiresMonotonic

/-- The opening was announced, and no change since has matched its fence. -/
structure Undisturbed (earlier : List (Observation Token Session Time)) (openingId : Token)
    (fence : McpConnectionFence) : Prop where
  opened : .opened openingId fence ∈ earlier
  valid : ∀ change, [.invalidated change, .opened openingId fence].Sublist earlier →
    change.matchesFence fence = false

structure LawfulGrant [LinearOrder Time] (earlier : List (Observation Token Session Time))
    (grant : Grant Token Session Time) : Prop where
  notShut : .shut ∉ earlier
  fence : grant.lease.fence = grant.fence
  purpose : grant.lease.purpose = grant.purpose
  attached : ∀ state, .detached grant.lease.connectionId state ∉ earlier
  apart : ∀ other, .granted other ∈ earlier → other.lease.leaseToken ≠ grant.lease.leaseToken
  sharing : ∀ other, .granted other ∈ earlier →
    other.lease.connectionId = grant.lease.connectionId → SharedBy other grant
  undisturbed : ∀ openingId, grant.source = .opening openingId →
    Undisturbed earlier openingId grant.fence

def GrantedOn (earlier : List (Observation Token Session Time)) (connectionId : Nat)
    (leaseToken : Token) : Prop :=
  ∃ grant, .granted grant ∈ earlier ∧ grant.lease.connectionId = connectionId ∧
    grant.lease.leaseToken = leaseToken

/-- What may be seen after `earlier`. A connection that is `closed` and not lost holds no lease any
more. -/
def Lawful [LinearOrder Time] (earlier : List (Observation Token Session Time)) :
    Observation Token Session Time → Prop
  | .granted grant => LawfulGrant earlier grant
  | .released connectionId leaseToken => GrantedOn earlier connectionId leaseToken ∧
      ∀ other, .released other leaseToken ∉ earlier
  | .detached connectionId state => (∀ before, .detached connectionId before ∉ earlier) ∧
      (state = .closed → ∀ leaseToken, GrantedOn earlier connectionId leaseToken →
        .released connectionId leaseToken ∈ earlier)
  | .closing connectionId | .abandoned connectionId _ =>
      (∃ state, .detached connectionId state ∈ earlier) ∧ .closing connectionId ∉ earlier ∧
        ∀ ownerLoop, .abandoned connectionId ownerLoop ∉ earlier
  | _ => True

/-- A history, newest first, in which everything is lawful after what came before. -/
def Chronicle [LinearOrder Time] : List (Observation Token Session Time) → Prop
  | [] => True
  | seen :: earlier => Lawful earlier seen ∧ Chronicle earlier

namespace Chronicle
variable [LinearOrder Time] {history later earlier : List (Observation Token Session Time)}

theorem lawful {seen : Observation Token Session Time}
    (chronicle : Chronicle (later ++ seen :: earlier)) : Lawful earlier seen := by
  induction later with
  | nil => exact chronicle.1
  | cons _ later ih => exact ih chronicle.2

theorem granted_of_released (chronicle : Chronicle history) {connectionId : Nat}
    {leaseToken : Token} (released : .released connectionId leaseToken ∈ history) :
    GrantedOn history connectionId leaseToken := by
  induction history with
  | nil => cases released
  | cons seen earlier ih =>
      rcases List.mem_cons.mp released with rfl | before
      · obtain ⟨grant, listed, same⟩ := chronicle.1.1
        exact ⟨grant, List.mem_cons_of_mem _ listed, same⟩
      · obtain ⟨grant, listed, same⟩ := ih chronicle.2 before
        exact ⟨grant, List.mem_cons_of_mem _ listed, same⟩

theorem detached_of_ended (chronicle : Chronicle history) {connectionId : Nat}
    (ended : .closing connectionId ∈ history ∨
      ∃ ownerLoop, .abandoned connectionId ownerLoop ∈ history) :
    ∃ state, .detached connectionId state ∈ history := by
  induction history with
  | nil => simp at ended
  | cons seen earlier ih =>
      have since (before : ∃ state, .detached connectionId state ∈ earlier) :
          ∃ state, .detached connectionId state ∈ seen :: earlier :=
        before.imp fun _ member => List.mem_cons_of_mem _ member
      rcases ended with closing | ⟨ownerLoop, gone⟩
      · rcases List.mem_cons.mp closing with rfl | before
        · exact since chronicle.1.1
        · exact since (ih chronicle.2 (Or.inl before))
      · rcases List.mem_cons.mp gone with rfl | before
        · exact since chronicle.1.1
        · exact since (ih chronicle.2 (Or.inr ⟨ownerLoop, before⟩))

theorem grant_unique (chronicle : Chronicle history) {left right : Grant Token Session Time}
    (inLeft : .granted left ∈ history) (inRight : .granted right ∈ history)
    (same : left.lease.leaseToken = right.lease.leaseToken) : left = right := by
  induction history with
  | nil => cases inLeft
  | cons seen earlier ih =>
      rcases List.mem_cons.mp inLeft with rfl | leftBefore
      · rcases List.mem_cons.mp inRight with now | rightBefore
        · cases now
          rfl
        · exact absurd same.symm (chronicle.1.apart right rightBefore)
      · rcases List.mem_cons.mp inRight with rfl | rightBefore
        · exact absurd same (chronicle.1.apart left leftBefore)
        · exact ih chronicle.2 leftBefore rightBefore

end Chronicle

/-! ## The supervisor behind a history -/

structure Live (history : List (Observation Token Session Time)) (sequence : Nat)
    (selected : ConnectionState Token Session Time) : Prop where
  numbered : selected.connectionId ≤ sequence
  attached : ∀ state, .detached selected.connectionId state ∉ history
  nodup : selected.leases.Nodup
  held : ∀ leaseToken ∈ selected.leases, GrantedOn history selected.connectionId leaseToken ∧
    .released selected.connectionId leaseToken ∉ history
  granted : ∀ grant, .granted grant ∈ history →
    grant.lease.connectionId = selected.connectionId →
      grant.fence = selected.fence ∧ grant.purpose = selected.purpose ∧
      grant.lease.absoluteExpiresMonotonic = selected.absoluteExpiresMonotonic ∧
      (grant.lease.leaseToken ∈ selected.leases ∨
        .released selected.connectionId grant.lease.leaseToken ∈ history)

structure Waiting (history : List (Observation Token Session Time))
    (opening : OpeningState Token) : Prop where
  opened : .opened opening.openingId opening.fence ∈ history
  only : ∀ fence, .opened opening.openingId fence ∈ history → fence = opening.fence
  valid : opening.invalidatedReason = none → ∀ change,
    [.invalidated change, .opened opening.openingId opening.fence].Sublist history →
      change.matchesFence opening.fence = false

/-- Names in the history were drawn before. -/
structure Numbered (tokens : TokenSource Token) (drawn sequence : Nat)
    (history : List (Observation Token Session Time)) : Prop where
  leases : ∀ grant, .granted grant ∈ history → grant.lease.connectionId ≤ sequence ∧
    ∃ n < drawn, tokens.draw n = grant.lease.leaseToken
  openings : ∀ openingId fence, .opened openingId fence ∈ history →
    ∃ n < drawn, tokens.draw n = openingId
  detached : ∀ connectionId state, .detached connectionId state ∈ history →
    connectionId ≤ sequence

structure Closings (pending : List (ConnectionState Token Session Time)) (closedLoops : List Nat)
    (history : List (Observation Token Session Time)) : Prop where
  distinct : (pending.map (·.connectionId)).Nodup
  waiting : ∀ selected ∈ pending, (∃ state, .detached selected.connectionId state ∈ history) ∧
    .closing selected.connectionId ∉ history ∧
    ∀ ownerLoop, .abandoned selected.connectionId ownerLoop ∉ history
  accounted : ∀ connectionId state, .detached connectionId state ∈ history →
    (∃ selected ∈ pending, selected.connectionId = connectionId) ∨
      .closing connectionId ∈ history ∨
      ∃ ownerLoop ∈ closedLoops, .abandoned connectionId ownerLoop ∈ history

structure Sound [LinearOrder Time] (limits : Limits Time) (tokens : TokenSource Token)
    (supervisor : McpConnectionSupervisor Token Session Time) : Prop where
  chronicle : Chronicle supervisor.history
  bounded : supervisor.connections.length + supervisor.openings.length ≤ limits.maxConnections
  distinct : (supervisor.connections.map (·.connectionId)).Nodup
  live : ∀ selected ∈ supervisor.connections,
    Live supervisor.history supervisor.sequence selected
  waiting : ∀ opening ∈ supervisor.openings, Waiting supervisor.history opening
  numbered : Numbered tokens supervisor.drawn supervisor.sequence supervisor.history
  shut : .shut ∈ supervisor.history → supervisor.closed = true
  closings : Closings supervisor.pending supervisor.closedLoops supervisor.history

/-! ## Adding one observation -/

/-- The connection whose leases an observation is about. -/
def Observation.concerns : Observation Token Session Time → Option Nat
  | .granted grant => some grant.lease.connectionId
  | .released connectionId _ | .detached connectionId _ => some connectionId
  | _ => none

variable {history : List (Observation Token Session Time)} {seen : Observation Token Session Time}

theorem GrantedOn.later {connectionId : Nat} {leaseToken : Token}
    (granted : GrantedOn history connectionId leaseToken) :
    GrantedOn (seen :: history) connectionId leaseToken := by
  obtain ⟨grant, listed, same⟩ := granted
  exact ⟨grant, List.mem_cons_of_mem _ listed, same⟩

theorem Live.note {sequence : Nat} {selected : ConnectionState Token Session Time}
    (live : Live history sequence selected) (other : seen.concerns ≠ some selected.connectionId) :
    Live (seen :: history) sequence selected where
  numbered := live.numbered
  attached := by
    intro state member
    rcases List.mem_cons.mp member with rfl | before
    · exact other rfl
    · exact live.attached state before
  nodup := live.nodup
  held := by
    intro leaseToken member
    obtain ⟨granted, open_⟩ := live.held leaseToken member
    refine ⟨granted.later, fun released => ?_⟩
    rcases List.mem_cons.mp released with rfl | before
    · exact other rfl
    · exact open_ before
  granted := by
    intro grant member same
    rcases List.mem_cons.mp member with rfl | before
    · exact absurd (congrArg some same) other
    · obtain ⟨fence, purpose, expires, kept⟩ := live.granted grant before same
      exact ⟨fence, purpose, expires, kept.imp_right (List.mem_cons_of_mem _)⟩

theorem Waiting.note {opening : OpeningState Token} (waiting : Waiting history opening)
    (other : ∀ fence, seen ≠ .opened opening.openingId fence)
    (spared : ∀ change, seen = .invalidated change → opening.invalidatedReason = none →
      change.matchesFence opening.fence = false) : Waiting (seen :: history) opening where
  opened := List.mem_cons_of_mem _ waiting.opened
  only := by
    intro fence member
    rcases List.mem_cons.mp member with rfl | before
    · exact absurd rfl (other fence)
    · exact waiting.only fence before
  valid := by
    intro none change pair
    rcases List.sublist_cons_iff.mp pair with before | ⟨rest, now, _⟩
    · exact waiting.valid none change before
    · rw [List.cons.injEq] at now
      exact spared change now.1.symm none

theorem Numbered.later {tokens : TokenSource Token} {drawn sequence drawn' sequence' : Nat}
    (numbered : Numbered tokens drawn sequence history) (more : drawn ≤ drawn')
    (further : sequence ≤ sequence') : Numbered tokens drawn' sequence' history where
  leases := by
    intro grant member
    obtain ⟨bound, n, below, draws⟩ := numbered.leases grant member
    exact ⟨Nat.le_trans bound further, n, Nat.lt_of_lt_of_le below more, draws⟩
  openings := by
    intro openingId fence member
    obtain ⟨n, below, draws⟩ := numbered.openings openingId fence member
    exact ⟨n, Nat.lt_of_lt_of_le below more, draws⟩
  detached := fun connectionId state member =>
    Nat.le_trans (numbered.detached connectionId state member) further

theorem Numbered.note {tokens : TokenSource Token} {drawn sequence : Nat}
    (numbered : Numbered tokens drawn sequence history)
    (within : ∀ connectionId, seen.concerns = some connectionId → connectionId ≤ sequence)
    (leases : ∀ grant, seen = .granted grant →
      ∃ n < drawn, tokens.draw n = grant.lease.leaseToken)
    (openings : ∀ openingId fence, seen = .opened openingId fence →
      ∃ n < drawn, tokens.draw n = openingId) :
    Numbered tokens drawn sequence (seen :: history) where
  leases := by
    intro grant member
    rcases List.mem_cons.mp member with rfl | before
    · exact ⟨within grant.lease.connectionId rfl, leases grant rfl⟩
    · exact numbered.leases grant before
  openings := by
    intro openingId fence member
    rcases List.mem_cons.mp member with rfl | before
    · exact openings openingId fence rfl
    · exact numbered.openings openingId fence before
  detached := by
    intro connectionId state member
    rcases List.mem_cons.mp member with rfl | before
    · exact within connectionId rfl
    · exact numbered.detached connectionId state before

/-- An observation that is not about the end of a connection. -/
theorem Closings.note {pending : List (ConnectionState Token Session Time)}
    {closedLoops : List Nat} (closings : Closings pending closedLoops history)
    (attached : ∀ connectionId state, seen ≠ .detached connectionId state)
    (unclosed : ∀ connectionId, seen ≠ .closing connectionId)
    (kept : ∀ connectionId ownerLoop, seen ≠ .abandoned connectionId ownerLoop) :
    Closings pending closedLoops (seen :: history) where
  distinct := closings.distinct
  waiting := by
    intro selected member
    obtain ⟨⟨state, detached⟩, open_, held⟩ := closings.waiting selected member
    refine ⟨⟨state, List.mem_cons_of_mem _ detached⟩, fun closing => ?_, fun ownerLoop gone => ?_⟩
    · rcases List.mem_cons.mp closing with rfl | before
      · exact unclosed _ rfl
      · exact open_ before
    · rcases List.mem_cons.mp gone with rfl | before
      · exact kept _ _ rfl
      · exact held ownerLoop before
  accounted := by
    intro connectionId state member
    rcases List.mem_cons.mp member with rfl | before
    · exact absurd rfl (attached connectionId state)
    · rcases closings.accounted connectionId state before with
        waiting | closed | ⟨ownerLoop, ended, gone⟩
      · exact Or.inl waiting
      · exact Or.inr (Or.inl (List.mem_cons_of_mem _ closed))
      · exact Or.inr (Or.inr ⟨ownerLoop, ended, List.mem_cons_of_mem _ gone⟩)

end AgentLibOS.Mcp
