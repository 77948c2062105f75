import AgentLibOS.Mcp.Continuations

namespace AgentLibOS.Mcp
open Library Library.Run ContinuationStore

variable {Payload Digest : Type}

/-! ## Lawful histories -/

/-- The row that a history leaves behind. -/
def current : List (Moment Digest) → Option (McpContinuationRecord Digest)
  | [] => none
  | .wrote record :: _ => some record
  | .removed :: _ => none
  | _ :: earlier => current earlier

/-- The number of input rounds committed so far. -/
def rounds : List (Moment Digest) → Nat
  | [] => 0
  | .opened _ :: earlier => rounds earlier + 1
  | _ :: earlier => rounds earlier

/-- The round that the result of a boundary call opens. -/
structure NextRound (claimed next : McpContinuationRecord Digest) : Prop where
  revision : next.revision = claimed.revision + 1
  status : next.status = .inputRequired
  human : next.humanRequestId ≠ claimed.humanRequestId
  broker : ∃ brokerRef valueSha256, next.broker = some (brokerRef, valueSha256) ∧
    ∀ before ∈ claimed.broker, valueSha256 ≠ before.2

/-- A boundary call did not start, or its result is the next input round. -/
def Resolved (earlier : List (Moment Digest)) (claimed : McpContinuationRecord Digest) : Prop :=
  .certified claimed.revision ∈ earlier ∨
    ∃ next, .wrote next ∈ earlier ∧ NextRound claimed next

structure LawfulDispatch (earlier : List (Moment Digest))
    (claimed : McpContinuationRecord Digest) : Prop where
  status : claimed.status = .dispatching
  claims : current earlier = some claimed
  once : ∀ call before, .invoked call before ∈ earlier → before.revision ≠ claimed.revision
  resolved : ∀ call before, .invoked call before ∈ earlier → Resolved earlier before
  live : ∀ before, .wrote before ∈ earlier → before.status.terminal = false
  present : .removed ∉ earlier

/-- A write keeps the identity of the record, follows no terminal status, and claims only a record
that waits for input. -/
structure LawfulWrite (earlier : List (Moment Digest))
    (record : McpContinuationRecord Digest) : Prop where
  identity : ∀ before, .wrote before ∈ earlier →
    sameIdentity before record ∧ before.revision < record.revision
  live : ∀ before, .wrote before ∈ earlier → before.status.terminal = false
  claims : record.status = .dispatching → ∃ pending, current earlier = some pending ∧
    pending.status = .inputRequired ∧ record.revision = pending.revision + 1
  present : .removed ∉ earlier

def LawfulMoment (limits : ContinuationLimits) (earlier : List (Moment Digest)) :
    Moment Digest → Prop
  | .wrote record => LawfulWrite earlier record
  | .removed => ∃ record, current earlier = some record ∧ record.status.terminal = true
  | .invoked _ claimed => LawfulDispatch earlier claimed
  | .certified _ => True
  | .opened round => round = rounds earlier + 1 ∧ round ≤ limits.maxRounds
  | .reconciled => ∀ record, current earlier = some record → record.status ≠ .dispatching

def LawfulHistory (limits : ContinuationLimits) : List (Moment Digest) → Prop
  | [] => True
  | moment :: earlier => LawfulMoment limits earlier moment ∧ LawfulHistory limits earlier

namespace LawfulHistory
variable {limits : ContinuationLimits} {history later earlier : List (Moment Digest)}

theorem lawful {moment : Moment Digest}
    (lawful : LawfulHistory limits (later ++ moment :: earlier)) :
    LawfulMoment limits earlier moment := by
  induction later with
  | nil => exact lawful.1
  | cons _ later ih => exact ih lawful.2

theorem rounds_le (lawful : LawfulHistory limits history) : rounds history ≤ limits.maxRounds := by
  induction history with
  | nil => exact Nat.zero_le _
  | cons moment earlier ih =>
      cases moment with
      | opened round =>
          obtain ⟨number, bound⟩ := lawful.1
          exact Nat.le_trans (Nat.le_of_eq number.symm) bound
      | _ => exact ih lawful.2

theorem wrote_of_current {record : McpContinuationRecord Digest}
    (newest : current history = some record) : .wrote record ∈ history := by
  induction history with
  | nil => cases newest
  | cons moment earlier ih =>
      cases moment with
      | wrote written =>
          cases newest
          exact List.mem_cons_self
      | removed => cases newest
      | _ => exact List.mem_cons_of_mem _ (ih newest)

/-- All versions have one identity. -/
theorem identity (lawful : LawfulHistory limits history)
    {left right : McpContinuationRecord Digest} (inLeft : .wrote left ∈ history)
    (inRight : .wrote right ∈ history) : sameIdentity left right := by
  induction history with
  | nil => cases inLeft
  | cons moment earlier ih =>
      rcases List.mem_cons.mp inLeft with rfl | leftBefore
      · rcases List.mem_cons.mp inRight with now | rightBefore
        · cases now
          exact ⟨rfl, rfl, rfl, rfl⟩
        · obtain ⟨id, binding, expires, created⟩ := (lawful.1.identity right rightBefore).1
          exact ⟨id.symm, binding.symm, expires.symm, created.symm⟩
      · rcases List.mem_cons.mp inRight with rfl | rightBefore
        · exact (lawful.1.identity left leftBefore).1
        · exact ih lawful.2 leftBefore rightBefore

theorem wrote_of_invoked (lawful : LawfulHistory limits history) {call : ContinuationCall}
    {claimed : McpContinuationRecord Digest} (invoked : .invoked call claimed ∈ history) :
    .wrote claimed ∈ history := by
  induction history with
  | nil => cases invoked
  | cons moment earlier ih =>
      rcases List.mem_cons.mp invoked with rfl | before
      · exact List.mem_cons_of_mem _ (wrote_of_current lawful.1.claims)
      · exact List.mem_cons_of_mem _ (ih lawful.2 before)

end LawfulHistory

theorem Resolved.later {history : List (Moment Digest)} {claimed : McpContinuationRecord Digest}
    (resolved : Resolved history claimed) (moment : Moment Digest) :
    Resolved (moment :: history) claimed := by
  rcases resolved with certified | ⟨next, written, opened⟩
  · exact Or.inl (List.mem_cons_of_mem _ certified)
  · exact Or.inr ⟨next, List.mem_cons_of_mem _ written, opened⟩

/-! ## The row behind a history -/

/-- The versions of the record that have been written since `origin`, next to the present one. -/
structure Ledger (limits : ContinuationLimits) (origin : McpContinuationRecord Digest)
    (history : List (Moment Digest)) (row : Option (McpContinuationRecord Digest)) : Prop where
  captured : .wrote origin ∈ history
  lawful : LawfulHistory limits history
  newest : current history = row
  versions : ∀ record, row = some record → ∀ before, .wrote before ∈ history →
    sameIdentity before record ∧ before.revision ≤ record.revision ∧
      (before = record ∨ before.status.terminal = false ∧ before.revision < record.revision)
  present : .removed ∈ history → row = none

namespace Ledger
variable {limits : ContinuationLimits} {origin : McpContinuationRecord Digest}
  {history : List (Moment Digest)} {row : Option (McpContinuationRecord Digest)}

/-- The version of a revision that is still current. -/
theorem eq_of_revision (ledger : Ledger limits origin history row)
    {record before : McpContinuationRecord Digest} (found : row = some record)
    (written : .wrote before ∈ history) (same : record.revision = before.revision) :
    before = record := by
  obtain ⟨_, _, here | ⟨_, earlier⟩⟩ := ledger.versions record found before written
  · exact here
  · exact absurd same.symm (Nat.ne_of_lt earlier)

/-- A moment that does not touch the row. -/
theorem note (ledger : Ledger limits origin history row) {moment : Moment Digest}
    (lawful : LawfulMoment limits history moment)
    (unwritten : ∀ record, moment ≠ .wrote record) (kept : moment ≠ .removed) :
    Ledger limits origin (moment :: history) row where
  captured := List.mem_cons_of_mem _ ledger.captured
  lawful := ⟨lawful, ledger.lawful⟩
  newest := by
    cases moment with
    | wrote record => exact absurd rfl (unwritten record)
    | removed => exact absurd rfl kept
    | _ => exact ledger.newest
  versions := by
    intro record found before written
    rcases List.mem_cons.mp written with now | earlier
    · exact absurd now.symm (unwritten before)
    · exact ledger.versions record found before earlier
  present := by
    intro removed
    rcases List.mem_cons.mp removed with now | earlier
    · exact absurd now.symm kept
    · exact ledger.present earlier

/-- The present version is followed by the next one. -/
theorem write {record target : McpContinuationRecord Digest}
    (ledger : Ledger limits origin history (some record)) (identity : sameIdentity record target)
    (revision : target.revision = record.revision + 1) (live : record.status.terminal = false)
    (claims : target.status = .dispatching → record.status = .inputRequired) :
    Ledger limits origin (.wrote target :: history) (some target) := by
  have older : ∀ before, .wrote before ∈ history → sameIdentity before target ∧
      before.status.terminal = false ∧ before.revision < target.revision := by
    intro before written
    obtain ⟨same, bound, here | ⟨open_, _⟩⟩ := ledger.versions record rfl before written
    · subst here
      exact ⟨identity, live, by omega⟩
    · obtain ⟨id, binding, expires, created⟩ := same
      obtain ⟨id', binding', expires', created'⟩ := identity
      exact ⟨⟨id'.trans id, binding'.trans binding, expires'.trans expires,
        created'.trans created⟩, open_, by omega⟩
  have present : .removed ∉ history := fun removed => by cases ledger.present removed
  constructor
  · exact List.mem_cons_of_mem _ ledger.captured
  · refine ⟨⟨?_, ?_, ?_, present⟩, ledger.lawful⟩
    · exact fun before written => ⟨(older before written).1, (older before written).2.2⟩
    · exact fun before written => (older before written).2.1
    · exact fun status => ⟨record, ledger.newest, claims status, revision⟩
  · rfl
  · intro target' same before written
    cases same
    rcases List.mem_cons.mp written with now | earlier
    · cases now
      exact ⟨⟨rfl, rfl, rfl, rfl⟩, Nat.le_refl _, Or.inl rfl⟩
    · obtain ⟨identity', open_, below⟩ := older before earlier
      exact ⟨identity', Nat.le_of_lt below, Or.inr ⟨open_, below⟩⟩
  · intro removed
    rcases List.mem_cons.mp removed with now | earlier
    · cases now
    · exact absurd earlier present

end Ledger

/-! ## Callers and boundaries -/

/-- The broker value of the record is the envelope of the latest round. -/
def OpenRound (hash : ContentHash Payload Digest) (history : List (Moment Digest))
    (record : McpContinuationRecord Digest) : Prop :=
  ∃ brokerRef envelope, record.broker = some (brokerRef, hash.digest envelope) ∧
    envelope.round = rounds history

/-- What holds of boundary calls while the record waits or is dispatched. -/
structure Standing (hash : ContentHash Payload Digest) (history : List (Moment Digest))
    (record : McpContinuationRecord Digest) : Prop where
  pending : record.status = .inputRequired →
    (∀ call before, .invoked call before ∈ history → Resolved history before) ∧
      OpenRound hash history record
  dispatching : record.status = .dispatching →
    (∀ call before, .invoked call before ∈ history → before = record ∨ Resolved history before) ∧
      OpenRound hash history record

/-- A prepared transition leaves an open version for good, or opens its next round. -/
def Planned (hash : ContentHash Payload Digest) (limits : ContinuationLimits)
    (base : McpContinuationRecord Digest) (plan : Plan Digest) : Prop :=
  (plan.round = none ∧ base.status ≠ .needsAttention ∧ plan.target.status.terminal = true) ∨
    ∃ round, plan.round = some round ∧ base.status = .dispatching ∧
      plan.target.status = .inputRequired ∧
      plan.preparation.humanRequestId = some plan.target.humanRequestId ∧
      round ≤ limits.maxRounds ∧
      (∃ brokerRef envelope, base.broker = some (brokerRef, hash.digest envelope) ∧
        round = envelope.round + 1) ∧
      ∃ brokerRef envelope, plan.target.broker = some (brokerRef, hash.digest envelope) ∧
        envelope.round = round

structure Running (hash : ContentHash Payload Digest) (limits : ContinuationLimits)
    (origin : McpContinuationRecord Digest)
    (manager : McpContinuationManager Payload Digest) : Prop where
  ledger : Ledger limits origin manager.history manager.store.row
  standing : ∀ record, manager.store.row = some record → Standing hash manager.history record
  invocations : ∀ invocation ∈ manager.invocations,
    .wrote invocation.claimed ∈ manager.history ∧ invocation.claimed.status = .dispatching ∧
      ∃ brokerRef, invocation.claimed.broker =
        some (brokerRef, hash.digest invocation.envelope)
  plans : ∀ plan ∈ manager.plans, ∃ base, .wrote base ∈ manager.history ∧
    plan.preparation.operationRevision = base.revision ∧
    plan.target.revision = base.revision + 1 ∧ Planned hash limits base plan
  drawn : ∀ plan ∈ manager.plans, plan.preparation.preparationId < manager.drawn
  sidecar : ∀ plan ∈ manager.plans, ∀ owner, manager.store.sidecar = some owner →
    owner.1.preparationId = plan.preparation.preparationId → owner.1 = plan.preparation

end AgentLibOS.Mcp
