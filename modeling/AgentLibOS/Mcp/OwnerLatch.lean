import AgentLibOS.Mcp.LeaseRuns
import Mathlib.Order.Nat

namespace AgentLibOS.Mcp
open Library Library.Run

variable {Token Session Time : Type}

/-- No lease for an owner is seen after the revocation of that owner. -/
def OwnersFenced : List (Observation Token Session Time) → Prop
  | [] => True
  | .granted grant :: earlier => .revoked grant.fence.owner ∉ earlier ∧ OwnersFenced earlier
  | _ :: earlier => OwnersFenced earlier

namespace McpConnectionSupervisor
variable {supervisor supervisor' : McpConnectionSupervisor Token Session Time}

/-- Owners that were revoked are the ones that are latched. -/
def Latched (supervisor : McpConnectionSupervisor Token Session Time) : Prop :=
  ∀ owner, .revoked owner ∈ supervisor.history ↔ owner ∈ supervisor.revokedOwners

/-- Neither leases nor revocations were added. -/
structure SameOwners (before after : McpConnectionSupervisor Token Session Time) : Prop where
  latched : Latched before → Latched after
  fenced : OwnersFenced after.history ↔ OwnersFenced before.history

theorem SameOwners.refl (supervisor : McpConnectionSupervisor Token Session Time) :
    SameOwners supervisor supervisor := ⟨id, Iff.rfl⟩

theorem SameOwners.trans {first second third : McpConnectionSupervisor Token Session Time}
    (front : SameOwners first second) (back : SameOwners second third) :
    SameOwners first third :=
  ⟨back.latched ∘ front.latched, back.fenced.trans front.fenced⟩

theorem SameOwners.same (owners : supervisor'.revokedOwners = supervisor.revokedOwners)
    (history : supervisor'.history = supervisor.history) : SameOwners supervisor supervisor' := by
  constructor
  · intro latched owner
    rw [owners, history]
    exact latched owner
  · rw [history]

theorem SameOwners.seen {seen : Observation Token Session Time}
    (owners : supervisor'.revokedOwners = supervisor.revokedOwners)
    (history : supervisor'.history = seen :: supervisor.history)
    (unrevoked : ∀ owner, seen ≠ .revoked owner) (ungranted : ∀ grant, seen ≠ .granted grant) :
    SameOwners supervisor supervisor' := by
  constructor
  · intro latched owner
    rw [owners, history, List.mem_cons, ← latched owner]
    exact or_iff_right (Ne.symm (unrevoked owner))
  · rw [history]
    cases seen with
    | granted grant => exact absurd rfl (ungranted grant)
    | _ => exact Iff.rfl

theorem detachEach_owners
    (verdict : ConnectionState Token Session Time → Option (ConnectionStatus × Option String))
    (catalog : List (ConnectionState Token Session Time))
    (supervisor : McpConnectionSupervisor Token Session Time) :
    SameOwners supervisor (supervisor.detachEach verdict catalog) := by
  induction catalog generalizing supervisor with
  | nil => exact .refl supervisor
  | cons selected rest ih =>
      change SameOwners supervisor
        (detachEach verdict (supervisor.detachBy selected (verdict selected)) rest)
      cases verdict selected with
      | none => exact ih supervisor
      | some outcome =>
          refine SameOwners.trans ?_ (ih (supervisor.detach selected outcome.1 outcome.2))
          exact .seen rfl rfl (by simp) (by simp)

theorem dropOpening_owners [DecidableEq Token] (openingId : Token) :
    SameOwners supervisor (supervisor.dropOpening openingId) := .same rfl rfl

theorem closeDetached_owners (connectionId : Nat) :
    SameOwners supervisor (supervisor.closeDetached connectionId) := by
  unfold closeDetached
  split
  · exact .refl supervisor
  · refine .seen rfl rfl ?_ ?_
    · intro owner
      split_ifs <;> simp
    · intro grant
      split_ifs <;> simp

theorem latch_owners (latched : Latched supervisor) (owner : String) :
    let revoked := supervisor.latchOwnerRevocation owner
    Latched revoked ∧ (OwnersFenced revoked.history ↔ OwnersFenced supervisor.history) := by
  intro revoked
  change Latched (supervisor.latchOwnerRevocation owner) ∧
    (OwnersFenced (supervisor.latchOwnerRevocation owner).history ↔ _)
  unfold latchOwnerRevocation
  split_ifs with empty
  · exact ⟨latched, Iff.rfl⟩
  · refine ⟨fun other => ?_, Iff.rfl⟩
    change _ ∈ _ :: supervisor.history ↔ other ∈ owner :: supervisor.revokedOwners
    rw [List.mem_cons, List.mem_cons, ← latched other, Observation.revoked.injEq]

theorem invalidate_owners (change : Invalidation) :
    SameOwners supervisor (supervisor.invalidate change) := by
  have marked : SameOwners supervisor
      ((supervisor.invalidateOpenings change.matchesFence change.reason).note
        (.invalidated change)) := .seen rfl rfl (by simp) (by simp)
  exact marked.trans (detachEach_owners _ _ _)

theorem close_owners : SameOwners supervisor supervisor.close := by
  have marked : SameOwners supervisor
      { (supervisor.invalidateOpenings (fun _ => true) "supervisor_closed").note .shut with
        closed := true } := .seen rfl rfl (by simp) (by simp)
  unfold close
  exact marked.trans (detachEach_owners _ _ _)

variable [LinearOrder Time] [Add Time] {limits : Limits Time} {tokens : TokenSource Token}

theorem acquire_owners {fence : McpConnectionFence} {purpose : Purpose} {reusable : Bool}
    {ownerLoop : Nat} {now used : Time} (latched : Latched supervisor)
    (done : acquire limits tokens supervisor fence purpose reusable ownerLoop now used =
      .ok supervisor') :
    Latched supervisor' ∧ (OwnersFenced supervisor'.history ↔ OwnersFenced supervisor.history) := by
  simp only [acquire, bind_eq_ok, ensure_ok, exists_const] at done
  obtain ⟨_, _, unlatched, done⟩ := done
  split at done
  · cases done
    constructor
    · intro owner
      change _ ∈ _ :: supervisor.history ↔ owner ∈ supervisor.revokedOwners
      rw [List.mem_cons, ← latched owner]
      exact or_iff_right (by simp)
    · exact and_iff_right fun revoked => unlatched ((latched fence.owner).mp revoked)
  · simp only [bind_eq_ok, ensure_ok, exists_const] at done
    obtain ⟨_, done⟩ := done
    cases done
    have same : SameOwners supervisor (reserve tokens supervisor fence purpose ownerLoop) :=
      .seen rfl rfl (by simp) (by simp)
    exact ⟨same.latched latched, same.fenced⟩

variable [DecidableEq Token]

/-- An opening that would become a connection has an owner that is not latched. -/
def Fenced (supervisor : McpConnectionSupervisor Token Session Time) :
    SupervisorEvent Token Session Time → Prop
  | .publish openingId _ _ =>
      ∀ opening, supervisor.opening? openingId = some opening →
        opening.invalidatedReason = none → supervisor.closed = false →
          opening.fence.owner ∉ supervisor.revokedOwners
  | _ => True

theorem publish_owners (latched : Latched supervisor) (openingId : Token) (session : Session)
    (now : Time) :
    let published := publish limits tokens supervisor openingId session now
    Latched published ∧ (OwnersFenced published.history ↔ OwnersFenced supervisor.history ∧
      Fenced supervisor (.publish openingId session now)) := by
  intro published
  have shape : published = publish limits tokens supervisor openingId session now := rfl
  clear_value published
  unfold publish at shape
  cases found : supervisor.opening? openingId with
  | none =>
      rw [found] at shape
      subst shape
      refine ⟨latched, (and_iff_left ?_).symm⟩
      intro other listed
      rw [found] at listed
      cases listed
  | some opening =>
      rw [found] at shape
      dsimp only at shape
      split_ifs at shape with ready
      · subst shape
        constructor
        · intro owner
          change _ ∈ _ :: supervisor.history ↔ owner ∈ supervisor.revokedOwners
          rw [List.mem_cons, ← latched owner]
          exact or_iff_right (by simp)
        · change .revoked opening.fence.owner ∉ supervisor.history ∧
            OwnersFenced supervisor.history ↔ _
          rw [latched opening.fence.owner, and_comm]
          refine and_congr_right fun _ => ⟨fun unlatched other listed _ _ => ?_, fun fenced => ?_⟩
          · rw [found] at listed
            cases listed
            exact unlatched
          · exact fenced opening found ready.1 ready.2
      · subst shape
        have dropped : SameOwners supervisor
            ((supervisor.dropOpening openingId).note (.discarded openingId)) :=
          .seen rfl rfl (by simp) (by simp)
        refine ⟨dropped.latched latched, dropped.fenced.trans (and_iff_left ?_).symm⟩
        intro other listed valid open_
        rw [found] at listed
        cases listed
        exact absurd ⟨valid, open_⟩ ready

theorem release_owners {target : ReleaseTarget Token} {keepAlive : Bool} {used now later : Time}
    (done : release limits supervisor target keepAlive used now later = .ok supervisor') :
    SameOwners supervisor supervisor' := by
  simp only [release, bind_eq_ok] at done
  obtain ⟨⟨connectionId, requested⟩, _, done⟩ := done
  split at done
  · cases done
    exact .refl supervisor
  · rename_i selected _
    obtain ⟨leaseToken, _, done⟩ := bind_eq_ok.mp done
    have withdrawn : SameOwners supervisor ((supervisor.update
        (selected.without leaseToken used)).note (.released connectionId leaseToken)) :=
      .seen rfl rfl (by simp) (by simp)
    by_cases foreign : leaseToken ∉ selected.leases
    · rw [if_pos foreign] at done
      cases done
      exact .refl supervisor
    · rw [if_neg foreign] at done
      dsimp only at done
      split_ifs at done
      · cases done
        exact withdrawn
      · cases done
        exact withdrawn.trans (.same rfl rfl)
      · cases done
        exact withdrawn.trans (.seen rfl rfl (by simp) (by simp))

theorem step_owners (latched : Latched supervisor) (event : SupervisorEvent Token Session Time) :
    let next := step limits tokens supervisor event
    Latched next ∧ (OwnersFenced next.history ↔
      OwnersFenced supervisor.history ∧ Fenced supervisor event) := by
  intro next
  rcases transact_cases (exec limits tokens) supervisor event with done | same
  · change exec limits tokens supervisor event = .ok next at done
    clear_value next
    have unlatching (same : SameOwners supervisor next) : Latched next ∧
        (OwnersFenced next.history ↔ OwnersFenced supervisor.history ∧ True) :=
      ⟨same.latched latched, by rw [same.fenced, and_true]⟩
    cases event with
    | acquire fence purpose reusable ownerLoop now used =>
        obtain ⟨latched', fenced⟩ := acquire_owners latched done
        exact ⟨latched', fenced.trans (and_iff_left trivial).symm⟩
    | publish openingId session now =>
        cases done
        exact publish_owners latched openingId session now
    | failOpening openingId =>
        cases done
        exact unlatching (dropOpening_owners openingId)
    | release target keepAlive used now later => exact unlatching (release_owners done)
    | markLost connectionId reason =>
        cases done
        refine unlatching ?_
        unfold markLost
        split
        · exact .refl supervisor
        · exact .seen rfl rfl (by simp) (by simp)
    | invalidate change =>
        cases done
        exact unlatching (invalidate_owners change)
    | latchOwnerRevocation owner =>
        cases done
        obtain ⟨latched', fenced⟩ := latch_owners latched owner
        exact ⟨latched', fenced.trans (and_iff_left trivial).symm⟩
    | close =>
        cases done
        exact unlatching close_owners
    | detachExpired now =>
        cases done
        exact unlatching (detachEach_owners _ _ _)
    | closeIdle connectionId now =>
        cases done
        refine unlatching ?_
        unfold closeIdle
        split
        · exact .refl supervisor
        · split_ifs
          · exact .seen rfl rfl (by simp) (by simp)
          · exact .refl supervisor
    | closeDetached connectionId =>
        cases done
        exact unlatching (closeDetached_owners connectionId)
    | closeLoop ownerLoop =>
        cases done
        exact unlatching (.same rfl rfl)
  · have same : next = supervisor := same
    rw [same]
    cases event with
    | publish openingId session now =>
        have published : supervisor = publish limits tokens supervisor openingId session now :=
          same.symm
        have owners : Latched (publish limits tokens supervisor openingId session now) ∧ _ :=
          publish_owners latched openingId session now
        rwa [← published] at owners
    | _ => exact ⟨latched, (and_iff_left trivial).symm⟩

theorem run_owners (latched : Latched supervisor)
    (events : List (SupervisorEvent Token Session Time)) :
    OwnersFenced (run (step limits tokens) supervisor events).history ↔
      OwnersFenced supervisor.history ∧ Meets (step limits tokens) Fenced supervisor events := by
  induction events generalizing supervisor with
  | nil => exact (and_iff_left trivial).symm
  | cons event events ih =>
      obtain ⟨latched', fenced⟩ := step_owners latched event
      rw [run_cons, ih latched', fenced, and_assoc]
      rfl

def demoFence : McpConnectionFence := ⟨"server", "spec", 1, "pid:1", none, none, 0⟩

/-- The factory of `pid:1` returns after its owner has been latched. -/
def demoEvents : List (SupervisorEvent Nat Unit Nat) :=
  [.acquire demoFence .read false 0 0 0, .latchOwnerRevocation "pid:1", .publish 0 () 1]

end McpConnectionSupervisor
end AgentLibOS.Mcp
