import AgentLibOS.Mcp.ContinuationHistory

namespace AgentLibOS.Mcp
open Library Library.Run ContinuationStore

variable {Payload Digest : Type} {hash : ContentHash Payload Digest} {limits : ContinuationLimits}
  {origin : McpContinuationRecord Digest} {manager manager' : McpContinuationManager Payload Digest}

/-- What callers and boundaries hold stays known when the history grows. -/
theorem Running.hold (running : Running hash limits origin manager) {history : List (Moment Digest)}
    (grows : ∀ moment ∈ manager.history, moment ∈ history) :
    (∀ invocation ∈ manager.invocations,
      .wrote invocation.claimed ∈ history ∧ invocation.claimed.status = .dispatching ∧
        ∃ brokerRef, invocation.claimed.broker =
          some (brokerRef, hash.digest invocation.envelope)) ∧
    ∀ plan ∈ manager.plans, ∃ base, .wrote base ∈ history ∧
      plan.preparation.operationRevision = base.revision ∧
      plan.target.revision = base.revision + 1 ∧ Planned hash limits base plan := by
  constructor
  · intro invocation member
    obtain ⟨written, status⟩ := running.invocations invocation member
    exact ⟨grows _ written, status⟩
  · intro plan member
    obtain ⟨base, written, planned⟩ := running.plans plan member
    exact ⟨base, grows _ written, planned⟩

/-- The row stays, and what the process holds in memory gets smaller. -/
theorem Running.forget (running : Running hash limits origin manager)
    (row : manager'.store.row = manager.store.row) (history : manager'.history = manager.history)
    (invocations : manager'.invocations ⊆ manager.invocations)
    (plans : manager'.plans ⊆ manager.plans) (drawn : manager.drawn ≤ manager'.drawn)
    (sidecar : ∀ plan ∈ manager.plans, ∀ owner, manager'.store.sidecar = some owner →
      owner.1.preparationId = plan.preparation.preparationId → owner.1 = plan.preparation) :
    Running hash limits origin manager' where
  ledger := by
    rw [row, history]
    exact running.ledger
  standing := by
    rw [row, history]
    exact running.standing
  invocations := by
    intro invocation member
    rw [history]
    exact running.invocations invocation (invocations member)
  plans := by
    intro plan member
    rw [history]
    exact running.plans plan (plans member)
  drawn := fun plan member => Nat.lt_of_lt_of_le (running.drawn plan (plans member)) drawn
  sidecar := fun plan member => sidecar plan (plans member)

namespace McpContinuationManager

theorem invocation_mem {revision : Nat} {invocation : Invocation Payload Digest}
    (found : manager.invocation? revision = some invocation) :
    invocation ∈ manager.invocations ∧ invocation.claimed.revision = revision :=
  ⟨List.mem_of_find?_eq_some found, by simpa using List.find?_some found⟩

theorem endInvocation_running (running : Running hash limits origin manager) (revision : Nat) :
    Running hash limits origin (manager.endInvocation revision) :=
  running.forget rfl rfl (List.filter_subset_self _) (List.Subset.refl _) (Nat.le_refl _)
    running.sidecar

/-! ## Dispatch -/

theorem loadEnvelope_ok [DecidableEq Digest] {record : McpContinuationRecord Digest}
    {secret : Option (Envelope Payload)} {envelope : Envelope Payload}
    (loaded : loadEnvelope hash record secret = .ok envelope) :
    ∃ brokerRef, record.broker = some (brokerRef, hash.digest envelope) := by
  unfold loadEnvelope at loaded
  split at loaded
  · rename_i brokerRef valueSha256 value broker
    simp only [bind_eq_ok, ensure_ok, exists_const] at loaded
    obtain ⟨same, done⟩ := loaded
    cases done
    exact ⟨brokerRef, by rw [broker, same]⟩
  · cases loaded

/-- A claim of a version that waits for input. -/
theorem claim_running (running : Running hash limits origin manager) {call : ContinuationCall}
    {record : McpContinuationRecord Digest} {envelope : Envelope Payload} {now : Nat}
    (known : .wrote record ∈ manager.history) (status : record.status = .inputRequired)
    (loaded : ∃ brokerRef, record.broker = some (brokerRef, hash.digest envelope))
    (done : manager.claim call record envelope now = .ok manager') :
    Running hash limits origin manager' := by
  simp only [claim, bind_eq_ok] at done
  obtain ⟨⟨store, written⟩, swap, done⟩ := done
  cases written with
  | false => cases done
  | true =>
      cases done
      obtain ⟨row, found, revision, _, identity, _, rfl⟩ := compareAndSwap_ok swap
      have here : record = row := running.ledger.eq_of_revision found known revision
      subst here
      have ledger := running.ledger
      rw [found] at ledger
      have live : record.status.terminal = false := by
        rw [status]
        rfl
      have standing := (running.standing record found).pending status
      have claims := ledger.write identity rfl live fun _ => status
      have older : ∀ call before, .invoked call before ∈ manager.history →
          Resolved manager.history before := standing.1
      have dispatch : LawfulDispatch (.wrote (claimedRecord record now) :: manager.history)
          (claimedRecord record now) := {
        status := rfl
        claims := rfl
        once := by
          intro other before invoked
          rcases List.mem_cons.mp invoked with now | earlier
          · cases now
          · have written := ledger.lawful.wrote_of_invoked earlier
            have bound := (ledger.versions record rfl before written).2.1
            exact Nat.ne_of_lt (Nat.lt_succ_of_le bound)
        resolved := by
          intro other before invoked
          rcases List.mem_cons.mp invoked with now | earlier
          · cases now
          · exact (older other before earlier).later _
        live := by
          intro before written
          rcases List.mem_cons.mp written with now | earlier
          · cases now
            rfl
          · exact claims.lawful.1.live before earlier
        present := by
          intro removed
          rcases List.mem_cons.mp removed with now | earlier
          · cases now
          · exact claims.lawful.1.present earlier }
      have held := running.hold fun moment member =>
        List.mem_cons_of_mem (.invoked call (claimedRecord record now))
          (List.mem_cons_of_mem (.wrote (claimedRecord record now)) member)
      constructor
      · exact claims.note dispatch (by simp) (by simp)
      · intro record' same
        cases same
        refine ⟨fun pending => (by cases pending), fun _ => ⟨?_, standing.2⟩⟩
        intro other before invoked
        rcases List.mem_cons.mp invoked with now | earlier
        · cases now
          exact Or.inl rfl
        · rcases List.mem_cons.mp earlier with now | earlier
          · cases now
          · exact Or.inr (((older other before earlier).later _).later _)
      · intro invocation member
        rcases List.mem_cons.mp member with rfl | before
        · exact ⟨List.mem_cons_of_mem _ List.mem_cons_self, rfl, loaded⟩
        · exact held.1 invocation before
      · exact held.2
      · exact running.drawn
      · exact running.sidecar

theorem respond_running [DecidableEq Digest] (running : Running hash limits origin manager)
    {record : McpContinuationRecord Digest} {expectedRevision : Nat}
    {binding : McpContinuationBinding} {humanRequestId : String}
    {secret : Option (Envelope Payload)} {now later : Nat}
    (done : respond hash limits manager record expectedRevision binding humanRequestId secret now
      later = .ok manager') : Running hash limits origin manager' := by
  simp only [respond, preparePending, bind_eq_ok, ensure_ok, exists_const] at done
  obtain ⟨known, ⟨_, _, status, _⟩, _, envelope, loaded, _, done⟩ := done
  exact claim_running running known status (loadEnvelope_ok loaded) done

theorem cancel_running [DecidableEq Digest] (running : Running hash limits origin manager)
    {record : McpContinuationRecord Digest} {expectedRevision : Nat}
    {binding : McpContinuationBinding} {secret : Option (Envelope Payload)} {now later : Nat}
    (done : cancel hash manager record expectedRevision binding secret now later =
      .ok manager') : Running hash limits origin manager' := by
  simp only [cancel, preparePending, bind_eq_ok, ensure_ok, exists_const] at done
  obtain ⟨known, ⟨_, _, status, _⟩, envelope, loaded, done⟩ := done
  exact claim_running running known status (loadEnvelope_ok loaded) done

/-- A note about a boundary call does not change what is resolved. -/
theorem note_running (running : Running hash limits origin manager) {moment : Moment Digest}
    (lawful : LawfulMoment limits manager.history moment)
    (unwritten : ∀ record, moment ≠ .wrote record) (kept : moment ≠ .removed)
    (uninvoked : ∀ call claimed, moment ≠ .invoked call claimed)
    (same : rounds (moment :: manager.history) = rounds manager.history) :
    Running hash limits origin { manager with history := moment :: manager.history } := by
  have held := running.hold fun _ member => List.mem_cons_of_mem moment member
  refine ⟨running.ledger.note lawful unwritten kept, ?_, held.1, held.2, running.drawn,
    running.sidecar⟩
  intro record found
  have standing := running.standing record found
  constructor
  · intro status
    obtain ⟨resolved, brokerRef, envelope, broker, round⟩ := standing.pending status
    refine ⟨fun call before invoked => ?_, brokerRef, envelope, broker, round.trans same.symm⟩
    rcases List.mem_cons.mp invoked with now | earlier
    · exact absurd now.symm (uninvoked call before)
    · exact (resolved call before earlier).later _
  · intro status
    obtain ⟨resolved, brokerRef, envelope, broker, round⟩ := standing.dispatching status
    refine ⟨fun call before invoked => ?_, brokerRef, envelope, broker, round.trans same.symm⟩
    rcases List.mem_cons.mp invoked with now | earlier
    · exact absurd now.symm (uninvoked call before)
    · exact (resolved call before earlier).imp_right fun before => before.later _

theorem notStarted_running (running : Running hash limits origin manager) (revision now : Nat) :
    Running hash limits origin (manager.notStarted revision now) := by
  unfold notStarted
  cases found : manager.invocation? revision with
  | none => exact running
  | some invocation =>
      have ended : Running hash limits origin { manager.endInvocation revision with
          history := .certified invocation.claimed.revision :: manager.history } :=
        note_running (endInvocation_running running revision) trivial (by simp) (by simp)
          (by simp) rfl
      obtain ⟨written, status, _⟩ := running.invocations invocation (invocation_mem found).1
      dsimp only
      split
      · rename_i store swap
        obtain ⟨row, present, same, _, identity, _, rfl⟩ := compareAndSwap_ok swap
        have here := running.ledger.eq_of_revision present written same
        subst here
        have ledger := ended.ledger
        rw [show (McpContinuationManager.store { manager.endInvocation revision with
          history := .certified invocation.claimed.revision :: manager.history }).row =
            some invocation.claimed from present] at ledger
        have live : invocation.claimed.status.terminal = false := by
          rw [status]
          rfl
        have standing := (running.standing _ present).dispatching status
        have held := ended.hold fun _ member =>
          List.mem_cons_of_mem (.wrote (restoredRecord invocation.claimed now)) member
        refine ⟨ledger.write identity rfl live (fun claims => (by cases claims)), ?_, held.1,
          held.2, running.drawn, running.sidecar⟩
        intro record same
        cases same
        refine ⟨fun _ => ⟨?_, standing.2⟩, fun claims => (by cases claims)⟩
        intro call before invoked
        rcases List.mem_cons.mp invoked with now | earlier
        · cases now
        · rcases List.mem_cons.mp earlier with now | earlier
          · cases now
          · rcases standing.1 call before earlier with rfl | resolved
            · exact Or.inl (List.mem_cons_of_mem _ List.mem_cons_self)
            · exact (resolved.later _).later _
      · exact ended

/-! ## Prepared transitions -/

theorem prepare_running (running : Running hash limits origin manager) {plan : Plan Digest}
    {base : McpContinuationRecord Digest} (written : .wrote base ∈ manager.history)
    (named : plan.preparation.preparationId = manager.drawn)
    (revision : plan.preparation.operationRevision = base.revision)
    (target : plan.target.revision = base.revision + 1) (planned : Planned hash limits base plan)
    (done : manager.prepare plan = .ok manager') : Running hash limits origin manager' := by
  simp only [prepare, bind_eq_ok] at done
  obtain ⟨store, inserted, done⟩ := done
  cases done
  obtain ⟨rfl, _⟩ := insertPreparation_ok inserted
  refine ⟨running.ledger, running.standing, running.invocations, ?_, ?_, ?_⟩
  · intro other member
    rcases List.mem_cons.mp member with rfl | before
    · exact ⟨base, written, revision, target, planned⟩
    · exact running.plans other before
  · intro other member
    rcases List.mem_cons.mp member with rfl | before
    · exact Nat.lt_succ_of_le (Nat.le_of_eq named)
    · exact Nat.lt_succ_of_lt (running.drawn other before)
  · intro other member owner present same
    cases present
    rcases List.mem_cons.mp member with rfl | before
    · rfl
    · have below := running.drawn other before
      rw [← same, named] at below
      exact absurd below (Nat.lt_irrefl _)

theorem retire_running (running : Running hash limits origin manager)
    {record : McpContinuationRecord Digest} {status : McpContinuationStatus}
    {metadata : ContinuationMetadata} {now : Nat} (written : .wrote record ∈ manager.history)
    (open_ : record.status ≠ .needsAttention) (terminal : status.terminal = true)
    (done : manager.retire record status metadata now = .ok manager') :
    Running hash limits origin manager' :=
  prepare_running running written rfl rfl rfl (Or.inl ⟨rfl, open_, terminal⟩) done

theorem settle_running (running : Running hash limits origin manager) {revision now : Nat}
    {result : ResponseResult Payload Digest}
    (done : settle hash limits manager revision result now = .ok manager') :
    Running hash limits origin manager' := by
  unfold settle at done
  split at done
  · rename_i claimed envelope found
    obtain ⟨written, status, brokerRef, broker⟩ :=
      running.invocations _ (invocation_mem found).1
    have open_ : claimed.status ≠ .needsAttention := by
      rw [show claimed.status = .dispatching from status]
      decide
    split at done
    · rename_i payload respondable humanRequestId brokerRef'
      simp only [bind_eq_ok, ensure_ok, exists_const] at done
      obtain ⟨bound, done⟩ := done
      split_ifs at done
      · refine prepare_running running written rfl rfl rfl (Or.inr ?_) done
        exact ⟨envelope.round + 1, rfl, status, rfl, rfl, bound, ⟨brokerRef, envelope, broker, rfl⟩,
          ⟨brokerRef', ⟨envelope.round + 1, payload⟩, rfl, rfl⟩⟩
      · exact retire_running running written open_ rfl done
    · exact prepare_running running written rfl rfl rfl (Or.inl ⟨rfl, open_, rfl⟩) done
    · exact retire_running running written open_ rfl done
  · cases done

/-- A commit that ends the open round. -/
theorem commitEnd_running (running : Running hash limits origin manager)
    {row target : McpContinuationRecord Digest}
    {sidecar : Option (Preparation Digest × PreparationStatus)}
    (present : manager.store.row = some row) (identity : sameIdentity row target)
    (revision : target.revision = row.revision + 1) (live : row.status.terminal = false)
    (terminal : target.status.terminal = true)
    (owned : ∀ plan ∈ manager.plans, ∀ owner, sidecar = some owner →
      owner.1.preparationId = plan.preparation.preparationId → owner.1 = plan.preparation) :
    Running hash limits origin { manager with
      store := ⟨some target, sidecar⟩
      history := .wrote target :: manager.history } := by
  have ledger := running.ledger
  rw [present] at ledger
  have held := running.hold fun _ member => List.mem_cons_of_mem (.wrote target) member
  refine ⟨ledger.write identity revision live ?_, ?_, held.1, held.2, running.drawn, owned⟩
  · intro claims
    rw [claims] at terminal
    cases terminal
  · intro record same
    cases same
    constructor
    · intro status
      rw [status] at terminal
      cases terminal
    · intro status
      rw [status] at terminal
      cases terminal

/-- A commit that opens the next round. -/
theorem commitRound_running (running : Running hash limits origin manager)
    {row target : McpContinuationRecord Digest}
    {sidecar : Option (Preparation Digest × PreparationStatus)}
    (present : manager.store.row = some row) (identity : sameIdentity row target)
    (next : NextRound row target) (status : row.status = .dispatching)
    {round : Nat} (number : round = rounds manager.history + 1) (bound : round ≤ limits.maxRounds)
    {brokerRef : String} {envelope : Envelope Payload}
    (broker : target.broker = some (brokerRef, hash.digest envelope))
    (counts : envelope.round = round)
    (owned : ∀ plan ∈ manager.plans, ∀ owner, sidecar = some owner →
      owner.1.preparationId = plan.preparation.preparationId → owner.1 = plan.preparation) :
    Running hash limits origin { manager with
      store := ⟨some target, sidecar⟩
      history := .wrote target :: .opened round :: manager.history } := by
  have ledger : Ledger limits origin (.opened round :: manager.history) manager.store.row :=
    running.ledger.note ⟨number, bound⟩ (by simp) (by simp)
  rw [present] at ledger
  have live : row.status.terminal = false := by
    rw [status]
    rfl
  have standing := (running.standing row present).dispatching status
  have held := running.hold fun _ member =>
    List.mem_cons_of_mem (.wrote target) (List.mem_cons_of_mem (.opened round) member)
  refine ⟨ledger.write identity next.revision live ?_, ?_, held.1, held.2, running.drawn, owned⟩
  · intro claims
    rw [next.status] at claims
    cases claims
  · intro record same
    cases same
    constructor
    · intro _
      refine ⟨fun call before invoked => ?_, brokerRef, envelope, broker, counts.trans number⟩
      rcases List.mem_cons.mp invoked with now | earlier
      · cases now
      · rcases List.mem_cons.mp earlier with now | earlier
        · cases now
        · rcases standing.1 call before earlier with rfl | resolved
          · exact Or.inr ⟨target, List.mem_cons_self, next⟩
          · exact (resolved.later _).later _
    · intro claims
      rw [next.status] at claims
      cases claims

theorem commit_running [DecidableEq Digest] (running : Running hash limits origin manager)
    {preparationId : Nat} (done : manager.commit preparationId = .ok manager') :
    Running hash limits origin manager' := by
  unfold commit at done
  split at done
  · cases done
  · rename_i plan listed
    have member := List.mem_of_find?_eq_some listed
    have named : plan.preparation.preparationId = preparationId := by
      simpa using List.find?_some listed
    obtain ⟨⟨store, written⟩, committed, done⟩ := bind_eq_ok.mp done
    cases written with
    | false => cases done
    | true =>
        cases done
        obtain ⟨preparation, row, owner, same, present, revision, bound, identity, allowed, rfl⟩ :=
          commitPreparation_ok committed
        have here : preparation = plan.preparation :=
          running.sidecar plan member _ owner (same.trans named.symm)
        subst here
        obtain ⟨base, known, planRevision, target, planned⟩ := running.plans plan member
        have base_eq := running.ledger.eq_of_revision present known (revision.trans planRevision)
        subst base_eq
        have owned : ∀ other ∈ manager.plans, ∀ owner',
            some (plan.preparation, PreparationStatus.cleaning .retire) = some owner' →
              owner'.1.preparationId = other.preparation.preparationId →
                owner'.1 = other.preparation := by
          intro other listed owner' cleaned id
          cases cleaned
          exact running.sidecar other listed (plan.preparation, .prepared) owner id
        rcases planned with ⟨none, open_, terminal⟩ |
          ⟨round, some, status, pending, human, limit, ⟨brokerRef, envelope, broker, number⟩,
            brokerRef', envelope', broker', counts⟩
        · have live : base.status.terminal = false := by
            cases status : base.status with
            | inputRequired => rfl
            | dispatching => rfl
            | needsAttention => exact absurd status open_
            | _ =>
                rw [status] at allowed
                cases allowed
          rw [none]
          exact commitEnd_running running present identity target live terminal owned
        · obtain ⟨_, brokerRef₀, envelope₀, broker₀, counts₀⟩ :=
            (running.standing base present).dispatching status
          have same : envelope = envelope₀ := by
            rw [broker] at broker₀
            exact hash.collisionFree (Prod.mk.inj (Option.some.inj broker₀)).2
          subst same
          have next : NextRound base plan.target := by
            refine ⟨target, pending, ?_, brokerRef', _, broker', ?_⟩
            · intro same
              simp only [requireCommitBinding, bind_eq_ok, ensure_ok, exists_const] at bound
              have planned := bound.2.2.2.1
              rw [human, same] at planned
              simp at planned
            · intro before listed same
              rw [broker] at listed
              cases listed
              have same := hash.collisionFree same
              rw [same] at counts
              omega
          rw [some]
          exact commitRound_running running present identity next status (by rw [number, counts₀])
            limit broker' counts owned

theorem cancelled_running (running : Running hash limits origin manager) (revision now : Nat) :
    Running hash limits origin (manager.cancelled revision now) := by
  unfold cancelled
  split
  · rename_i claimed envelope found
    obtain ⟨written, status, _⟩ := running.invocations _ (invocation_mem found).1
    have ended := endInvocation_running running revision
    dsimp only
    split
    · rename_i prepared done
      refine retire_running ended written ?_ rfl done
      rw [show claimed.status = .dispatching from status]
      decide
    · exact ended
  · exact running

theorem markAttention_running (running : Running hash limits origin manager) {revision : Nat}
    {reason : String} {now : Nat}
    (done : manager.markAttention revision reason now = .ok manager') :
    Running hash limits origin manager' := by
  unfold markAttention at done
  split at done
  · cases done
    exact running
  · rename_i row present
    split_ifs at done with stale
    · cases done
      exact running
    · have newest := running.ledger.newest
      rw [present] at newest
      exact retire_running running (LawfulHistory.wrote_of_current newest) (not_or.mp stale).2 rfl
        done

/-! ## Restart and retention -/

theorem sidecar_kept (running : Running hash limits origin manager)
    {sidecar : Option (Preparation Digest × PreparationStatus)}
    (same : ∀ owner, sidecar = some owner →
      ∃ status, manager.store.sidecar = some (owner.1, status)) :
    ∀ plan ∈ manager.plans, ∀ owner, sidecar = some owner →
      owner.1.preparationId = plan.preparation.preparationId → owner.1 = plan.preparation := by
  intro plan member owner present id
  obtain ⟨status, before⟩ := same owner present
  exact running.sidecar plan member (owner.1, status) before id

theorem claimCleanup_running (running : Running hash limits origin manager) (preparationId : Nat) :
    Running hash limits origin
      { manager with store := manager.store.claimCleanup preparationId } := by
  unfold claimCleanup
  split
  · rename_i preparation owner
    split_ifs
    · refine running.forget rfl rfl (List.Subset.refl _) (List.Subset.refl _) (Nat.le_refl _)
        (sidecar_kept running ?_)
      intro owner' cleaned
      cases cleaned
      exact ⟨.prepared, owner⟩
    · exact running
  · exact running

theorem deletePreparation_running (running : Running hash limits origin manager)
    (preparationId : Nat) :
    Running hash limits origin
      { manager with store := manager.store.deletePreparation preparationId } := by
  unfold deletePreparation
  split
  · split_ifs
    · refine running.forget rfl rfl (List.Subset.refl _) (List.Subset.refl _) (Nat.le_refl _) ?_
      rintro plan _ owner ⟨⟩
    · exact running
  · exact running

theorem crash_running (running : Running hash limits origin manager) :
    Running hash limits origin manager.crash :=
  running.forget rfl rfl (List.nil_subset _) (List.nil_subset _) (Nat.le_refl _) running.sidecar

theorem reconciled_running (running : Running hash limits origin manager)
    (done : manager.reconciled = .ok manager') : Running hash limits origin manager' := by
  simp only [reconciled, bind_eq_ok, ensure_ok, exists_const] at done
  obtain ⟨none, done⟩ := done
  cases done
  refine note_running running ?_ (by simp) (by simp) (by simp) rfl
  intro record newest
  rw [running.ledger.newest] at newest
  exact none record newest

theorem prune_running [DecidableEq Digest] (running : Running hash limits origin manager)
    {record : McpContinuationRecord Digest} (done : manager.prune record = .ok manager') :
    Running hash limits origin manager' := by
  simp only [prune, bind_eq_ok, ensure_ok, exists_const] at done
  obtain ⟨_, store, inserted, done⟩ := done
  cases done
  obtain ⟨rfl, _⟩ := insertPreparation_ok inserted
  refine running.forget rfl rfl (List.Subset.refl _) (List.Subset.refl _) (Nat.le_succ _) ?_
  rintro plan member owner ⟨⟩ same
  have below := running.drawn plan member
  rw [← same] at below
  exact absurd below (Nat.lt_irrefl _)

theorem remove_running (running : Running hash limits origin manager) {preparationId : Nat}
    (done : manager.remove preparationId = .ok manager') : Running hash limits origin manager' := by
  simp only [remove, bind_eq_ok] at done
  obtain ⟨⟨store, removed⟩, committed, done⟩ := done
  cases removed with
  | false => cases done
  | true =>
      cases done
      obtain ⟨preparation, row, owner, present, terminal, rfl⟩ := commitTerminal_ok committed
      have held := running.hold fun _ member => List.mem_cons_of_mem .removed member
      refine ⟨⟨List.mem_cons_of_mem _ running.ledger.captured, ⟨⟨row, ?_, terminal⟩,
        running.ledger.lawful⟩, rfl, ?_, fun _ => rfl⟩, ?_, held.1, held.2, running.drawn,
        sidecar_kept running ?_⟩
      · exact running.ledger.newest.trans present
      · rintro record ⟨⟩
      · rintro record ⟨⟩
      · intro owner' cleaned
        cases cleaned
        exact ⟨.prepared, owner⟩

theorem start_running (captured : CapturedContinuation hash) :
    Running hash limits captured.record (start captured) where
  ledger :=
    { captured := by simp [start]
      lawful := by
        refine ⟨⟨rfl, limits.positive⟩, ⟨?_, ?_, ?_, ?_⟩, trivial⟩
        · rintro before ⟨⟩
        · rintro before ⟨⟩
        · intro claims
          rw [captured.status] at claims
          cases claims
        · rintro ⟨⟩
      newest := rfl
      versions := by
        intro record same before written
        cases same
        have here : before = captured.record := by simpa [start] using written
        subst here
        exact ⟨⟨rfl, rfl, rfl, rfl⟩, Nat.le_refl _, Or.inl rfl⟩
      present := by simp [start] }
  standing := by
    intro record same
    cases same
    constructor
    · exact fun _ => ⟨by simp [start], captured.brokerRef, _, captured.broker, rfl⟩
    · intro claims
      rw [captured.status] at claims
      cases claims
  invocations := by simp [start]
  plans := by simp [start]
  drawn := by simp [start]
  sidecar := by simp [start]

/-! ## Boundary calls -/

theorem claim_invokes {call : ContinuationCall} {record : McpContinuationRecord Digest}
    {envelope : Envelope Payload} {now : Nat}
    (done : manager.claim call record envelope now = .ok manager') {other : ContinuationCall}
    {claimed : McpContinuationRecord Digest} (invoked : .invoked other claimed ∈ manager'.history) :
    .invoked other claimed ∈ manager.history ∨ some call = some other := by
  simp only [claim, bind_eq_ok] at done
  obtain ⟨⟨store, written⟩, _, done⟩ := done
  cases written with
  | false => cases done
  | true =>
      cases done
      rcases List.mem_cons.mp invoked with now | earlier
      · cases now
        exact Or.inr rfl
      · exact Or.inl (by simpa using earlier)

theorem prepare_history {plan : Plan Digest} (done : manager.prepare plan = .ok manager') :
    manager'.history = manager.history := by
  simp only [prepare, bind_eq_ok] at done
  obtain ⟨store, _, done⟩ := done
  cases done
  rfl

theorem retire_history {record : McpContinuationRecord Digest} {status : McpContinuationStatus}
    {metadata : ContinuationMetadata} {now : Nat}
    (done : manager.retire record status metadata now = .ok manager') :
    manager'.history = manager.history :=
  prepare_history done

theorem settle_history {revision now : Nat} {result : ResponseResult Payload Digest}
    (done : settle hash limits manager revision result now = .ok manager') :
    manager'.history = manager.history := by
  unfold settle at done
  split at done
  · split at done
    · simp only [bind_eq_ok, ensure_ok, exists_const] at done
      obtain ⟨_, done⟩ := done
      split_ifs at done
      · exact prepare_history done
      · exact retire_history done
    · exact prepare_history done
    · exact retire_history done
  · cases done

theorem notStarted_invokes {revision now : Nat} {call : ContinuationCall}
    {claimed : McpContinuationRecord Digest}
    (invoked : .invoked call claimed ∈ (manager.notStarted revision now).history) :
    .invoked call claimed ∈ manager.history := by
  unfold notStarted at invoked
  split at invoked
  · exact invoked
  · dsimp only at invoked
    split at invoked
    · simpa using invoked
    · simpa using invoked

theorem cancelled_history (revision now : Nat) :
    (manager.cancelled revision now).history = manager.history := by
  unfold cancelled
  split
  · dsimp only
    split
    · rename_i prepared done
      have kept : prepared.history = (manager.endInvocation revision).history :=
        retire_history done
      exact kept
    · rfl
  · rfl

variable [DecidableEq Digest]

theorem commit_invokes {preparationId : Nat} (done : manager.commit preparationId = .ok manager')
    {call : ContinuationCall} {claimed : McpContinuationRecord Digest}
    (invoked : .invoked call claimed ∈ manager'.history) :
    .invoked call claimed ∈ manager.history := by
  unfold commit at done
  split at done
  · cases done
  · rename_i plan _
    obtain ⟨⟨store, written⟩, _, done⟩ := bind_eq_ok.mp done
    cases written with
    | false => cases done
    | true =>
        cases done
        cases round : plan.round with
        | none => simpa [round] using invoked
        | some number => simpa [round] using invoked

theorem step_running (running : Running hash limits origin manager)
    (event : ContinuationEvent Payload Digest) :
    Running hash limits origin (step hash limits manager event) := by
  rcases transact_cases (exec hash limits) manager event with done | same
  · change exec hash limits manager event = .ok (step hash limits manager event) at done
    generalize step hash limits manager event = manager' at done ⊢
    cases event with
    | respond record expectedRevision binding humanRequestId secret now later =>
        exact respond_running running done
    | cancel record expectedRevision binding secret now later => exact cancel_running running done
    | settle revision result now => exact settle_running running done
    | commit preparationId => exact commit_running running done
    | notStarted revision now =>
        cases done
        exact notStarted_running running revision now
    | boundaryEnds revision =>
        cases done
        exact endInvocation_running running revision
    | cancelled revision now =>
        cases done
        exact cancelled_running running revision now
    | markAttention revision reason now => exact markAttention_running running done
    | expire record now =>
        simp only [exec, expire, bind_eq_ok, ensure_ok, exists_const] at done
        obtain ⟨known, ⟨status, _⟩, done⟩ := done
        exact retire_running running known (by rw [status]; decide) rfl done
    | interrupt record now =>
        simp only [exec, interrupt, bind_eq_ok, ensure_ok, exists_const] at done
        obtain ⟨known, status, done⟩ := done
        exact retire_running running known (by rw [status]; decide) rfl done
    | reconciled => exact reconciled_running running done
    | prune record => exact prune_running running done
    | remove preparationId => exact remove_running running done
    | claimCleanup preparationId =>
        cases done
        exact claimCleanup_running running preparationId
    | deletePreparation preparationId =>
        cases done
        exact deletePreparation_running running preparationId
    | crash =>
        cases done
        exact crash_running running
  · change step hash limits manager event = manager at same
    rw [same]
    exact running

/-- Only `respond` and `cancel` reach the boundary. -/
theorem step_invokes (event : ContinuationEvent Payload Digest) {call : ContinuationCall}
    {claimed : McpContinuationRecord Digest}
    (invoked : .invoked call claimed ∈ (step hash limits manager event).history) :
    .invoked call claimed ∈ manager.history ∨ event.calls = some call := by
  rcases transact_cases (exec hash limits) manager event with done | same
  · change exec hash limits manager event = .ok (step hash limits manager event) at done
    generalize step hash limits manager event = manager' at done invoked
    cases event with
    | respond record expectedRevision binding humanRequestId secret now later =>
        simp only [exec, respond, preparePending, bind_eq_ok, ensure_ok, exists_const] at done
        obtain ⟨_, _, _, envelope, _, _, done⟩ := done
        exact claim_invokes done invoked
    | cancel record expectedRevision binding secret now later =>
        simp only [exec, cancel, preparePending, bind_eq_ok, ensure_ok, exists_const] at done
        obtain ⟨_, _, envelope, _, done⟩ := done
        exact claim_invokes done invoked
    | settle revision result now => exact Or.inl (settle_history done ▸ invoked)
    | commit preparationId => exact Or.inl (commit_invokes done invoked)
    | notStarted revision now =>
        cases done
        exact Or.inl (notStarted_invokes invoked)
    | cancelled revision now =>
        cases done
        rw [cancelled_history] at invoked
        exact Or.inl invoked
    | markAttention revision reason now =>
        simp only [exec, markAttention] at done
        split at done
        · cases done
          exact Or.inl invoked
        · split_ifs at done
          · cases done
            exact Or.inl invoked
          · exact Or.inl (retire_history done ▸ invoked)
    | expire record now =>
        simp only [exec, expire, bind_eq_ok, ensure_ok, exists_const] at done
        exact Or.inl (retire_history done.2.2 ▸ invoked)
    | interrupt record now =>
        simp only [exec, interrupt, bind_eq_ok, ensure_ok, exists_const] at done
        exact Or.inl (retire_history done.2.2 ▸ invoked)
    | reconciled =>
        simp only [exec, reconciled, bind_eq_ok, ensure_ok, exists_const] at done
        obtain ⟨_, done⟩ := done
        cases done
        exact Or.inl (by simpa using invoked)
    | prune record =>
        simp only [exec, prune, bind_eq_ok, ensure_ok, exists_const] at done
        obtain ⟨_, store, _, done⟩ := done
        cases done
        exact Or.inl invoked
    | remove preparationId =>
        simp only [exec, remove, bind_eq_ok] at done
        obtain ⟨⟨store, removed⟩, _, done⟩ := done
        cases removed with
        | false => cases done
        | true =>
            cases done
            exact Or.inl (by simpa using invoked)
    | _ =>
        cases done
        exact Or.inl invoked
  · change step hash limits manager event = manager at same
    rw [same] at invoked
    exact Or.inl invoked

end McpContinuationManager
end AgentLibOS.Mcp
