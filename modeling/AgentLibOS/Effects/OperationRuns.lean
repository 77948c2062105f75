import AgentLibOS.Effects.CallRuns

namespace AgentLibOS.Effects
open Library Library.JoinFold Library.Program Capability ProtectedOperation ProviderTrace

variable {setting : Setting} {contract : ProtectedOperationContract}
  {invocation : ProtectedOperationInvocation} {actor : String}
  {knows : ProviderTrace → List ProviderPhase → Prop} {s t : Local} {phase : ProviderPhase}

/-! ## After the provider function -/

theorem observeDataFlowIngress_triple :
    Triple (discipline setting contract actor) (Running setting contract actor knows)
      (observeDataFlowIngress contract phase) (fun _ => Running setting contract actor knows)
      (Running setting contract actor knows) := by
  refine Triple.bind (memory_triple Running.stable fun _ running => running.kept) fun operation => ?_
  refine Triple.strengthen (P := Running setting contract actor knows) ?_ fun _ holds => holds.1
  refine Triple.ite (fun _ => Triple.value fun _ => id) fun _ => ?_
  refine Triple.ite (fun _ => Triple.value fun _ => id) fun _ => ?_
  refine Triple.bind (fallible_keeps Running.stable) fun _ => ?_
  refine remember_triple Running.stable fun s running => ?_
  have next := running.remembered (K := knows)
    (o := { s.operation with dataFlowIngressObserved := true }) ⟨rfl, rfl, rfl⟩
    running.active (fun _ => Or.inl) running.known
  exact ⟨next.kept, next⟩

/-- The row records one more phase. -/
theorem Running.recordedPhase {row : EffectRow} (running : Running setting contract actor knows s)
    (stored : s.row = some row) {persisted : Bool}
    (done : recordBody (row.completedPhases ++ [phase]) s = .ok (t, persisted)) :
    persisted = true ∧ Running setting contract actor knows t := by
  obtain ⟨row', live⟩ := running.live running.active
  obtain rfl := Option.some.inj (stored.symm.trans live.stored)
  have sent := live.dispatched running.dispatched
  simp only [recordBody, Local.transitionExternalEffect, stored, sent, List.mem_singleton,
    if_true] at done
  obtain ⟨rfl, rfl⟩ := Prod.mk.inj (Except.ok.inj done)
  refine ⟨rfl, ?_⟩
  have live' : LiveRow setting contract actor
      (s.record
        { row with
          activePhase := none
          completedPhases := row.completedPhases ++ [phase]
          transactionState := .dispatched })
      { row with
        activePhase := none
        completedPhases := row.completedPhases ++ [phase]
        transactionState := .dispatched } := by
    refine ⟨rfl, live.pending, Or.inr rfl, fun _ => rfl, fun alone => ?_, fun shared => ?_⟩
    · exact ⟨(live.held alone).reservations, (live.held alone).envelope⟩
    · refine ⟨fun prepared => (by cases prepared), fun spent => ?_, (live.tells shared).evidence⟩
      rw [List.any_append, (live.tells shared).earlier spent, Bool.true_or]
  exact ⟨⟨⟨⟨running.undispatched, running.ended, running.within, running.recorded, live'.kept⟩,
    fun _ => ⟨_, live'⟩⟩, running.active, running.known⟩, running.dispatched⟩

theorem recordCompletedPhase_triple :
    Triple (discipline setting contract actor) (Running setting contract actor knows)
      (recordCompletedPhase contract invocation phase)
      (fun _ => Running setting contract actor knows) (Ready setting contract actor) := by
  refine Triple.bind ((fallible_keeps Running.stable).consequence (fun _ => id) (fun _ _ => id)
    fun _ running => running.toReady) fun _ => ?_
  refine Triple.bind (Triple.read Running.stable (fun _ running => running.kept)
    (Q := fun stored s => Running setting contract actor knows s ∧ s.row = stored)
    fun _ running => ⟨running, rfl⟩) fun stored => ?_
  cases stored with
  | none => exact Triple.throw fun _ holds => holds.1.toReady
  | some row =>
      refine Triple.bind (atomically_triple (stable_with (E := fun _ stored =>
        stored = some row) Running.stable) (fun _ holds => holds.1.kept)
        (Q := fun persisted s => persisted = true ∧ Running setting contract actor knows s) ?_
        (fun _ _ holds _ _ => holds.1.toReady) fun _ _ holds _ _ => holds.1.toReady)
        fun persisted => ?_
      · intro s t persisted holds _ done
        have next := holds.1.recordedPhase holds.2 done
        exact ⟨next.2.kept, next⟩
      · refine Triple.ite (fun _ => Triple.value fun _ holds => holds.2) fun missing => ?_
        exact fun _ holds => absurd holds.1 missing

theorem finishPhase_triple {certified : Bool} :
    Triple (discipline setting contract actor)
      (Running setting contract actor fun trace completed =>
        if certified then Certain setting trace completed
        else ∃ run ∈ trace.all, run.phase = phase ∧ run.outcome = some .returned)
      (finishPhase contract invocation phase certified) (fun _ => Ready setting contract actor)
      (Ready setting contract actor) := by
  cases certified with
  | true => exact handleNotStarted_triple
  | false =>
      refine Triple.bind (observeDataFlowIngress_triple.consequence (fun _ => id) (fun _ _ => id)
        fun _ running => running.toReady) fun _ => ?_
      refine Triple.bind recordCompletedPhase_triple fun _ => ?_
      refine Triple.bind ((fallible_keeps Running.stable).consequence (fun _ => id)
        (fun _ _ => id) fun _ running => running.toReady) fun _ => ?_
      refine Triple.bind (remember_triple Running.stable (Q := Running setting contract actor
        fun trace _ => ∃ run ∈ trace.all, run.phase = phase ∧ run.outcome = some .returned)
        fun s running => ?_) fun _ => ?_
      · have next := running.remembered (K := fun trace _ => ∃ run ∈ trace.all,
            run.phase = phase ∧ run.outcome = some .returned) (o := { s.operation with
              completedPhases := s.operation.completedPhases ++ [phase] }) ⟨rfl, rfl, rfl⟩
          running.active ?_ running.known
        · exact ⟨next.kept, next⟩
        · intro phase' member
          rcases List.mem_append.mp member with before | last
          · exact Or.inl before
          · obtain rfl := List.mem_singleton.mp last
            exact Or.inr running.known
      · refine Triple.ite (fun commits => ?_) fun _ => Triple.value fun _ running => running.toReady
        refine Triple.tryCatch (E := Running setting contract actor fun trace _ =>
            trace.Touched) (((commitReservations_triple fun _ _ known => known).strengthen
          fun s running => running.knowing ?_).consequence (fun _ => id)
            (fun _ _ running => running.toReady) fun _ => id) fun fault => ?_
        · exact Triple.bind finalizeUnknown_triple fun _ => Triple.throw fun _ => id
        · obtain ⟨run, member, rfl, returned⟩ := running.known
          exact ⟨run, member, by simp [PhaseRun.touched, returned, ProviderPhase.effectful, commits]⟩

theorem runFunction_triple :
    Triple (discipline setting contract actor) (Active setting contract actor knows)
      (runFunction contract invocation phase)
      (fun certified => Running setting contract actor fun trace completed =>
        if certified then Certain setting trace completed
        else ∃ run ∈ trace.all, run.phase = phase ∧ run.outcome = some .returned)
      (Ready setting contract actor) := by
  refine Triple.bind dispatchOrAbortNotStarted_triple fun _ => ?_
  refine Triple.bind invokeFunction_triple fun reply => ?_
  cases reply with
  | returned => exact Triple.value fun _ running => running.knowing running.known.1
  | notStartedResult =>
      exact Triple.value fun _ running => running.knowing (running.known.2 (Or.inr rfl))
  | notStarted =>
      refine Triple.bind (handleNotStarted_triple.strengthen fun _ running =>
        running.knowing (running.known.2 (Or.inl rfl))) fun _ => Triple.throw fun _ => id
  | raised fault =>
      refine Triple.strengthen (P := Running setting contract actor fun trace _ =>
        trace.Touched) ?_ fun s running => running.knowing ?_
      · refine Triple.bind (observeDataFlowIngress_triple.consequence (fun _ => id) (fun _ _ => id)
          fun _ running => running.toReady) fun _ => ?_
        refine Triple.bind ((fallible_keeps Running.stable).consequence (fun _ => id)
          (fun _ _ => id) fun _ running => running.toReady) fun _ => ?_
        refine Triple.bind ((commitReservationsBestEffort_triple fun _ _ known =>
          known).consequence (fun _ => id) (fun _ _ => id) fun _ running => running.toReady)
          fun _ => ?_
        exact Triple.bind finalizeUnknown_triple fun _ => Triple.throw fun _ => id
      · obtain ⟨run, member, rfl, failed⟩ := running.known.1
        exact ⟨run, member, by simp [PhaseRun.touched, failed, Reply.outcome]⟩

/-! ## The calls of an operation -/

theorem requireActive_triple :
    Triple (discipline setting contract actor) (Ready setting contract actor) requireActive
      (fun _ => Active setting contract actor fun _ _ => True) (Ready setting contract actor) := by
  refine Triple.bind (memory_triple Ready.stable fun _ ready => ready.kept) fun operation => ?_
  refine Triple.ite (fun _ => Triple.throw fun _ holds => holds.1) fun active => ?_
  refine Triple.value fun s holds => ⟨holds.1, ?_, trivial⟩
  rw [holds.2]
  exact Bool.eq_false_iff.mpr active

/-- A phase scope that raises on leaving loses what its body knew. -/
theorem providerRegistryPhaseScope_triple {α : Type} {body : Op α}
    {knows' : α → ProviderTrace → List ProviderPhase → Prop}
    (triple : Triple (discipline setting contract actor) (Active setting contract actor knows) body
      (fun value => Running setting contract actor (knows' value)) (Ready setting contract actor)) :
    Triple (discipline setting contract actor) (Active setting contract actor knows)
      (providerRegistryPhaseScope invocation body)
      (fun value => Running setting contract actor (knows' value)) (Ready setting contract actor) := by
  refine Triple.ite (fun _ => ?_) fun _ => triple
  refine Triple.bind ((fallible_keeps Active.stable).consequence (fun _ => id) (fun _ _ => id)
    fun _ active => active.toReady) fun _ => ?_
  refine Triple.bind triple.attempt fun result => ?_
  cases result with
  | ok value =>
      exact Triple.bind ((fallible_keeps Running.stable).consequence (fun _ => id) (fun _ _ => id)
        fun _ running => running.toReady) fun _ => Triple.value fun _ => id
  | error fault =>
      exact Triple.bind (fallible_keeps Ready.stable) fun _ => Triple.throw fun _ => id

theorem call_triple :
    Triple (discipline setting contract actor) (Ready setting contract actor)
      (call contract invocation phase) (fun _ => Ready setting contract actor)
      (Ready setting contract actor) := by
  refine Triple.bind requireActive_triple fun _ => ?_
  exact Triple.bind (providerRegistryPhaseScope_triple runFunction_triple) fun _ =>
    finishPhase_triple

theorem acall_triple :
    Triple (discipline setting contract actor) (Ready setting contract actor)
      (acall contract invocation phase) (fun _ => Ready setting contract actor)
      (Ready setting contract actor) := by
  refine Triple.bind requireActive_triple fun _ => ?_
  refine Triple.ite (fun _ => Triple.throw fun _ active => active.toReady) fun _ => ?_
  exact Triple.bind runFunction_triple fun _ => finishPhase_triple

theorem completionFailed_triple {fault : Fault} :
    Triple (discipline setting contract actor) (Running setting contract actor knows)
      (completionFailed contract invocation fault) (fun _ => Ready setting contract actor)
      (Ready setting contract actor) := by
  refine Triple.bind (Q := fun _ => Closed setting contract actor False) ?_
    fun settlement => ?_
  · refine Triple.consequence (Triple.attempt (Q := fun _ =>
      Closed setting contract actor False) (E := Closed setting contract actor False)
        (Triple.bind (runFailureSettlement_triple.consequence (fun _ => id) (fun _ _ => id)
          fun _ running => running.closed) fun _ => ?_)) (fun _ => id) ?_ fun _ => id
    · refine Triple.bind (memory_triple Running.stable fun _ running => running.kept)
        fun operation => ?_
      refine Triple.strengthen (P := Closed setting contract actor False) ?_
        fun _ holds => holds.1.closed
      exact Triple.ite (fun _ => settleResourceReservationUnknown_triple) fun _ =>
        Triple.value fun _ => id
    · intro result s holds
      cases result <;> exact holds
  · refine Triple.bind closing_triple fun _ => ?_
    refine Triple.bind ((fallible_keeps Closed.stable).consequence (fun _ => id)
      (fun _ _ closed => closed.ready) fun _ closed => closed.ready) fun _ => ?_
    cases settlement with
    | error raised => exact Triple.throw fun _ => id
    | ok _ => exact Triple.ite (fun _ => Triple.value fun _ => id) fun _ => Triple.throw fun _ => id

theorem spentWithin_floor {flags : EffectFlags} {completed : List ProviderPhase}
    (careful : Careful setting contract s (.completion flags) .returned)
    (same : s.operation.completedPhases = completed) (alone : setting = .alone) :
    SpentWithin s.trace.all (phaseFlags flags completed) := by
  have within := careful alone rfl
  rwa [same] at within

theorem complete_triple {completion : Completion} :
    Triple (discipline setting contract actor) (Ready setting contract actor)
      (complete contract invocation completion) (fun _ => Ready setting contract actor)
      (Ready setting contract actor) := by
  refine Triple.bind requireActive_triple fun _ => ?_
  refine Triple.bind (memory_triple Active.stable fun _ active => active.kept) fun operation => ?_
  refine Triple.ite (fun _ => Triple.throw fun _ holds => holds.1.toReady) fun dispatched => ?_
  refine Triple.strengthen (P := Running setting contract actor fun _ completed =>
    completed = operation.completedPhases) ?_ fun s holds => ?_
  · refine Triple.bind (Q := fun _ => Running setting contract actor fun _ completed =>
      completed = operation.completedPhases) ?_ fun _ => ?_
    · refine Triple.ite (fun _ => Triple.throw fun _ running => running.toReady) fun _ => ?_
      refine Triple.ite (fun _ => Triple.throw fun _ running => running.toReady) fun _ => ?_
      exact (fallible_keeps Running.stable).consequence (fun _ => id) (fun _ _ => id)
        fun _ running => running.toReady
    · refine Triple.bind (Triple.attempt (Triple.bind (settle_triple fun s running careful alone =>
        spentWithin_floor careful running.known alone) fun _ => closing_triple))
        fun finalized => ?_
      cases finalized with
      | error fault => exact completionFailed_triple
      | ok _ =>
          refine Triple.bind ((fallible_keeps Closed.stable).consequence (fun _ => id)
            (fun _ _ => id) fun _ closed => closed.ready) fun _ => ?_
          refine Triple.bind ((fallible_keeps Closed.stable).consequence (fun _ => id)
            (fun _ _ => id) fun _ closed => closed.ready) fun _ => ?_
          exact chargeResource_triple.consequence (fun _ => id) (fun _ _ closed => closed.ready)
            fun _ closed => closed.ready
  · obtain ⟨active, rfl⟩ := holds
    exact ⟨⟨active.toReady, active.active, rfl⟩, by simpa using dispatched⟩

theorem exit_triple {failing : Bool} :
    Triple (discipline setting contract actor) (Ready setting contract actor)
      (exit contract invocation failing) (fun _ => Ready setting contract actor)
      (Ready setting contract actor) := by
  have settles : Triple (discipline setting contract actor) (Ready setting contract actor)
      (exitSettlement contract invocation failing) (fun _ => Ready setting contract actor)
      (Ready setting contract actor) := by
    refine Triple.bind (memory_triple Ready.stable fun _ ready => ready.kept) fun operation => ?_
    refine Triple.ite (fun _ => Triple.value fun _ holds => holds.1) fun active => ?_
    refine Triple.ite (fun idle => ?_) fun dispatched => ?_
    · refine Triple.bind (abortNotStarted_triple.strengthen fun s holds => ?_) fun _ =>
        Triple.value fun _ => id
      obtain ⟨ready, rfl⟩ := holds
      refine ⟨ready, Bool.eq_false_iff.mpr active, fun _ touched => ?_⟩
      obtain ⟨run, member, -⟩ := touched
      rw [ready.undispatched (by simpa using idle)] at member
      cases member
    · refine Triple.bind (Triple.strengthen (P := Running setting contract actor fun _ _ => True)
        finalizeUnknown_triple fun s holds => ?_) fun _ => Triple.value fun _ => id
      obtain ⟨ready, rfl⟩ := holds
      exact ⟨⟨ready, Bool.eq_false_iff.mpr active, trivial⟩, by simpa using dispatched⟩
  refine Triple.bind (settles.attempt.consequence (B := fun _ =>
    Ready setting contract actor) (fun _ => id) (fun result s holds => ?_) fun _ => id)
    fun settlement => ?_
  · cases result <;> exact holds
  refine Triple.bind ((fallible_keeps Ready.stable).attempt.consequence (B := fun _ =>
    Ready setting contract actor) (fun _ => id) (fun result s holds => ?_) fun _ => id)
    fun scope => ?_
  · cases result <;> exact holds
  rcases settlement with fault | _ | _ <;> rcases scope with fault' | _ <;> first
    | exact Triple.throw fun _ => id
    | exact Triple.value fun _ => id

/-! ## Prepare -/

/-- A new operation that reserves: what it has reserved can be given back. -/
structure Reserving (s : Local) : Prop where
  trace : s.trace = .empty
  active : s.operation.terminal = false
  idle : s.operation.dispatched = false
  completed : s.operation.completedPhases = []
  unreserved : s.operation.resourceReserved = false
  envelope : s.envelope = none
  returnable : ∀ id ∈ s.operation.reservationIds, s.Returnable id

theorem CapabilityRow.takeUses_ok {row row' : CapabilityRow} {count : Nat}
    (taken : row.takeUses count = some row') : ∃ uses, row'.usesRemaining = some uses ∧
      (row'.status = .active ∨ row'.status = .revoked) := by
  unfold CapabilityRow.takeUses at taken
  cases left : row.usesRemaining with
  | none => simp [left] at taken
  | some uses =>
      simp only [left] at taken
      split_ifs at taken with live spent
      · obtain rfl := Option.some.inj taken
        exact ⟨_, rfl, Or.inr rfl⟩
      · obtain rfl := Option.some.inj taken
        exact ⟨_, rfl, Or.inl live.1⟩

theorem Reserving.decision {consumed : String × String} (reserving : Reserving s)
    (done : reserveDecision contract invocation s consumed = .ok t) : Reserving t := by
  unfold reserveDecision at done
  split_ifs at done
  · obtain rfl := Except.ok.inj done
    exact reserving
  · split at done
    · rename_i row taken absent
      obtain rfl := Except.ok.inj done
      obtain ⟨old, found, taken⟩ := Option.bind_eq_some_iff.mp taken
      obtain ⟨uses, finite, status⟩ := CapabilityRow.takeUses_ok taken
      refine ⟨reserving.trace, reserving.active, reserving.idle, reserving.completed,
        reserving.unreserved, reserving.envelope, fun id member => ?_⟩
      have mine : Restorable (s.setCapability consumed.1 row).capabilities consumed.1 :=
        ⟨row, uses, by simp [Local.setCapability], finite, status⟩
      rcases List.mem_append.mp member with before | last
      · obtain ⟨reservation, stored, reserved, row', uses', found', finite', status'⟩ :=
          reserving.returnable id before
        have apart : id ≠ consumed.2 := by
          rintro rfl
          rw [stored] at absent
          cases absent
        refine ⟨reservation, by simp [Local.setReservation, Local.setCapability, apart, stored],
          reserved, ?_⟩
        by_cases same : reservation.capId = consumed.1
        · rw [same]
          exact mine
        · exact ⟨row', uses', by simp [Local.setReservation, Local.setCapability, same, found'],
            finite', status'⟩
      · obtain rfl := List.mem_singleton.mp last
        exact ⟨⟨consumed.1, .reserved, invocation.actor,
          "protected operation reserved authority for " ++ contract.name⟩,
          by simp [Local.setReservation], rfl, mine⟩
    · cases done

theorem Reserving.decisions {consumes : List (String × String)} (reserving : Reserving s)
    (done : consumes.foldlM (reserveDecision contract invocation) s = .ok t) : Reserving t := by
  induction consumes generalizing s with
  | nil =>
      obtain rfl := Except.ok.inj done
      exact reserving
  | cons consumed consumes ih =>
      rw [List.foldlM_cons] at done
      obtain ⟨u, first, rest⟩ := Library.Run.bind_eq_ok.mp done
      exact ih (reserving.decision first) rest

/-- An operation before its prepare. -/
structure Fresh (setting : Setting) (s : Local) : Prop where
  operation : s.operation = .new
  row : s.row = none
  trace : s.trace = .empty
  envelope : s.envelope = none

theorem Fresh.stable : Stable (discipline setting contract actor) (Fresh setting) := by
  intro s t relied fresh
  obtain ⟨operation, row, trace⟩ := Rely.fields relied
  refine ⟨operation.trans fresh.operation, row.trans fresh.row, trace.trans fresh.trace, ?_⟩
  rw [show t.envelope = t.toCell.envelope from rfl, relied.1]
  exact fresh.envelope

theorem Fresh.kept (fresh : Fresh setting s) : Kept setting contract actor s := by
  have none_ : ¬ s.trace.Spent := by
    rw [fresh.trace]
    rintro ⟨run, member, -⟩
    cases member
  cases setting with
  | shared =>
      intro row stored
      rw [fresh.row] at stored
      cases stored
  | alone =>
      refine .of_aborted none_ fresh.row ?_ ?_ <;> rw [fresh.operation]
      · exact fun id member => by cases member
      · exact nofun

theorem Fresh.prepared (fresh : Fresh setting s) {value : Unit}
    (done : prepareBody contract invocation s = .ok (t, value)) :
    Ready setting contract invocation.actor t := by
  obtain ⟨u, reserved, last⟩ := Library.Run.bind_eq_ok.mp done
  have reserving : Reserving u := by
    refine Reserving.decisions ⟨fresh.trace, ?_, ?_, ?_, ?_, fresh.envelope, ?_⟩ reserved <;>
      rw [fresh.operation]
    · rfl
    · rfl
    · rfl
    · rfl
    · exact fun id member => by cases member
  obtain ⟨rfl, -⟩ := Prod.mk.inj (Except.ok.inj last)
  clear done last reserved
  have empty : u.trace.all = [] := by rw [reserving.trace]; rfl
  have untouched : ∀ id ∈ u.operation.reservationIds, ∃ reservation,
      u.reservations id = some reservation ∧ reservation.status ≠ .restored ∧
        (¬ u.trace.Touched → reservation.status = .reserved ∧
          Restorable u.capabilities reservation.capId) := by
    intro id member
    obtain ⟨reservation, stored, held, restorable⟩ := reserving.returnable id member
    exact ⟨reservation, stored, by rw [held]; decide, fun _ => ⟨held, restorable⟩⟩
  have live : ∀ v : Local, v.trace = u.trace → v.reservations = u.reservations →
      v.capabilities = u.capabilities → v.operation.reservationIds = u.operation.reservationIds →
      v.operation.dispatched = u.operation.dispatched →
      v.row = some ⟨contract.flags, .pending, .prepared,
        some ⟨contract.name, invocation.actor, u.operation.reservationIds⟩, [], none,
        some invocation.idempotencyKey⟩ →
      v.envelope = (if v.operation.resourceReserved then some .active else none) →
      v.operation.completedPhases = [] → v.operation.terminal = false →
      Ready setting contract invocation.actor v := by
    intro v trace reservations capabilities ids dispatched row envelope completed active
    have live : LiveRow setting contract invocation.actor v
        ⟨contract.flags, .pending, .prepared,
          some ⟨contract.name, invocation.actor, u.operation.reservationIds⟩, [], none,
          some invocation.idempotencyKey⟩ := by
      refine ⟨row, rfl, Or.inl rfl, ?_, fun _ => ⟨fun id member => ?_, envelope⟩, fun _ =>
        ⟨fun _ => by rw [trace]; exact empty, ?_, by rw [ids]⟩⟩
      · rw [dispatched, reserving.idle]
        exact nofun
      · unfold HeldReservation
        rw [reservations, trace, capabilities]
        exact untouched id (ids ▸ member)
      · rw [trace, reserving.trace]
        rintro ⟨run, member, -⟩
        cases member
    refine ⟨⟨fun _ => by rw [trace]; exact empty, ?_, ?_, ?_, live.kept⟩, fun _ => ⟨_, live⟩⟩
    · rw [trace, empty]
      exact fun run member => by cases member
    · rw [trace, empty]
      exact fun run member => by cases member
    · rw [completed]
      exact fun phase member => by cases member
  split_ifs with reserves
  · exact live _ rfl rfl rfl rfl rfl rfl rfl reserving.completed reserving.active
  · exact live _ rfl rfl rfl rfl rfl rfl
      (by simp [Local.record, reserving.unreserved, reserving.envelope]) reserving.completed
      reserving.active

theorem prepare_triple :
    Triple (discipline setting contract invocation.actor) (Fresh setting)
      (prepare contract invocation) (fun _ => Ready setting contract invocation.actor)
      fun _ => True := by
  refine atomically_triple Fresh.stable (fun _ fresh => fresh.kept) ?_ (fun _ _ _ _ _ => trivial)
    fun _ _ _ _ _ => trivial
  exact fun s t value fresh _ done => ⟨(fresh.prepared done).kept, fresh.prepared done⟩

/-! ## Whole runs -/

theorem perform_triple {step : CallerStep} :
    Triple (discipline setting contract actor) (Ready setting contract actor)
      (step.perform contract invocation) (fun _ => Ready setting contract actor)
      (Ready setting contract actor) := by
  cases step with
  | call phase => exact call_triple
  | acall phase => exact acall_triple
  | complete completion => exact complete_triple

theorem performAll_triple {steps : List CallerStep} :
    Triple (discipline setting contract actor) (Ready setting contract actor)
      (performAll contract invocation steps) (fun _ => Ready setting contract actor)
      (Ready setting contract actor) := by
  induction steps with
  | nil => exact Triple.value fun _ => id
  | cons step steps ih =>
      refine Triple.bind perform_triple.attempt fun result => ih.strengthen fun s holds => ?_
      cases result <;> exact holds

/-- Every operation keeps what it must, under careful replies. -/
theorem protectedOperation_safe {steps : List CallerStep} {failing : Bool}
    (fresh : Fresh setting s) :
    Safe (discipline setting contract invocation.actor) (fun _ _ => True)
      (protectedOperation contract invocation steps failing) s := by
  have triple : Triple (discipline setting contract invocation.actor) (Fresh setting)
      (protectedOperation contract invocation steps failing) (fun _ _ => True) fun _ => True := by
    refine Triple.bind prepare_triple fun _ => ?_
    refine Triple.bind (performAll_triple.consequence (fun _ => id) (fun _ _ => id)
      fun _ _ => trivial) fun _ => ?_
    exact exit_triple.consequence (fun _ => id) (fun _ _ _ => trivial) fun _ _ => trivial
  exact (triple s fresh).mono fun _ _ _ => trivial

end AgentLibOS.Effects
