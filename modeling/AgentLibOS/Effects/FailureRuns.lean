import AgentLibOS.Effects.PhaseRuns

namespace AgentLibOS.Effects
open Library Library.JoinFold Library.Program Capability ProtectedOperation ProviderTrace

variable {setting : Setting} {contract : ProtectedOperationContract}
  {invocation : ProtectedOperationInvocation} {actor : String}
  {knows : ProviderTrace → List ProviderPhase → Prop} {final : Prop} {s t : Local}

/-! ## Flags -/

theorem flags_le_phaseFlags {start : EffectFlags} {phases : List ProviderPhase}
    {phase : ProviderPhase} (member : phase ∈ phases) : phase.flags ≤ phaseFlags start phases :=
  le_joinAll (List.mem_cons_of_mem _ (List.mem_map_of_mem member))

theorem start_le_phaseFlags {start : EffectFlags} {phases : List ProviderPhase} :
    start ≤ phaseFlags start phases :=
  le_joinAll List.mem_cons_self

theorem Ended.spentWithin_ceiling (ended : Ended setting contract actor s)
    (active : Option ProviderPhase) :
    SpentWithin s.trace.all (effectCeiling contract s.operation.completedPhases active) :=
  fun run member _ => (ended.within run member).trans start_le_phaseFlags

/-! ## Charging -/

theorem charge_triple {changed : Local → Option Local}
    (charging : ∀ s t, changed s = some t →
      ∃ status, s.settleUsageReservation status = some t ∧ status ≠ .released) :
    Triple (discipline setting contract actor) (Closed setting contract actor final)
      (atomically .charge fun s => orRaise (changed s)) (fun _ => Closed setting contract actor final)
      (Closed setting contract actor final) := by
  refine atomically_triple Closed.stable (fun _ closed => closed.kept) ?_
    (fun _ _ closed _ _ => closed) fun _ _ closed _ _ => closed
  intro s t value closed _ done
  obtain ⟨status, settled, other⟩ := charging s t (orRaise_ok done)
  exact ⟨(closed.charged settled other).kept, closed.charged settled other⟩

theorem chargeResource_triple {resource : Option ResourceSettlement} :
    Triple (discipline setting contract actor) (Closed setting contract actor final)
      (chargeResource resource) (fun _ => Closed setting contract actor final)
      (Closed setting contract actor final) := by
  cases resource with
  | none => exact Triple.value fun _ => id
  | some settlement =>
      refine Triple.bind (fallible_keeps Closed.stable) fun _ => ?_
      refine Triple.bind (memory_triple Closed.stable fun _ closed => closed.kept) fun operation => ?_
      refine Triple.strengthen (P := Closed setting contract actor final) ?_ fun _ holds => holds.1
      refine Triple.ite (fun _ => charge_triple fun s t settled => ⟨_, settled, ?_⟩) fun _ =>
        fallible_keeps Closed.stable
      split_ifs <;> simp

theorem settleResourceReservationUnknown_triple :
    Triple (discipline setting contract actor) (Closed setting contract actor final)
      settleResourceReservationUnknown (fun _ => Closed setting contract actor final)
      (Closed setting contract actor final) :=
  Triple.bind (fallible_keeps Closed.stable) fun _ =>
    charge_triple fun _ _ settled => ⟨_, settled, by simp⟩

theorem failureResourceSettlement_triple {phase : String} :
    Triple (discipline setting contract actor) (Closed setting contract actor final)
      (failureResourceSettlement contract invocation phase)
      (fun _ => Closed setting contract actor final) (Closed setting contract actor final) := by
  refine Triple.bind (fallible_keeps Closed.stable) fun _ => ?_
  cases invocation.failureResource phase with
  | some settlement =>
      refine Triple.ite (fun _ => Triple.throw fun _ => id) fun _ => ?_
      exact Triple.value fun _ => id
  | none =>
      refine Triple.ite (fun _ => Triple.value fun _ => id) fun _ => ?_
      exact Triple.ite (fun _ => Triple.value fun _ => id) fun _ => Triple.throw fun _ => id

theorem runFailureSettlement_triple :
    Triple (discipline setting contract actor) (Running setting contract actor knows)
      (runFailureSettlement invocation) (fun _ => Running setting contract actor knows)
      (Running setting contract actor knows) := by
  refine Triple.bind (memory_triple Running.stable fun _ running => running.kept) fun operation => ?_
  refine Triple.strengthen (P := Running setting contract actor knows) ?_ fun _ holds => holds.1
  refine Triple.ite (fun _ => Triple.value fun _ => id) fun _ => ?_
  refine Triple.bind (remember_triple Running.stable
    (Q := Running setting contract actor knows) fun s running => ?_) fun _ =>
      fallible_keeps Running.stable
  have next := running.remembered (K := knows)
    (o := { s.operation with failureSettlementRun := true }) ⟨rfl, rfl, rfl⟩
    running.active (fun _ => Or.inl) running.known
  exact ⟨next.kept, next⟩

/-! ## Failures -/

theorem closing_triple {raised : Local → Prop} :
    Triple (discipline setting contract actor) (Closed setting contract actor final)
      (remember fun operation => { operation with terminal := true })
      (fun _ => Closed setting contract actor True) raised :=
  remember_triple Closed.stable fun _ closed =>
    ⟨closed.toEnded.terminated.kept, closed.toEnded.terminated.toEnded, closed.row, fun _ => rfl⟩

theorem settle_triple {question : Question} {flags : EffectFlags} {state : TransactionState}
    {evidence : Option ProtectedEvidence}
    (within : ∀ s, Running setting contract actor knows s →
      Careful setting contract s question .returned → setting = .alone →
        SpentWithin s.trace.all flags) :
    Triple (discipline setting contract actor) (Running setting contract actor knows)
      (atomically question (finalizeBody flags state evidence))
      (fun _ => Closed setting contract actor False) (Running setting contract actor knows) := by
  refine atomically_triple Running.stable (fun _ running => running.kept) ?_
    (fun _ _ running _ _ => running) fun _ _ running _ _ => running
  intro s t value running careful done
  have closed := running.finalized (within s running careful) done
  exact ⟨closed.kept, closed⟩

theorem chargeFailure_triple {phase : String} {settled : Bool} :
    Triple (discipline setting contract actor) (Closed setting contract actor final)
      (chargeFailure contract invocation phase settled)
      (fun _ => Closed setting contract actor final) (Closed setting contract actor final) := by
  refine Triple.ite (fun _ => ?_) fun _ => Triple.value fun _ => id
  refine Triple.bind failureResourceSettlement_triple fun resource => ?_
  refine Triple.bind (memory_triple Closed.stable fun _ closed => closed.kept) fun operation => ?_
  refine Triple.strengthen (P := Closed setting contract actor final) ?_ fun _ holds => holds.1
  exact Triple.ite (fun _ => settleResourceReservationUnknown_triple) fun _ => chargeResource_triple

theorem settleFailure_triple {flags : EffectFlags} {phase : String}
    (within : ∀ s, Running setting contract actor knows s → setting = .alone →
      SpentWithin s.trace.all flags) :
    Triple (discipline setting contract actor) (Running setting contract actor knows)
      (settleFailure contract invocation flags phase) (fun _ => Ready setting contract actor)
      (Ready setting contract actor) := by
  refine Triple.bind runFailureSettlement_triple.attempt fun settlement => ?_
  have running : ∀ s, Outcome (fun _ => Running setting contract actor knows)
      (Running setting contract actor knows) settlement s →
        Running setting contract actor knows s := by
    cases settlement <;> exact fun _ => id
  refine Triple.strengthen ?_ running
  refine Triple.bind (Q := fun _ => Closed setting contract actor False) ?_ fun settled => ?_
  · refine Triple.tryCatch (E := Running setting contract actor knows)
      (Triple.bind (settle_triple fun s running _ => within s running) fun _ =>
        Triple.value fun _ => id) fun fault => ?_
    cases fault with
    | exception => exact Triple.value fun _ running => running.closed
    | interrupt => exact Triple.throw fun _ running => running.toReady
  · refine Triple.bind closing_triple fun _ => ?_
    refine Triple.bind (chargeFailure_triple.consequence (fun _ => id) (fun _ _ => id)
      fun _ closed => closed.ready) fun _ => ?_
    refine Triple.bind ((fallible_keeps Closed.stable).consequence (fun _ => id)
      (fun _ _ closed => closed.ready) fun _ closed => closed.ready) fun _ => ?_
    cases settlement with
    | ok _ => exact Triple.value fun _ => id
    | error fault => exact Triple.throw fun _ => id

theorem finalizeUnknown_triple {phase : String} {active : Option ProviderPhase} :
    Triple (discipline setting contract actor) (Running setting contract actor knows)
      (finalizeUnknown contract invocation phase active) (fun _ => Ready setting contract actor)
      (Ready setting contract actor) := by
  refine Triple.bind (memory_triple Running.stable fun _ running => running.kept) fun operation => ?_
  refine Triple.strengthen (P := Running setting contract actor knows) ?_ fun _ holds => holds.1
  refine Triple.ite (fun _ => Triple.value fun _ running => running.toReady) fun _ => ?_
  refine Triple.bind ((fallible_keeps Running.stable).consequence (fun _ => id) (fun _ _ => id)
    fun _ running => running.toReady) fun _ => ?_
  refine Triple.bind (memory_triple Running.stable fun _ running => running.kept) fun operation => ?_
  refine Triple.strengthen (P := Running setting contract actor fun trace _ =>
    SpentWithin trace.all (effectCeiling contract operation.completedPhases active))
    (settleFailure_triple fun s running _ => running.known) fun s holds => ?_
  exact holds.1.knowing (holds.2 ▸ holds.1.spentWithin_ceiling active)

/-- Nothing of `runs` is forgotten where the completed phases decide that nothing has started. -/
def Certain (setting : Setting) (trace : ProviderTrace) (completed : List ProviderPhase) : Prop :=
  setting = .alone → Accounted completed trace.all

theorem Running.touched_of_completed (running : Running setting contract actor knows s)
    (effectful : s.operation.completedPhases.any (·.effectful) = true) : s.trace.Touched := by
  obtain ⟨phase, member, effectful⟩ := List.any_eq_true.mp effectful
  obtain ⟨run, inside, rfl, returned⟩ := running.recorded phase member
  exact ⟨run, inside, by simp [PhaseRun.touched, returned, effectful]⟩

theorem handleNotStarted_triple {phase : ProviderPhase} :
    Triple (discipline setting contract actor)
      (Running setting contract actor fun trace completed => Certain setting trace completed)
      (handleNotStarted contract invocation phase) (fun _ => Ready setting contract actor)
      (Ready setting contract actor) := by
  refine Triple.bind (memory_triple Running.stable fun _ running => running.kept) fun operation => ?_
  refine Triple.ite (fun quiet => ?_) fun effectful => ?_
  · refine abortNotStarted_triple.strengthen fun s holds => ?_
    obtain ⟨running, rfl⟩ := holds
    refine ⟨running.toReady, running.active, fun alone touched => ?_⟩
    obtain ⟨run, member, touched⟩ := touched
    have quiet' : s.operation.completedPhases.any (·.effectful) = false := by
      simpa [List.filter_eq_nil_iff] using quiet
    rw [(running.known alone).untouched quiet' member] at touched
    cases touched
  · have some_ : operation.completedPhases.any (·.effectful) = true := by
      simpa [List.filter_eq_nil_iff] using effectful
    refine Triple.strengthen (P := Running setting contract actor fun trace _ =>
        trace.Touched ∧ (setting = .alone → SpentWithin trace.all
          (phaseFlags (false, false) (operation.completedPhases.filter (·.effectful))))) ?_ fun s holds => ?_
    · refine Triple.bind ((commitReservationsBestEffort_triple fun _ _ known => known.1).consequence
        (fun _ => id) (fun _ _ => id) fun _ running => running.toReady) fun _ => ?_
      refine Triple.bind ((fallible_keeps Running.stable).consequence (fun _ => id) (fun _ _ => id)
        fun _ running => running.toReady) fun _ => ?_
      exact settleFailure_triple fun s running => running.known.2
    · obtain ⟨running, rfl⟩ := holds
      refine running.knowing ⟨running.touched_of_completed some_, fun alone => ?_⟩
      have accounted := running.known alone
      rwa [Accounted, if_pos some_] at accounted

end AgentLibOS.Effects
