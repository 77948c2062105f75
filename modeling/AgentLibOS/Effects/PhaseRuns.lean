import AgentLibOS.Effects.Settlement

namespace AgentLibOS.Effects
open Library Library.JoinFold Library.Program Capability ProtectedOperation

variable {setting : Setting} {contract : ProtectedOperationContract} {actor : String}
  {knows : ProviderTrace → List ProviderPhase → Prop} {s t : Local} {α : Type}

/-! ## Building blocks -/

section Blocks
variable {P Q R : Local → Prop} {question : Question}

theorem fallible_triple (stable : Stable (discipline setting contract actor) P)
    (passed : ∀ s, P s → Careful setting contract s question .returned → Q s)
    (refused : ∀ s reply, P s → Careful setting contract s question reply →
      reply ≠ .returned → R s) :
    Triple (discipline setting contract actor) P (fallible question) (fun _ => Q) R := by
  refine Triple.bind (Triple.request stable (F := fun reply s => P s ∧
    Careful setting contract s question reply) fun s reply holds careful => ⟨holds, careful⟩)
    fun reply => ?_
  cases reply with
  | returned => exact fun s holds => passed s holds.1 holds.2
  | raised fault => exact fun s holds => refused s _ holds.1 holds.2 nofun
  | notStarted => exact fun s holds => refused s _ holds.1 holds.2 nofun
  | notStartedResult => exact fun s holds => refused s _ holds.1 holds.2 nofun

theorem fallible_keeps (stable : Stable (discipline setting contract actor) P) :
    Triple (discipline setting contract actor) P (fallible question) (fun _ => P) P :=
  fallible_triple stable (fun _ holds _ => holds) fun _ _ holds _ _ => holds

theorem atomically_triple {body : Local → Except Fault (Local × α)} {Q : α → Local → Prop}
    (stable : Stable (discipline setting contract actor) P)
    (inv : ∀ s, P s → Kept setting contract actor s)
    (committed : ∀ s t value, P s → Careful setting contract s question .returned →
      body s = .ok (t, value) → Kept setting contract actor t ∧ Q value t)
    (aborted : ∀ s err, P s → Careful setting contract s question .returned →
      body s = .error err → R s)
    (refused : ∀ s reply, P s → Careful setting contract s question reply →
      reply ≠ .returned → R s) :
    Triple (discipline setting contract actor) P (atomically question body) Q R := by
  refine Triple.bind (fallible_triple stable (Q := fun s => P s ∧
    Careful setting contract s question .returned) (fun s holds careful => ⟨holds, careful⟩) refused)
    fun _ => Triple.transaction ?_ (fun s holds => inv s holds.1)
      (fun s t value holds => committed s t value holds.1 holds.2)
      fun s err holds => aborted s err holds.1 holds.2
  exact fun s t relied holds => ⟨stable s t relied holds.1, holds.2.relied relied⟩

theorem memory_triple (stable : Stable (discipline setting contract actor) P)
    (inv : ∀ s, P s → Kept setting contract actor s) :
    Triple (discipline setting contract actor) P memory
      (fun operation s => P s ∧ s.operation = operation) R :=
  Triple.read stable inv fun _ holds => ⟨holds, rfl⟩

theorem remember_triple {change : Operation → Operation}
    (stable : Stable (discipline setting contract actor) P)
    (kept : ∀ s, P s → Kept setting contract actor { s with operation := change s.operation } ∧
      Q { s with operation := change s.operation }) :
    Triple (discipline setting contract actor) P (remember change) (fun _ => Q) R :=
  Triple.act stable kept

end Blocks

theorem Ended.stable :
    Stable (discipline setting contract actor) (Ended setting contract actor) :=
  fun _ _ => Ended.relied

theorem Ready.stable :
    Stable (discipline setting contract actor) (Ready setting contract actor) :=
  fun _ _ => Ready.relied

theorem Active.stable :
    Stable (discipline setting contract actor) (Active setting contract actor knows) :=
  fun _ _ => Active.relied

theorem Running.stable :
    Stable (discipline setting contract actor) (Running setting contract actor knows) :=
  fun _ _ => Running.relied

theorem Closed.stable {final : Prop} :
    Stable (discipline setting contract actor) (Closed setting contract actor final) :=
  fun _ _ => Closed.relied

/-! ## Changes of the operation object -/

/-- The parts of the object that assertions are about. -/
structure SameLife (before after : Operation) : Prop where
  reservationIds : after.reservationIds = before.reservationIds
  resourceReserved : after.resourceReserved = before.resourceReserved
  dispatched : after.dispatched = before.dispatched

theorem Kept.remembered {operation : Operation} (same : SameLife s.operation operation)
    (kept : Kept setting contract actor s) :
    Kept setting contract actor { s with operation := operation } := by
  cases setting with
  | alone =>
      exact ⟨kept.kept, by rw [same.reservationIds]; exact kept.unrestored, kept.unreleased,
        kept.flags, by rw [same.reservationIds]; exact kept.restored,
        by rw [same.resourceReserved]; exact kept.released⟩
  | shared =>
      intro row stored pending
      have tells := kept row stored pending
      exact ⟨tells.prepared, tells.earlier, by rw [same.reservationIds]; exact tells.evidence⟩

theorem Ended.remembered {operation : Operation} (same : SameLife s.operation operation)
    (completed : ∀ phase ∈ operation.completedPhases, phase ∈ s.operation.completedPhases ∨
      ∃ run ∈ s.trace.all, run.phase = phase ∧ run.outcome = some .returned)
    (ended : Ended setting contract actor s) :
    Ended setting contract actor { s with operation := operation } :=
  ⟨by rw [same.dispatched]; exact ended.undispatched, ended.ended, ended.within,
    fun phase member => (completed phase member).elim (ended.recorded phase) id,
    ended.kept.remembered same⟩

theorem LiveRow.remembered {operation : Operation} {row : EffectRow}
    (same : SameLife s.operation operation) (live : LiveRow setting contract actor s row) :
    LiveRow setting contract actor { s with operation := operation } row where
  stored := live.stored
  pending := live.pending
  state := live.state
  dispatched := by
    rw [same.dispatched]
    exact live.dispatched
  held := by
    intro alone
    obtain ⟨reservations, envelope⟩ := live.held alone
    exact ⟨by rw [same.reservationIds]; exact reservations,
      by rw [same.resourceReserved]; exact envelope⟩
  tells := by
    intro shared
    have tells := live.tells shared
    exact ⟨tells.prepared, tells.earlier, by rw [same.reservationIds]; exact tells.evidence⟩

/-- A running operation goes on with a changed object. -/
theorem Running.remembered {o : Operation}
    {K : ProviderTrace → List ProviderPhase → Prop} (same : SameLife s.operation o)
    (active : o.terminal = false)
    (completed : ∀ phase ∈ o.completedPhases, phase ∈ s.operation.completedPhases ∨
      ∃ run ∈ s.trace.all, run.phase = phase ∧ run.outcome = some .returned)
    (known : K s.trace o.completedPhases)
    (running : Running setting contract actor knows s) :
    Running setting contract actor K { s with operation := o } where
  toEnded := running.toEnded.remembered same completed
  live := fun _ => (running.live running.active).imp fun _ live => live.remembered same
  active := active
  known := known
  dispatched := same.dispatched.trans running.dispatched

/-- Once it is terminal, an operation needs no live row. -/
theorem Ended.terminated (ended : Ended setting contract actor s) :
    Ready setting contract actor
      { s with operation := { s.operation with terminal := true } } where
  toEnded := ended.remembered ⟨rfl, rfl, rfl⟩ fun _ member => Or.inl member
  live := nofun

theorem terminate_triple {raised : Local → Prop} :
    Triple (discipline setting contract actor) (Ended setting contract actor)
      (remember fun operation => { operation with terminal := true })
      (fun _ => Ready setting contract actor) raised :=
  remember_triple Ended.stable fun _ ended => ⟨ended.terminated.kept, ended.terminated⟩

/-! ## Committing reservations -/

theorem Held.committed (held : Held s) (touched : s.trace.Touched) :
    Held { s with
      reservations := fun id => if id ∈ s.operation.reservationIds then
        (s.reservations id).map Local.committedReservation else s.reservations id } where
  reservations := by
    intro id member
    obtain ⟨reservation, stored, unrestored, -⟩ := held.reservations id member
    refine ⟨Local.committedReservation reservation, ?_, ?_, fun untouched =>
      absurd touched untouched⟩
    · simp only
      rw [if_pos member, stored, Option.map_some]
    · unfold Local.committedReservation
      split_ifs <;> simp [unrestored]
  envelope := held.envelope

theorem Running.committed (touching : ∀ trace completed, knows trace completed → trace.Touched)
    (running : Running setting contract actor knows s) {value : Unit}
    (done : commitBody s = .ok (t, value)) : Running setting contract actor knows t := by
  obtain ⟨rfl, -⟩ := Prod.mk.inj (Except.ok.inj done)
  rw [Local.commitAll_eq]
  obtain ⟨row, live⟩ := running.live running.active
  have live' : LiveRow setting contract actor { s with
      reservations := fun id => if id ∈ s.operation.reservationIds then
        (s.reservations id).map Local.committedReservation else s.reservations id } row :=
    ⟨live.stored, live.pending, live.state, live.dispatched,
      fun alone => (live.held alone).committed (touching _ _ running.known),
      fun shared => ⟨(live.tells shared).prepared, (live.tells shared).earlier,
        (live.tells shared).evidence⟩⟩
  exact ⟨⟨⟨⟨running.undispatched, running.ended, running.within, running.recorded, live'.kept⟩,
    fun _ => ⟨row, live'⟩⟩, running.active, running.known⟩, running.dispatched⟩

theorem commitReservations_triple
    (touching : ∀ trace completed, knows trace completed → trace.Touched) :
    Triple (discipline setting contract actor) (Running setting contract actor knows)
      commitReservations (fun _ => Running setting contract actor knows)
      (Running setting contract actor knows) := by
  refine Triple.bind (memory_triple Running.stable fun _ running => running.kept) fun operation => ?_
  refine Triple.ite (fun _ => Triple.value fun _ holds => holds.1) fun _ => ?_
  refine Triple.strengthen (P := Running setting contract actor knows) ?_ fun _ holds => holds.1
  refine Triple.bind (atomically_triple Running.stable (fun _ running => running.kept)
    (Q := fun _ => Running setting contract actor knows) ?_ (fun _ _ running _ _ => running)
    fun _ _ running _ _ => running) fun _ => ?_
  · intro s t value running _ done
    exact ⟨(running.committed touching done).kept, running.committed touching done⟩
  · refine Triple.bind (remember_triple Running.stable
      (Q := Running setting contract actor knows) fun s running => ?_) fun _ =>
        fallible_keeps Running.stable
    have next := running.remembered (K := knows)
      (o := { s.operation with reservationsCommitted := true }) ⟨rfl, rfl, rfl⟩
      running.active (fun _ => Or.inl) running.known
    exact ⟨next.kept, next⟩

theorem commitReservationsBestEffort_triple
    (touching : ∀ trace completed, knows trace completed → trace.Touched) :
    Triple (discipline setting contract actor) (Running setting contract actor knows)
      commitReservationsBestEffort (fun _ => Running setting contract actor knows)
      (Running setting contract actor knows) := by
  refine Triple.tryCatch (commitReservations_triple touching) fun fault => ?_
  cases fault with
  | exception => exact Triple.value fun _ => id
  | interrupt => exact Triple.throw fun _ => id

/-! ## Aborting -/

theorem ProviderTrace.Touched.of_spent {trace : ProviderTrace}
    (ended : ∀ run ∈ trace.all, run.outcome.isSome = true) (spent : trace.Spent) : trace.Touched := by
  obtain ⟨run, member, spent⟩ := spent
  exact ⟨run, member, run.touched_of_spent (ended run member) spent⟩

/-- What the abort of an operation without effects leaves. -/
theorem NeverErased.of_aborted (unspent : ¬ s.trace.Spent) (deleted : s.row = none)
    (restored : ∀ id ∈ s.operation.reservationIds,
      (s.reservations id).map (·.status) = some .restored)
    (released : s.operation.resourceReserved = true → s.envelope = some .released) :
    NeverErased s where
  kept spent := absurd spent unspent
  unrestored spent := absurd spent unspent
  unreleased spent := absurd spent unspent
  flags := by simp [deleted]
  restored _ := restored
  released _ := released

theorem abortBody_ok {value : Unit} (done : abortBody s = .ok (t, value)) :
    t = { s with
      row := none
      envelope := t.envelope
      reservations := (s.operation.reservationIds.reverse.foldl Local.restoreReservedUse s).reservations
      capabilities :=
        (s.operation.reservationIds.reverse.foldl Local.restoreReservedUse s).capabilities } ∧
      (s.operation.resourceReserved = true → s.envelope = some .active →
        t.envelope = some .released) := by
  unfold abortBody at done
  obtain ⟨released, release, last⟩ := Library.Run.bind_eq_ok.mp done
  have fields := Local.restoreAll_fields (s := s) s.operation.reservationIds.reverse
  generalize s.operation.reservationIds.reverse.foldl Local.restoreReservedUse s = u at *
  rw [Local.abandon_ok (orRaise_ok last)]
  have kept : released = { u with envelope := released.envelope } ∧
      (s.operation.resourceReserved = true → s.envelope = some .active →
        released.envelope = some .released) := by
    unfold releaseResourceReservation at release
    rw [show u.operation = s.operation by rw [fields]] at release
    split_ifs at release with reserved
    · cases settled : u.settleUsageReservation .released with
      | none => simp [settled] at release
      | some v =>
          rw [settled] at release
          obtain rfl := Except.ok.inj release
          obtain ⟨same, -, active⟩ := Local.settleUsage_ok settled
          exact ⟨same, fun _ held => active (by rw [fields]; exact held)⟩
    · obtain rfl := Except.ok.inj release
      exact ⟨rfl, fun reserved' => absurd reserved' reserved⟩
  refine ⟨?_, kept.2⟩
  rw [kept.1, fields]

theorem Active.aborted (active : Active setting contract actor knows s)
    (untouched : setting = .alone → ¬ s.trace.Touched) {value : Unit}
    (done : abortBody s = .ok (t, value)) : Ended setting contract actor t := by
  obtain ⟨fields, released⟩ := abortBody_ok done
  refine ⟨?_, ?_, ?_, ?_, ?_⟩
  · rw [fields]
    exact active.undispatched
  · rw [fields]
    exact active.ended
  · rw [fields]
    exact active.within
  · rw [fields]
    exact active.recorded
  · cases setting with
    | shared =>
        intro row stored
        rw [fields] at stored
        cases stored
    | alone =>
        obtain ⟨row, live⟩ := active.live active.active
        obtain ⟨held, envelope⟩ := live.held rfl
        have trace : t.trace = s.trace := by rw [fields]
        have operation : t.operation = s.operation := by rw [fields]
        refine NeverErased.of_aborted ?_ (by rw [fields]) ?_ ?_
        · rw [trace]
          exact fun spent => untouched rfl (.of_spent active.ended spent)
        · rw [operation]
          intro id member
          rw [fields]
          refine (Local.restoreAll_restored fun id' member' => Or.inl ?_).1 id
            (List.mem_reverse.mpr member)
          obtain ⟨reservation, stored, -, free⟩ := held id' (List.mem_reverse.mp member')
          exact ⟨reservation, stored, free (untouched rfl)⟩
        · rw [operation]
          exact fun reserved => released reserved (by rw [envelope, if_pos reserved])

theorem abortNotStarted_triple :
    Triple (discipline setting contract actor)
      (Active setting contract actor fun trace _ => setting = .alone → ¬ trace.Touched)
      abortNotStarted (fun _ => Ready setting contract actor) (Ready setting contract actor) := by
  refine Triple.bind (memory_triple Active.stable fun _ active => active.kept) fun operation => ?_
  refine Triple.ite (fun _ => Triple.value fun _ holds => holds.1.toReady) fun _ => ?_
  refine Triple.strengthen (P := Active setting contract actor
    fun trace _ => setting = .alone → ¬ trace.Touched) ?_ fun _ holds => holds.1
  refine Triple.bind (atomically_triple Active.stable (fun _ active => active.kept)
    (Q := fun _ => Ended setting contract actor) ?_ (fun _ _ active _ _ => active.toReady)
    fun _ _ active _ _ => active.toReady) fun _ => terminate_triple
  exact fun s t value active _ done =>
    ⟨(active.aborted active.known done).kept, active.aborted active.known done⟩

/-! ## Closing with evidence -/

theorem Kept.charged {status : EnvelopeStatus} (kept : Kept setting contract actor s)
    (row : s.row.isSome = true) (settled : s.settleUsageReservation status = some t)
    (charging : status ≠ .released) : Kept setting contract actor t := by
  obtain ⟨fields, envelope, -⟩ := Local.settleUsage_ok settled
  have apart : t.row ≠ none := by
    rw [fields]
    exact Option.isSome_iff_ne_none.mp row
  cases setting with
  | alone =>
      refine ⟨?_, ?_, ?_, ?_, fun deleted => absurd deleted apart, fun deleted => absurd deleted apart⟩
      · rw [fields]
        exact kept.kept
      · rw [fields]
        exact kept.unrestored
      · intro spent
        rcases envelope with charged | same
        · rw [charged]
          simpa using charging
        · rw [same]
          exact kept.unreleased (by rw [fields] at spent; exact spent)
      · rw [fields]
        exact kept.flags
  | shared =>
      intro row' stored pending
      rw [fields] at stored
      have tells := kept row' stored pending
      rw [fields]
      exact ⟨tells.prepared, tells.earlier, tells.evidence⟩

theorem Closed.charged {status : EnvelopeStatus} {final : Prop}
    (closed : Closed setting contract actor final s)
    (settled : s.settleUsageReservation status = some t) (charging : status ≠ .released) :
    Closed setting contract actor final t := by
  have kept := closed.kept.charged closed.row settled charging
  obtain ⟨fields, -, -⟩ := Local.settleUsage_ok settled
  refine ⟨⟨?_, ?_, ?_, ?_, kept⟩, ?_, ?_⟩ <;> rw [fields]
  · exact closed.undispatched
  · exact closed.ended
  · exact closed.within
  · exact closed.recorded
  · exact closed.row
  · exact closed.terminal

theorem Running.finalized {flags : EffectFlags} {state : TransactionState}
    {evidence : Option ProtectedEvidence} (running : Running setting contract actor knows s)
    (within : setting = .alone → ProviderTrace.SpentWithin s.trace.all flags) {value : Unit}
    (done : finalizeBody flags state evidence s = .ok (t, value)) :
    Closed setting contract actor False t := by
  obtain ⟨u, finalized, rfl⟩ := Option.map_eq_some_iff.mp (orRaise_ok done)
  obtain ⟨row, stored, closed, same, fields⟩ := Local.finalize_ok finalized
  rw [fields]
  refine ⟨⟨running.undispatched, running.ended, running.within, running.recorded, ?_⟩,
    by simp [stored], nofun⟩
  cases setting with
  | shared =>
      intro row' stored' pending
      obtain rfl := Option.some.inj (stored.symm.trans stored')
      rw [closed] at pending
      cases pending
  | alone =>
      refine ⟨fun _ => by simp [stored], running.kept.unrestored, running.kept.unreleased, ?_,
        by simp [stored], by simp [stored]⟩
      intro row' stored' _
      obtain rfl := Option.some.inj (stored.symm.trans stored')
      rw [same]
      exact within rfl

end AgentLibOS.Effects
