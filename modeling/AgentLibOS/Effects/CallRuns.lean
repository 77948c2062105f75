import AgentLibOS.Effects.FailureRuns

namespace AgentLibOS.Effects
open Library Library.JoinFold Library.Program Capability ProtectedOperation ProviderTrace

variable {setting : Setting} {contract : ProtectedOperationContract}
  {invocation : ProtectedOperationInvocation} {actor : String}
  {knows : ProviderTrace → List ProviderPhase → Prop} {s t : Local} {phase : ProviderPhase}

/-! ## Dispatch -/

theorem HeldReservation.grown {before after : Local}
    (reservations : after.reservations = before.reservations)
    (capabilities : after.capabilities = before.capabilities)
    (touched : before.trace.Touched → after.trace.Touched) {id : String}
    (held : HeldReservation before id) : HeldReservation after id := by
  obtain ⟨reservation, stored, unrestored, free⟩ := held
  refine ⟨reservation, by rw [reservations, stored], unrestored, fun untouched => ?_⟩
  rw [capabilities]
  exact free fun touched' => untouched (touched touched')

theorem dispatchBody_ok {value : Unit} (done : dispatchBody contract phase s = .ok (t, value)) :
    phase.flags ≤ contract.flags ∧ ∃ row, s.row = some row ∧
      t.row = some { row with transactionState := .dispatched, activePhase := some phase } ∧
      t = { s with row := t.row, ledger := t.ledger, trace := s.trace.dispatched } := by
  unfold dispatchBody at done
  split_ifs at done with within
  refine ⟨within, ?_⟩
  cases marked : s.markExternalEffectDispatched with
  | none => simp [marked] at done
  | some u =>
      rw [marked] at done
      obtain ⟨v, moved, rfl⟩ := Option.map_eq_some_iff.mp (orRaise_ok done)
      obtain ⟨row, stored, marked', same⟩ := Local.markDispatched_ok marked
      obtain ⟨row', stored', -, rfl⟩ := Local.transition_ok moved
      obtain rfl := Option.some.inj (stored'.symm.trans marked')
      refine ⟨row, stored, rfl, ?_⟩
      rw [same]
      rfl

theorem dispatchBody_within {row : EffectRow} (stored : s.row = some row)
    (state : row.transactionState = .prepared ∨ row.transactionState = .dispatched)
    (within : phase.flags ≤ contract.flags) :
    ∃ t value, dispatchBody contract phase s = .ok (t, value) := by
  obtain ⟨u, marked⟩ := Local.markDispatched_of_pending stored state
  obtain ⟨row', -, stored', -⟩ := Local.markDispatched_ok marked
  simp [dispatchBody, within, marked, orRaise, Local.transitionExternalEffect, stored']

/-- A dispatch just committed. -/
structure Dispatched (setting : Setting) (contract : ProtectedOperationContract) (actor : String)
    (phase : ProviderPhase) (s : Local) : Prop
    extends Active setting contract actor (fun trace _ => trace.current = none) s where
  sent : ∃ row, s.row = some row ∧ row.transactionState = .dispatched
  permitted : phase.flags ≤ contract.flags

theorem Dispatched.stable :
    Stable (discipline setting contract actor) (Dispatched setting contract actor phase) :=
  fun _ _ relied dispatched => ⟨dispatched.toActive.relied relied,
    by rw [(Rely.fields relied).2.1]; exact dispatched.sent, dispatched.permitted⟩

theorem Active.dispatched (active : Active setting contract actor knows s)
    (careful : Careful setting contract s (.dispatch phase) .returned) {value : Unit}
    (done : dispatchBody contract phase s = .ok (t, value)) :
    Dispatched setting contract actor phase t := by
  obtain ⟨within, row, stored, sent, fields⟩ := dispatchBody_ok done
  obtain ⟨row', live⟩ := active.live active.active
  obtain rfl := Option.some.inj (stored.symm.trans live.stored)
  have all : t.trace.all = s.trace.all := by rw [fields]; exact all_dispatched _
  have operation : t.operation = s.operation := by rw [fields]
  have live' : LiveRow setting contract actor t
      { row with transactionState := .dispatched, activePhase := some phase } := by
    refine ⟨sent, live.pending, Or.inr rfl, fun _ => rfl, fun alone => ?_, fun shared => ?_⟩
    · obtain ⟨reservations, envelope⟩ := live.held alone
      refine ⟨fun id member => ?_, by rw [fields]; exact envelope⟩
      rw [operation] at member
      refine (reservations id member).grown (by rw [fields]) (by rw [fields]) ?_
      rw [ProviderTrace.Touched, ProviderTrace.Touched, all]
      exact fun touched => touched
    · refine ⟨nofun, fun spent => ?_, by rw [operation]; exact (live.tells shared).evidence⟩
      subst shared
      refine careful ⟨rfl, within⟩ ?_ row stored
      rw [fields] at spent
      exact spent
  exact
    { undispatched := by rw [all, operation]; exact active.undispatched
      ended := by rw [all]; exact active.ended
      within := by rw [all]; exact active.within
      recorded := by rw [all, operation]; exact active.recorded
      kept := live'.kept
      live := fun _ => ⟨_, live'⟩
      active := by rw [operation]; exact active.active
      known := by rw [fields]; rfl
      sent := ⟨_, sent, rfl⟩
      permitted := within }

/-- A rejected dispatch may be aborted only if nothing is forgotten. -/
def Rejected (setting : Setting) (trace : ProviderTrace) (completed : List ProviderPhase) : Prop :=
  setting = .alone → completed.any (·.effectful) = true ∨ Accounted completed trace.all

theorem dispatch_triple :
    Triple (discipline setting contract actor) (Active setting contract actor knows)
      (dispatch contract phase)
      (fun _ s => Running setting contract actor (fun trace _ => trace.current = none) s ∧
        phase.flags ≤ contract.flags)
      (Active setting contract actor fun trace completed => Rejected setting trace completed) := by
  have refused : ∀ s reply, Active setting contract actor knows s →
      Careful setting contract s (.dispatch phase) reply →
      (reply ≠ .returned ∨ ¬ phase.flags ≤ contract.flags) →
      Active setting contract actor (fun trace completed => Rejected setting trace completed) s := by
    refine fun s reply active careful rejected => ⟨active.toReady, active.active, ?_⟩
    rintro rfl
    exact careful rejected
  refine Triple.bind (atomically_triple Active.stable (fun _ active => active.kept)
    (Q := fun _ => Dispatched setting contract actor phase) ?_ ?_
    fun s reply active careful other => refused s reply active careful (Or.inl other)) fun _ => ?_
  · intro s t value active careful done
    have dispatched := active.dispatched careful done
    exact ⟨dispatched.kept, dispatched⟩
  · intro s err active careful failed
    refine refused s _ active careful (Or.inr fun within => ?_)
    obtain ⟨row, live⟩ := active.live active.active
    obtain ⟨t, value, done⟩ := dispatchBody_within live.stored live.state within
    rw [done] at failed
    cases failed
  · refine remember_triple Dispatched.stable fun s dispatched => ?_
    obtain ⟨row', live⟩ := dispatched.live dispatched.active
    obtain ⟨row, stored, sent⟩ := dispatched.sent
    obtain rfl := Option.some.inj (stored.symm.trans live.stored)
    have live' : LiveRow setting contract actor
        { s with operation := { s.operation with dispatched := true } } row :=
      ⟨live.stored, live.pending, live.state, fun _ => sent,
        fun alone => ⟨(live.held alone).reservations, (live.held alone).envelope⟩,
        fun shared => ⟨(live.tells shared).prepared, (live.tells shared).earlier,
          (live.tells shared).evidence⟩⟩
    exact ⟨live'.kept, ⟨⟨⟨⟨nofun, dispatched.ended, dispatched.within, dispatched.recorded,
      live'.kept⟩, fun _ => ⟨row, live'⟩⟩, dispatched.active, dispatched.known⟩, rfl⟩,
      dispatched.permitted⟩

theorem dispatchOrAbortNotStarted_triple :
    Triple (discipline setting contract actor) (Active setting contract actor knows)
      (dispatchOrAbortNotStarted contract phase)
      (fun _ s => Running setting contract actor (fun trace _ => trace.current = none) s ∧
        phase.flags ≤ contract.flags)
      (Ready setting contract actor) := by
  refine Triple.tryCatch dispatch_triple fun fault => ?_
  refine Triple.bind (Q := fun _ => Ready setting contract actor) ?_ fun _ =>
    Triple.throw fun _ => id
  refine Triple.bind (memory_triple Active.stable fun _ active => active.kept) fun operation => ?_
  refine Triple.ite (fun _ => Triple.value fun _ holds => holds.1.toReady) fun quiet => ?_
  refine abortNotStarted_triple.strengthen fun s holds => ?_
  obtain ⟨active, rfl⟩ := holds
  refine ⟨active.toReady, active.active, fun alone touched => ?_⟩
  obtain ⟨run, member, touched⟩ := touched
  rcases active.known alone with effectful | accounted
  · exact quiet effectful
  · rw [accounted.untouched (by simpa using quiet) member] at touched
    cases touched

/-! ## The provider function -/

/-- A provider function runs; before it the operation was running as usual. -/
def InFlight (setting : Setting) (contract : ProtectedOperationContract) (actor : String)
    (phase : ProviderPhase) (s : Local) : Prop :=
  phase.flags ≤ contract.flags ∧ ∃ trace : ProviderTrace, trace.current = none ∧
    s.trace = trace.invoked phase ∧
    Running setting contract actor (fun _ _ => True) { s with trace := trace }

theorem InFlight.stable :
    Stable (discipline setting contract actor) (InFlight setting contract actor phase) := by
  rintro s t relied ⟨within, trace, idle, same, running⟩
  refine ⟨within, trace, idle, (Rely.fields relied).2.2.trans same, running.relied ⟨?_, ?_⟩⟩
  · rw [relied.1]
  · intro alone
    rw [relied.2 alone]

/-- A live row after more has happened at the provider. -/
theorem LiveRow.traced {row : EffectRow} {T : ProviderTrace}
    (live : LiveRow setting contract actor s row)
    (touched : s.trace.Touched → T.Touched)
    (tells : setting = .shared → RowTells contract actor { s with trace := T } row) :
    LiveRow setting contract actor { s with trace := T } row where
  stored := live.stored
  pending := live.pending
  state := live.state
  dispatched := live.dispatched
  held := fun alone =>
    { reservations := fun id member =>
        @HeldReservation.grown s { s with trace := T } rfl rfl touched _
          ((live.held alone).reservations id member)
      envelope := (live.held alone).envelope }
  tells := tells

theorem Running.told {trace : ProviderTrace} {row : EffectRow}
    (running : Running setting contract actor knows s)
    (live : LiveRow setting contract actor s row) (idle : s.trace.current = none)
    (earlier : trace.earlier = s.trace.all) (shared : setting = .shared) :
    RowTells contract actor { s with trace := trace } row := by
  have tells := live.tells shared
  refine ⟨fun prepared => ?_, fun spent => ?_, tells.evidence⟩
  · rw [live.dispatched running.dispatched] at prepared
    cases prepared
  · refine tells.earlier ?_
    rw [show s.trace.earlier = s.trace.all by simp [ProviderTrace.all, idle], ← earlier]
    exact spent

theorem Touched.extend {trace trace' : ProviderTrace} (grown : ∀ run ∈ trace.all, run ∈ trace'.all)
    (touched : trace.Touched) : trace'.Touched :=
  touched.imp fun run => And.imp_left (grown run)

def Reply.certifies (reply : Reply) : Prop := reply = .notStarted ∨ reply = .notStartedResult

/-- What is known once the provider function has ended. -/
def FunctionEnded (setting : Setting) (phase : ProviderPhase) (reply : Reply)
    (trace : ProviderTrace) (completed : List ProviderPhase) : Prop :=
  (∃ run ∈ trace.all, run.phase = phase ∧ run.outcome = some reply.outcome) ∧
    (reply.certifies → Certain setting trace completed)

theorem invokeFunction_triple {raised : Local → Prop} :
    Triple (discipline setting contract actor)
      (fun s => Running setting contract actor (fun trace _ => trace.current = none) s ∧
        phase.flags ≤ contract.flags)
      (invokeFunction phase)
      (fun reply => Running setting contract actor (FunctionEnded setting phase reply)) raised := by
  have stable : Stable (discipline setting contract actor) fun s =>
      Running setting contract actor (fun trace _ => trace.current = none) s ∧
        phase.flags ≤ contract.flags := fun s t relied holds => ⟨holds.1.relied relied, holds.2⟩
  refine Triple.bind (Triple.act stable
    (F := fun _ => InFlight setting contract actor phase) ?_) fun _ => ?_
  · rintro s ⟨running, within⟩
    obtain ⟨row, live⟩ := running.live running.active
    refine ⟨(live.traced (T := s.trace.invoked phase)
      (Touched.extend fun run member => by simp [member])
      (running.told live running.known rfl)).kept, within, s.trace, running.known, rfl,
      running.knowing trivial⟩
  refine Triple.bind (Triple.request InFlight.stable (F := fun reply s =>
    InFlight setting contract actor phase s ∧ Careful setting contract s (.function phase) reply)
    fun s reply holds careful => ⟨holds, careful⟩) fun reply => ?_
  refine Triple.bind (Triple.act (fun s t relied holds => ⟨InFlight.stable s t relied holds.1,
    holds.2.relied relied⟩) (F := fun _ => Running setting contract actor
      (FunctionEnded setting phase reply)) ?_) fun _ => Triple.value fun _ => id
  rintro s ⟨⟨within, trace, idle, same, running⟩, careful⟩
  obtain ⟨row, live⟩ := running.live running.active
  rw [same, invoked_ended]
  have all : (⟨trace.all, some ⟨phase, some reply.outcome⟩⟩ : ProviderTrace).all =
      trace.all ++ [⟨phase, some reply.outcome⟩] := rfl
  have live' := live.traced (T := ⟨trace.all, some ⟨phase, some reply.outcome⟩⟩)
    (Touched.extend fun run member => by rw [all]; exact List.mem_append_left _ member)
    (running.told live idle rfl)
  have runs : ∀ run ∈ trace.all ++ [⟨phase, some reply.outcome⟩],
      run ∈ trace.all ∨ run = ⟨phase, some reply.outcome⟩ := by simp
  refine ⟨live'.kept, ⟨⟨⟨⟨?_, ?_, ?_, ?_, live'.kept⟩, fun _ => ⟨row, live'⟩⟩, running.active, ?_⟩,
    running.dispatched⟩⟩
  · intro undispatched
    rw [show s.operation.dispatched = true from running.dispatched] at undispatched
    cases undispatched
  · intro run member
    rcases runs run member with before | rfl
    · exact running.ended run before
    · rfl
  · intro run member
    rcases runs run member with before | rfl
    · exact running.within run before
    · exact within
  · intro phase' member
    obtain ⟨run, before, recorded⟩ := running.recorded phase' member
    exact ⟨run, List.mem_append_left _ before, recorded⟩
  · refine ⟨⟨_, by rw [all]; exact List.mem_append_right _ (List.mem_singleton.mpr rfl), rfl, rfl⟩,
      fun certifies alone => ?_⟩
    have accounted : Accounted s.operation.completedPhases trace.all := by
      have := careful alone certifies
      rwa [same] at this
    rw [all]
    exact accounted.certified (by rcases certifies with rfl | rfl <;> rfl)

end AgentLibOS.Effects
