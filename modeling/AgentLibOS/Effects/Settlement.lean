import AgentLibOS.Effects.PhaseInvariant

namespace AgentLibOS.Effects
open Library Library.Program Capability

theorem orRaise_ok {changed : Option Local} {t : Local} {value : Unit}
    (done : orRaise changed = .ok (t, value)) : changed = some t := by
  cases changed with
  | none => cases done
  | some s =>
      obtain ⟨rfl, -⟩ := Prod.mk.inj (Except.ok.inj done)
      rfl

/-! ## Rows -/

namespace Local
variable {s t : Local}

theorem transition_ok {expected : List TransactionState} {state : TransactionState}
    {change : EffectRow → EffectRow}
    (moved : s.transitionExternalEffect expected state change = some t) :
    ∃ row, s.row = some row ∧ row.transactionState ∈ expected ∧
      t = s.record { change row with transactionState := state } := by
  unfold transitionExternalEffect at moved
  cases stored : s.row with
  | none => simp [stored] at moved
  | some row =>
      simp only [stored] at moved
      split_ifs at moved with inside
      exact ⟨row, rfl, inside, (Option.some.inj moved).symm⟩

theorem markDispatched_ok (marked : s.markExternalEffectDispatched = some t) :
    ∃ row, s.row = some row ∧ t.row = some { row with transactionState := .dispatched } ∧
      t = { s with row := t.row, ledger := t.ledger } := by
  unfold markExternalEffectDispatched at marked
  cases moved : s.transitionExternalEffect [.prepared, .authorized, .approved] .dispatched id with
  | some s' =>
      rw [moved] at marked
      obtain rfl := Option.some.inj marked
      obtain ⟨row, stored, -, rfl⟩ := transition_ok moved
      exact ⟨row, stored, rfl, rfl⟩
  | none =>
      cases stored : s.row with
      | none => simp [moved, stored] at marked
      | some row =>
          simp only [moved, stored] at marked
          split_ifs at marked with already
          obtain rfl := Option.some.inj marked
          exact ⟨row, rfl, by rw [stored, ← already], rfl⟩

theorem markDispatched_of_pending {row : EffectRow} (stored : s.row = some row)
    (state : row.transactionState = .prepared ∨ row.transactionState = .dispatched) :
    ∃ t, s.markExternalEffectDispatched = some t := by
  unfold markExternalEffectDispatched transitionExternalEffect
  rcases state with state | state <;> simp [stored, state]

theorem finalize_ok {flags : EffectFlags} {state : TransactionState}
    {evidence : Option ProtectedEvidence}
    (finalized : s.finalizeExternalEffect flags state evidence = some t) :
    ∃ row, t.row = some row ∧ row.effectState = .finalized ∧ row.flags = flags ∧
      t = { s with row := t.row, ledger := t.ledger } := by
  unfold finalizeExternalEffect at finalized
  cases stored : s.row with
  | none => simp [stored] at finalized
  | some row =>
      simp only [stored] at finalized
      split_ifs at finalized
      obtain rfl := Option.some.inj finalized
      exact ⟨_, rfl, rfl, rfl, rfl⟩

theorem abandon_ok (abandoned : s.abandonExternalEffectIntent = some t) :
    t = { s with row := none } := by
  unfold abandonExternalEffectIntent at abandoned
  cases stored : s.row with
  | none => simp [stored] at abandoned
  | some row =>
      simp only [stored] at abandoned
      split_ifs at abandoned
      exact (Option.some.inj abandoned).symm

theorem settleUsage_ok {status : EnvelopeStatus}
    (settled : s.settleUsageReservation status = some t) :
    t = { s with envelope := t.envelope } ∧
      (t.envelope = some status ∨ t.envelope = s.envelope) ∧
      (s.envelope = some .active → t.envelope = some status) := by
  unfold settleUsageReservation at settled
  split at settled
  · obtain rfl := Option.some.inj settled
    exact ⟨rfl, Or.inl rfl, fun _ => rfl⟩
  · rename_i status' other held
    obtain rfl := Option.some.inj settled
    exact ⟨rfl, Or.inr rfl, fun active => absurd (Option.some.inj (held.symm.trans active)) other⟩
  · cases settled

/-! ## Reservations -/

/-- A reservation after its use was committed. -/
def committedReservation (reservation : Reservation) : Reservation :=
  if reservation.status = .reserved then { reservation with status := .committed } else reservation

theorem committedReservation_idem (reservation : Reservation) :
    committedReservation (committedReservation reservation) = committedReservation reservation := by
  unfold committedReservation
  split_ifs <;> simp_all

theorem commitReservedUse_eq (id : String) :
    s.commitReservedUse id = { s with
      reservations := fun id' => if id' = id then (s.reservations id').map committedReservation
        else s.reservations id' } := by
  have unchanged : (∀ reservation, s.reservations id = some reservation →
      committedReservation reservation = reservation) → s = { s with
      reservations := fun id' => if id' = id then (s.reservations id').map committedReservation
        else s.reservations id' } := by
    intro fixed
    have same : s.reservations = fun id' => if id' = id then
        (s.reservations id').map committedReservation else s.reservations id' := by
      funext id'
      split_ifs with here
      · subst here
        cases stored : s.reservations id' with
        | none => rfl
        | some reservation => simp [fixed reservation stored]
      · rfl
    rw [← same]
  unfold commitReservedUse
  cases stored : s.reservations id with
  | none => exact unchanged fun reservation found => by simp [stored] at found
  | some reservation =>
      by_cases reserved : reservation.status = .reserved
      · have same : (fun id' => if id' = id then some { reservation with status := .committed }
            else s.reservations id') = fun id' => if id' = id then
              (s.reservations id').map committedReservation else s.reservations id' := by
          funext id'
          split_ifs with here
          · subst here
            simp [stored, committedReservation, reserved]
          · rfl
        simp only [reserved, if_true, setReservation, same]
      · simp only [reserved, if_false]
        refine unchanged fun other found => ?_
        obtain rfl := Option.some.inj (stored.symm.trans found)
        simp [committedReservation, reserved]

theorem commitAll_eq (ids : List String) :
    ids.foldl commitReservedUse s = { s with
      reservations := fun id => if id ∈ ids then (s.reservations id).map committedReservation
        else s.reservations id } := by
  induction ids generalizing s with
  | nil => simp
  | cons id ids ih =>
      have both : ∀ id', (if id' ∈ ids then
          ((s.commitReservedUse id).reservations id').map committedReservation
          else (s.commitReservedUse id).reservations id') =
            if id' ∈ id :: ids then (s.reservations id').map committedReservation
            else s.reservations id' := by
        intro id'
        rw [commitReservedUse_eq]
        by_cases here : id' = id
        · subst here
          by_cases later : id' ∈ ids <;>
            simp [later, Function.comp_def, committedReservation_idem]
        · by_cases later : id' ∈ ids <;> simp [here, later]
      rw [List.foldl_cons, ih, funext both, commitReservedUse_eq]

/-- A use that a restore will give back. -/
def Returnable (s : Local) (id : String) : Prop :=
  ∃ reservation, s.reservations id = some reservation ∧ reservation.status = .reserved ∧
    Restorable s.capabilities reservation.capId

theorem restoreReservedUse_fields (id : String) :
    s.restoreReservedUse id = { s with
      reservations := (s.restoreReservedUse id).reservations
      capabilities := (s.restoreReservedUse id).capabilities } := by
  unfold restoreReservedUse
  repeat' split
  all_goals rfl

theorem restoreAll_fields (ids : List String) :
    ids.foldl restoreReservedUse s = { s with
      reservations := (ids.foldl restoreReservedUse s).reservations
      capabilities := (ids.foldl restoreReservedUse s).capabilities } := by
  induction ids generalizing s with
  | nil => rfl
  | cons id ids ih =>
      rw [List.foldl_cons, ih, restoreReservedUse_fields id]

/-- A restored use, and what it leaves of the others. -/
theorem restoreReservedUse_returnable {id : String} (returnable : s.Returnable id) :
    ((s.restoreReservedUse id).reservations id).map (·.status) = some .restored ∧
      ∀ id', (id' ≠ id → (s.restoreReservedUse id).reservations id' = s.reservations id') ∧
        (id' ≠ id → s.Returnable id' → (s.restoreReservedUse id).Returnable id') := by
  obtain ⟨reservation, stored, reserved, row, uses, found, finite, status⟩ := returnable
  have given : ∃ row', s.giveBackUse reservation = some row' ∧ row'.usesRemaining = some (uses + 1) ∧
      row'.status = .active := by
    simp only [giveBackUse, found, Option.bind_some, CapabilityRow.giveBack, finite]
    rw [if_pos status]
    refine ⟨_, rfl, rfl, ?_⟩
    rcases status with live | exhausted
    · simp [live]
    · simp [exhausted]
  obtain ⟨row', back, left, live⟩ := given
  have result : s.restoreReservedUse id = (s.setCapability reservation.capId row').setReservation id
      { reservation with status := .restored } := by
    simp [restoreReservedUse, stored, reserved, back]
  rw [result]
  refine ⟨by simp [setReservation], fun id' => ⟨fun other => ?_, fun other returnable => ?_⟩⟩
  · simp [setReservation, setCapability, other]
  · obtain ⟨reservation', stored', reserved', row₀, uses₀, found', finite', status'⟩ := returnable
    refine ⟨reservation', by simp [setReservation, setCapability, other, stored'], reserved', ?_⟩
    by_cases same : reservation'.capId = reservation.capId
    · exact ⟨row', _, by simp [setReservation, setCapability, same], left, Or.inl live⟩
    · exact ⟨row₀, uses₀, by simp [setReservation, setCapability, same, found'], finite', status'⟩

theorem restoreReservedUse_restored {id : String}
    (done : (s.reservations id).map (·.status) = some .restored) : s.restoreReservedUse id = s := by
  obtain ⟨reservation, stored, restored⟩ := Option.map_eq_some_iff.mp done
  simp [restoreReservedUse, stored, restored]

/-- Where every use can be given back, every use is. -/
theorem restoreAll_restored {ids : List String}
    (ready : ∀ id ∈ ids, s.Returnable id ∨ (s.reservations id).map (·.status) = some .restored) :
    (∀ id ∈ ids, ((ids.foldl restoreReservedUse s).reservations id).map (·.status) =
        some .restored) ∧
      ∀ id, (s.reservations id).map (·.status) = some .restored →
        ((ids.foldl restoreReservedUse s).reservations id).map (·.status) = some .restored := by
  induction ids generalizing s with
  | nil => simp
  | cons id ids ih =>
      rw [List.foldl_cons]
      rcases ready id List.mem_cons_self with returnable | done
      · obtain ⟨restored, others⟩ := restoreReservedUse_returnable returnable
        have stays : ∀ id', (s.reservations id').map (·.status) = some .restored →
            ((s.restoreReservedUse id).reservations id').map (·.status) = some .restored := by
          intro id' done
          by_cases here : id' = id
          · exact here ▸ restored
          · rw [(others id').1 here, done]
        obtain ⟨later, kept⟩ := ih (s := s.restoreReservedUse id) fun id' member => by
          by_cases here : id' = id
          · exact Or.inr (here ▸ restored)
          · exact (ready id' (List.mem_cons_of_mem _ member)).imp ((others id').2 here) (stays id')
        refine ⟨fun id' member => ?_, fun id' done => kept id' (stays id' done)⟩
        rcases List.mem_cons.mp member with rfl | member
        · exact kept id' restored
        · exact later id' member
      · rw [restoreReservedUse_restored done]
        obtain ⟨later, kept⟩ := ih fun id' member => ready id' (List.mem_cons_of_mem _ member)
        refine ⟨fun id' member => ?_, kept⟩
        rcases List.mem_cons.mp member with rfl | member
        · exact kept id' done
        · exact later id' member

end Local
end AgentLibOS.Effects
