import AgentLibOS.Capability.Store

namespace AgentLibOS.Capability
open Library.Text Library.Run

namespace CapabilityStore

/-- A use of `capId` is reserved and neither committed nor given back yet. -/
def Held (store : CapabilityStore) (capId : String) : Prop :=
  ∃ id reservation, store.reservations id = some reservation ∧ reservation.capId = capId ∧
    reservation.status = .reserved

/-! ## What one operation does to a row -/

/-- What no operation changes about a row. -/
structure SameIdentity (row row' : CapabilityRow) : Prop where
  subject : row'.subject = row.subject
  resource : row'.resource = row.resource
  revocable : row'.revocable = row.revocable
  unlimited : row'.usesRemaining = none ↔ row.usesRemaining = none

theorem SameIdentity.rfl' {row : CapabilityRow} : SameIdentity row row := ⟨rfl, rfl, rfl, Iff.rfl⟩

/-- The change of a row and of whether a use of it is held. Only rows that satisfy `back` are put
back by a failed publication. -/
inductive RowStep (back : CapabilityRow → Prop) (held held' : Prop) :
    CapabilityRow → CapabilityRow → Prop
  | kept (row) (fewer : held' → held) : RowStep back held held' row row
  | spent (row row') (live : row.status = .active) (same : SameIdentity row row') :
      RowStep back held held' row row'
  | returned (row row') (was : held) (finite : row.usesRemaining ≠ none)
      (status : row.status = .active ∨ row.status = .revoked) (same : SameIdentity row row') :
      RowStep back held held' row row'
  | retired (row status final) (none_left : ¬ held') :
      RowStep back held held' row (row.retire status final)
  | staged (row token live) (none_left : ¬ held') :
      RowStep back held held' row (row.stage token live)
  | unstaged (row old staged) (fewer : held' → held) (mine : back row) :
      RowStep back held held' row (row.unstage old staged)

variable {back : CapabilityRow → Prop}

theorem RowStep.weaken {held held' less : Prop} {row row' : CapabilityRow}
    (step : RowStep back held held' row row') (fewer : less → held') :
    RowStep back held less row row' := by
  cases step with
  | kept sub => exact .kept _ fun h => sub (fewer h)
  | spent _ live same => exact .spent _ _ live same
  | returned _ was finite status same => exact .returned _ _ was finite status same
  | retired status final none_left => exact .retired _ status final fun h => none_left (fewer h)
  | staged token live none_left => exact .staged _ token live fun h => none_left (fewer h)
  | unstaged old staged sub mine => exact .unstaged _ old staged (fun h => sub (fewer h)) mine

theorem RowStep.sameIdentity {held held' : Prop} {row row' : CapabilityRow}
    (step : RowStep back held held' row row') : SameIdentity row row' := by
  cases step with
  | kept => exact .rfl'
  | spent _ _ same => exact same
  | returned _ _ _ _ same => exact same
  | retired => exact ⟨rfl, rfl, rfl, Iff.rfl⟩
  | staged => exact ⟨rfl, rfl, rfl, Iff.rfl⟩
  | unstaged => exact ⟨rfl, rfl, rfl, Iff.rfl⟩

theorem held_invalidate {store : CapabilityStore} {chosen : String → Bool} {capId : String} :
    (store.invalidate chosen).Held capId ↔ store.Held capId ∧ chosen capId = false := by
  constructor
  · rintro ⟨id, reservation, stored, same, status⟩
    simp only [invalidate, Option.map_eq_some_iff] at stored
    obtain ⟨old, before, shape⟩ := stored
    split_ifs at shape with hit
    · subst shape
      cases status
    · subst shape
      refine ⟨⟨id, old, before, same, status⟩, ?_⟩
      simpa [same, status] using hit
  · rintro ⟨⟨id, reservation, stored, same, status⟩, spared⟩
    refine ⟨id, reservation, ?_, same, status⟩
    simp [invalidate, stored, same, spared]

theorem held_setRow {store : CapabilityStore} {capId other : String} {row : CapabilityRow} :
    (store.setRow capId row).Held other ↔ store.Held other := Iff.rfl

/-- Settling a reservation only takes holds away. -/
theorem held_settle {store : CapabilityStore} {id capId : String} {reservation : UseReservation}
    {status : ReservationStatus} (ended : status ≠ .reserved)
    (held : (store.settle id reservation status).Held capId) : store.Held capId := by
  obtain ⟨other, found, stored, same, open_⟩ := held
  by_cases hit : other = id
  · simp only [settle, setReservation, hit, if_true, Option.some.injEq] at stored
    subst stored
    exact absurd open_ ended
  · simp only [settle, setReservation, hit, if_false] at stored
    exact ⟨other, found, stored, same, open_⟩

theorem held_commit {store : CapabilityStore} {id capId : String}
    (held : (store.commit id).Held capId) : store.Held capId := by
  unfold commit at held
  split at held
  · split_ifs at held
    · exact held_settle (by decide) held
    · exact held
  · exact held

theorem takeUses_active {row row' : CapabilityRow} {count : Nat}
    (taken : row.takeUses count = some row') :
    row.status = .active ∧ SameIdentity row row' := by
  unfold CapabilityRow.takeUses at taken
  split at taken
  · cases taken
  · rename_i uses finite
    split at taken
    · rename_i guard
      cases taken
      exact ⟨guard.1, rfl, rfl, rfl, by simp [finite]⟩
    · cases taken

theorem giveBack_status {row row' : CapabilityRow} {count : Nat} {counted : 0 < count}
    (given : row.giveBack count counted = some row') :
    row.usesRemaining ≠ none ∧ (row.status = .active ∨ row.status = .revoked) ∧
      SameIdentity row row' := by
  unfold CapabilityRow.giveBack at given
  split at given
  · cases given
  · rename_i uses finite
    split at given
    · rename_i guard
      cases given
      exact ⟨by simp [finite], guard, rfl, rfl, rfl, by simp [finite]⟩
    · cases given

/-- Every operation sends each row to a row, by one of the six changes. -/
def Steps (back : CapabilityRow → Prop) (store store' : CapabilityStore) : Prop :=
  ∀ capId row, store.capabilities capId = some row → ∃ row',
    store'.capabilities capId = some row' ∧
      RowStep back (store.Held capId) (store'.Held capId) row row'

theorem Steps.refl (store : CapabilityStore) : Steps back store store :=
  fun _ row stored => ⟨row, stored, .kept row id⟩

theorem steps_updateInactive {store : CapabilityStore} {capId : String} {row row' : CapabilityRow}
    (stored : store.capabilities capId = some row)
    (change : ∀ held held' : Prop, ¬ held' → RowStep back held held' row row') :
    Steps back store (store.updateInactive capId row') := by
  intro other found stored'
  by_cases same : other = capId
  · subst same
    obtain rfl : row = found := Option.some.inj (stored.symm.trans stored')
    refine ⟨row', by simp [updateInactive, invalidate, setRow], change _ _ ?_⟩
    simp [updateInactive, held_invalidate]
  · refine ⟨found, by simp [updateInactive, invalidate, setRow, same, stored'], .kept found ?_⟩
    simp only [updateInactive, held_invalidate, held_setRow]
    exact And.left

theorem steps_revokeWhere (store : CapabilityStore) (selected : CapabilityRow → Bool) :
    Steps back store (store.revokeWhere selected) := by
  intro capId row stored
  by_cases hit : selected row = true
  · refine ⟨row.retire .revoked (by decide), ?_, .retired row _ _ ?_⟩
    · simp [revokeWhere, invalidate, stored, hit]
    · rw [revokeWhere, held_invalidate]
      simp [stored, hit]
  · refine ⟨row, by simp [revokeWhere, invalidate, stored, hit], .kept row ?_⟩
    rw [revokeWhere, held_invalidate]
    exact And.left

theorem require_ok {store : CapabilityStore} {capId : String} {row : CapabilityRow} :
    store.require capId = .ok row ↔ store.capabilities capId = some row := by
  unfold require
  cases store.capabilities capId <;> simp

theorem requireRevocable_ok {store : CapabilityStore} {capId : String} {row : CapabilityRow}
    (found : store.requireRevocable capId = .ok row) : store.capabilities capId = some row := by
  obtain ⟨row', found', done⟩ := bind_eq_ok.mp found
  split_ifs at done
  cases done
  exact require_ok.mp found'

theorem reserve_ok {store store' : CapabilityStore} {capId reservationId : String} {count : Nat}
    (done : store.reserve capId reservationId count = .ok store') :
    ∃ row updated counted, store.capabilities capId = some row ∧ row.takeUses count = some updated ∧
      store.reservations reservationId = none ∧
      store' = (store.setRow capId updated).setReservation reservationId
        ⟨capId, count, .reserved, counted⟩ := by
  unfold reserve at done
  split_ifs at done with counted
  obtain ⟨row, found, done⟩ := bind_eq_ok.mp done
  split_ifs at done
  split at done <;> cases done
  rename_i updated taken fresh
  exact ⟨row, updated, counted, require_ok.mp found, taken, fresh, rfl⟩

theorem steps_reserve {store store' : CapabilityStore} {capId reservationId : String} {count : Nat}
    (done : store.reserve capId reservationId count = .ok store') : Steps back store store' := by
  obtain ⟨row, updated, counted, stored, taken, fresh, rfl⟩ := reserve_ok done
  intro other found stored'
  by_cases same : other = capId
  · subst same
    obtain rfl : row = found := Option.some.inj (stored.symm.trans stored')
    exact ⟨updated, by simp [setReservation, setRow],
      .spent row updated (takeUses_active taken).1 (takeUses_active taken).2⟩
  · refine ⟨found, by simp [setReservation, setRow, same, stored'], .kept found ?_⟩
    rintro ⟨id, reservation, placed, holds, status⟩
    by_cases hit : id = reservationId
    · simp only [setReservation, hit, if_true, Option.some.injEq] at placed
      subst placed
      exact absurd holds.symm same
    · exact ⟨id, reservation, by simpa [setReservation, setRow, hit] using placed, holds, status⟩

theorem steps_consume {store store' : CapabilityStore} {capId : String} {count : Nat}
    (done : store.consume capId count = .ok store') : Steps back store store' := by
  unfold consume at done
  split_ifs at done
  obtain ⟨row, found, done⟩ := bind_eq_ok.mp done
  split_ifs at done
  · cases done
    exact Steps.refl store
  · split at done <;> cases done
    rename_i updated taken
    intro other found' stored'
    by_cases same : other = capId
    · subst same
      obtain rfl : row = found' := Option.some.inj ((require_ok.mp found).symm.trans stored')
      exact ⟨updated, by simp [setRow],
        .spent row updated (takeUses_active taken).1 (takeUses_active taken).2⟩
    · exact ⟨found', by simp [setRow, same, stored'], .kept found' id⟩

theorem steps_commit (store : CapabilityStore) (id : String) : Steps back store (store.commit id) := by
  intro capId row stored
  refine ⟨row, ?_, .kept row held_commit⟩
  unfold commit
  split
  · split_ifs <;> exact stored
  · exact stored

theorem steps_restore (store : CapabilityStore) (id : String) : Steps back store (store.restore id) := by
  intro capId row stored
  unfold restore
  split
  · rename_i reservation placed
    split_ifs with open_
    · cases given : (store.capabilities reservation.capId).bind
          (·.giveBack reservation.count reservation.positive) with
      | none => exact ⟨row, stored, .kept row (held_settle (by decide))⟩
      | some updated =>
          obtain ⟨old, before, back⟩ := Option.bind_eq_some_iff.mp given
          by_cases same : capId = reservation.capId
          · subst same
            obtain rfl : old = row := Option.some.inj (before.symm.trans stored)
            have held : store.Held reservation.capId := ⟨id, reservation, placed, rfl, open_⟩
            obtain ⟨finite, status, same⟩ := giveBack_status back
            exact ⟨updated, by simp [settle, setReservation, setRow],
              .returned old updated held finite status same⟩
          · refine ⟨row, by simp [settle, setReservation, setRow, same, stored], .kept row ?_⟩
            exact fun held => held_setRow.mp (held_settle (by decide) held)
    · exact ⟨row, stored, .kept row fun held => held⟩
  · exact ⟨row, stored, .kept row fun held => held⟩

theorem commit_capabilities (store : CapabilityStore) (id : String) :
    (store.commit id).capabilities = store.capabilities := by
  unfold commit
  split
  · split_ifs <;> rfl
  · rfl

/-- A revocation retires the row as it was before the authority for it was taken. -/
theorem revoke_ok {store store' : CapabilityStore} {capId : String}
    {authority : Option (String × String)} (done : store.revoke capId authority = .ok store') :
    ∃ row reserved, store.capabilities capId = some row ∧
      (∀ back, Steps back store reserved) ∧
      store'.capabilities =
        (reserved.updateInactive capId (row.retire .revoked (by decide))).capabilities ∧
      ∀ id, store'.Held id →
        (reserved.updateInactive capId (row.retire .revoked (by decide))).Held id := by
  obtain ⟨row, found, done⟩ := bind_eq_ok.mp done
  obtain ⟨reserved, taken, done⟩ := bind_eq_ok.mp done
  cases done
  refine ⟨row, reserved, requireRevocable_ok found, ?_⟩
  cases authority with
  | none =>
      cases taken
      exact ⟨fun _ => Steps.refl store, rfl, fun _ held => held⟩
  | some pair => exact ⟨fun _ => steps_reserve taken, commit_capabilities _ _, fun _ => held_commit⟩

theorem steps_revoke {store store' : CapabilityStore} {capId : String}
    {authority : Option (String × String)} (done : store.revoke capId authority = .ok store') :
    Steps back store store' := by
  obtain ⟨row, reserved, stored, steps, shape, fewer⟩ := revoke_ok done
  intro other found stored'
  rw [shape]
  by_cases same : other = capId
  · subst same
    obtain rfl : row = found := Option.some.inj (stored.symm.trans stored')
    refine ⟨row.retire .revoked (by decide), by simp [updateInactive, invalidate, setRow],
      .retired row _ _ fun held => ?_⟩
    have := fewer _ held
    simp [updateInactive, held_invalidate] at this
  · obtain ⟨row', placed, step⟩ := steps back other found stored'
    refine ⟨row', by simpa [updateInactive, invalidate, setRow, same] using placed,
      step.weaken fun held => ?_⟩
    have := fewer _ held
    rw [updateInactive, held_invalidate, held_setRow] at this
    exact this.1

theorem stage_ok {store store' : CapabilityStore} {capId token : String}
    (done : store.stageExecRevocation capId token = .ok store') :
    ∃ row, store.capabilities capId = some row ∧
      ((∃ live, store' = store.updateInactive capId
        (row.stage (String.ofList (strip isSpace token.toList)) live)) ∨
        row.active = false ∧ store' = store) := by
  unfold stageExecRevocation at done
  simp only at done
  split_ifs at done
  obtain ⟨row, found, done⟩ := bind_eq_ok.mp done
  refine ⟨row, requireRevocable_ok found, ?_⟩
  split_ifs at done with live
  · cases done
    exact Or.inl ⟨live, rfl⟩
  · cases done
    exact Or.inr ⟨by simpa using live, rfl⟩

/-- The rows a failed publication takes for its own. -/
def putsBack : StoreOp → CapabilityRow → Prop
  | .restoreExecRevoked subject token _, row =>
      row.subject = subject ∧ row.rollbackToken = some token
  | _, _ => False

theorem steps_exec {store store' : CapabilityStore} {op : StoreOp}
    (done : op.exec store = .ok store') : Steps (putsBack op) store store' := by
  cases op with
  | issue capId row =>
      simp only [StoreOp.exec, insertCapability] at done
      split at done <;> cases done
      rename_i fresh
      intro other found stored
      have different : other ≠ capId := by
        rintro rfl
        simp [fresh] at stored
      exact ⟨found, by simp [setRow, different, stored], .kept found id⟩
  | consume capId count => exact steps_consume done
  | reserve capId reservationId count => exact steps_reserve done
  | commit reservationId =>
      cases done
      exact steps_commit store reservationId
  | restore reservationId =>
      cases done
      exact steps_restore store reservationId
  | revoke capId authority => exact steps_revoke done
  | disable capId =>
      obtain ⟨row, found, done⟩ := bind_eq_ok.mp done
      cases done
      exact steps_updateInactive (require_ok.mp found) fun _ _ => .retired row _ _
  | stageExecRevocation capId token =>
      obtain ⟨row, stored, ⟨live, rfl⟩ | ⟨-, rfl⟩⟩ := stage_ok done
      · exact steps_updateInactive stored fun _ _ => .staged row _ live
      · exact Steps.refl store'
  | finalizeExecRevocations subject token =>
      cases done
      exact steps_revokeWhere store _
  | restoreExecRevoked subject token before =>
      cases done
      intro capId row stored
      by_cases owned : row.status = .execRevoked ∧ row.subject = subject ∧
          row.rollbackToken = some token
      · cases old : before capId with
        | none =>
            exact ⟨row, by simp [restoreExecRevoked, stored, old], .kept row fun h => h⟩
        | some old' =>
            exact ⟨row.unstage old' owned.1,
              by simp [restoreExecRevoked, stored, owned, old], .unstaged row old' owned.1 (fun h => h) owned.2⟩
      · exact ⟨row, by simp [restoreExecRevoked, stored, owned], .kept row fun h => h⟩
  | revokeResource resource =>
      cases done
      exact steps_revokeWhere store _

/-! ## Final rows -/

/-- Out of use through exhaustion alone, with a use that may still be given back. -/
def Suspended (store : CapabilityStore) (capId : String) : Prop :=
  ∃ row, store.capabilities capId = some row ∧ row.status = .revoked ∧
    row.usesRemaining ≠ none ∧ store.Held capId

/-- No operation on the existing row makes it active again. -/
def Settled (store : CapabilityStore) (capId : String) : Prop :=
  (∃ row, store.capabilities capId = some row ∧
    (row.status = .disabled ∨ row.status = .revoked)) ∧ ¬ store.Suspended capId

theorem Settled.steps {store store' : CapabilityStore} {capId : String}
    (settled : store.Settled capId) (steps : Steps back store store') : store'.Settled capId := by
  obtain ⟨⟨row, stored, out⟩, never⟩ := settled
  obtain ⟨row', stored', step⟩ := steps capId row stored
  have spare : row.status = .revoked → row.usesRemaining ≠ none → ¬ store.Held capId :=
    fun status finite held => never ⟨row, stored, status, finite, held⟩
  cases step with
  | kept fewer =>
      refine ⟨⟨row, stored', out⟩, ?_⟩
      rintro ⟨found, stored'', status, finite, held⟩
      obtain rfl : row = found := Option.some.inj (stored'.symm.trans stored'')
      exact spare status finite (fewer held)
  | spent _ live _ => simp [live] at out
  | returned _ was finite status _ =>
      rcases out with out | out
      · simp [out] at status
      · exact absurd was (spare out finite)
  | retired status final none_left =>
      refine ⟨⟨_, stored', final.symm⟩, ?_⟩
      rintro ⟨-, -, -, -, held⟩
      exact none_left held
  | staged token live none_left =>
      simp only [CapabilityRow.active, beq_iff_eq] at live
      simp [live] at out
  | unstaged old staged fewer mine => simp [staged] at out

end CapabilityStore
end AgentLibOS.Capability
