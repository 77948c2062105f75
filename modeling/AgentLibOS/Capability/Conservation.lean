import AgentLibOS.Capability.Revocation
import Mathlib.Algebra.Order.BigOperators.Group.Finset

namespace AgentLibOS.Capability
open Library.Run CapabilityStore

/-! ## The account of a capability -/

/-- The store with the uses that were consumed directly. No code reads the count. -/
structure UseAccount where
  store : CapabilityStore
  consumed : String → Nat

/-- The uses of `capId` that a successful operation consumes without a reservation. -/
def StoreOp.consumes (store : CapabilityStore) (capId : String) : StoreOp → Nat
  | .consume id count =>
      if id = capId ∧ (store.capabilities id).any (·.usesRemaining.isSome) then count else 0
  | _ => 0

def UseAccount.step (account : UseAccount) (op : StoreOp) : UseAccount :=
  match op.exec account.store with
  | .ok store =>
      { store := store
        consumed := fun capId => account.consumed capId + op.consumes account.store capId }
  | .error _ => account

/-- The reservation ids that an operation draws. -/
def StoreOp.drawn : StoreOp → List String
  | .reserve _ reservationId _ => [reservationId]
  | .revoke _ (some (_, reservationId)) => [reservationId]
  | _ => []

/-- Nobody revokes a capability on the authority of that same capability: its own subject needs no
authority, and anybody else's decision is about a capability of their own. -/
def StoreOp.OnOtherAuthority : StoreOp → Prop
  | .revoke capId (some (authorityId, _)) => authorityId ≠ capId
  | _ => True

/-- An explicit change of the status of `capId`. -/
def StoreOp.ChangesStatus (capId resource : String) : StoreOp → Prop
  | .revoke id _ => id = capId
  | .disable id => id = capId
  | .stageExecRevocation id _ => id = capId
  | .revokeResource selected => selected = resource
  | _ => False

namespace UseReservation

/-- The uses of `capId` that a reservation keeps from being given back. -/
def claimed (capId : String) (reservation : UseReservation) : Nat :=
  if reservation.capId = capId ∧ reservation.status ≠ .restored then reservation.count else 0

def committed (capId : String) (reservation : UseReservation) : Nat :=
  if reservation.capId = capId ∧ reservation.status = .committed then reservation.count else 0

theorem committed_le_claimed (capId : String) (reservation : UseReservation) :
    reservation.committed capId ≤ reservation.claimed capId := by
  unfold committed claimed
  by_cases same : reservation.capId = capId
  · cases status : reservation.status <;> simp [same]
  · simp [same]

end UseReservation

namespace CapabilityStore

def claimed (store : CapabilityStore) (capId id : String) : Nat :=
  ((store.reservations id).map (UseReservation.claimed capId)).getD 0

def committed (store : CapabilityStore) (capId id : String) : Nat :=
  ((store.reservations id).map (UseReservation.committed capId)).getD 0

theorem committed_le_claimed (store : CapabilityStore) (capId id : String) :
    store.committed capId id ≤ store.claimed capId id := by
  unfold committed claimed
  cases store.reservations id with
  | none => exact le_rfl
  | some reservation => exact reservation.committed_le_claimed capId

/-! ## What operations leave alone -/

/-- The uses left and the uses reserved of `capId` are as before. -/
structure SameUses (capId : String) (store store' : CapabilityStore) : Prop where
  left : (store'.capabilities capId).bind (·.usesRemaining) =
    (store.capabilities capId).bind (·.usesRemaining)
  claimed : ∀ id, store'.claimed capId id = store.claimed capId id
  listed : ∀ id reservation', store'.reservations id = some reservation' →
    ∃ reservation, store.reservations id = some reservation ∧
      reservation.capId = reservation'.capId

variable {store store' : CapabilityStore} {capId : String}

theorem SameUses.refl (store : CapabilityStore) : SameUses capId store store :=
  ⟨rfl, fun _ => rfl, fun _ reservation stored => ⟨reservation, stored, rfl⟩⟩

theorem SameUses.trans {middle : CapabilityStore} (first : SameUses capId store middle)
    (second : SameUses capId middle store') : SameUses capId store store' := by
  constructor
  · exact second.left.trans first.left
  · intro id
    rw [second.claimed, first.claimed]
  · intro id reservation' stored
    obtain ⟨between, stored, same⟩ := second.listed id reservation' stored
    obtain ⟨reservation, stored, same'⟩ := first.listed id between stored
    exact ⟨reservation, stored, same'.trans same⟩

/-- A row that is written with the uses it has. -/
theorem sameUses_setRow {id : String} {row : CapabilityRow}
    (kept : id = capId → some row.usesRemaining =
      (store.capabilities id).map (·.usesRemaining)) :
    SameUses capId store (store.setRow id row) := by
  refine ⟨?_, fun _ => rfl, fun _ reservation stored => ⟨reservation, stored, rfl⟩⟩
  by_cases same : capId = id
  · subst same
    have kept := kept rfl
    cases stored : store.capabilities capId with
    | none => simp [stored] at kept
    | some old =>
        simp only [stored, Option.map_some, Option.some.injEq] at kept
        simp [setRow, kept]
  · simp [setRow, same]

theorem sameUses_invalidate (store : CapabilityStore) (chosen : String → Bool) :
    SameUses capId store (store.invalidate chosen) := by
  refine ⟨rfl, fun id => ?_, fun id reservation' stored => ?_⟩
  · unfold claimed invalidate
    cases stored : store.reservations id with
    | none => simp [stored]
    | some reservation =>
        simp only [stored, Option.map_some, Option.getD_some]
        split_ifs with hit
        · simp [UseReservation.claimed, hit.2]
        · rfl
  · simp only [invalidate, Option.map_eq_some_iff] at stored
    obtain ⟨reservation, before, shape⟩ := stored
    refine ⟨reservation, before, ?_⟩
    split_ifs at shape <;> rw [← shape]

theorem sameUses_rows {rows : String → Option CapabilityRow}
    (kept : (rows capId).bind (·.usesRemaining) =
      (store.capabilities capId).bind (·.usesRemaining)) :
    SameUses capId store { store with capabilities := rows } :=
  ⟨kept, fun _ => rfl, fun _ reservation stored => ⟨reservation, stored, rfl⟩⟩

theorem sameUses_updateInactive {id : String} {row : CapabilityRow}
    (kept : id = capId → some row.usesRemaining =
      (store.capabilities id).map (·.usesRemaining)) :
    SameUses capId store (store.updateInactive id row) :=
  (sameUses_setRow kept).trans (sameUses_invalidate _ _)

theorem sameUses_revokeWhere (store : CapabilityStore) (selected : CapabilityRow → Bool) :
    SameUses capId store (store.revokeWhere selected) := by
  refine (sameUses_rows ?_).trans (sameUses_invalidate _ _)
  cases store.capabilities capId with
  | none => rfl
  | some row =>
      simp only [Option.map_some, Option.bind_some]
      split_ifs <;> rfl

/-- Settling a reservation other than by giving its uses back. -/
theorem sameUses_settle {id : String} {reservation : UseReservation} {status : ReservationStatus}
    (stored : store.reservations id = some reservation) (open_ : reservation.status = .reserved)
    (ended : status ≠ .restored) :
    SameUses capId store (store.settle id reservation status) := by
  refine ⟨rfl, fun other => ?_, fun other found stored' => ?_⟩
  · by_cases same : other = id
    · subst same
      simp [claimed, settle, setReservation, stored, UseReservation.claimed, open_, ended]
    · simp [claimed, settle, setReservation, same]
  · by_cases same : other = id
    · subst same
      simp only [settle, setReservation, if_true, Option.some.injEq] at stored'
      exact ⟨reservation, stored, by rw [← stored']⟩
    · exact ⟨found, by simpa [settle, setReservation, same] using stored', rfl⟩

theorem sameUses_commit (store : CapabilityStore) (id : String) :
    SameUses capId store (store.commit id) := by
  unfold commit
  split
  · rename_i reservation stored
    split_ifs with open_
    · exact sameUses_settle stored open_ (by decide)
    · exact .refl store
  · exact .refl store

theorem sameUses_restoreExecRevoked (store : CapabilityStore) (subject rollbackToken : String)
    (before : String → Option CapabilityRow) :
    SameUses capId store (store.restoreExecRevoked subject rollbackToken before) := by
  refine sameUses_rows ?_
  cases store.capabilities capId with
  | none => rfl
  | some row =>
      simp only [Option.map_some, Option.bind_some]
      split_ifs
      · cases before capId <;> rfl
      · rfl

/-! ## The balance -/

/-- The uses left and those reserved under one of `ids` make up `total`. -/
structure Balance (ids : Finset String) (capId : String) (total : Nat)
    (store : CapabilityStore) : Prop where
  sum : ∃ uses, (store.capabilities capId).bind (·.usesRemaining) = some uses ∧
    uses + ∑ id ∈ ids, store.claimed capId id = total
  listed : ∀ id reservation, store.reservations id = some reservation →
    reservation.capId = capId → id ∈ ids

variable {ids : Finset String} {total : Nat}

theorem SameUses.balance (same : SameUses capId store store')
    (balance : Balance ids capId total store) : Balance ids capId total store' := by
  obtain ⟨uses, left, sum⟩ := balance.sum
  refine ⟨⟨uses, same.left.trans left, ?_⟩, fun id reservation' stored mine => ?_⟩
  · rw [← sum]
    simp only [same.claimed]
  · obtain ⟨reservation, before, kept⟩ := same.listed id reservation' stored
    exact balance.listed id reservation before (kept.trans mine)

/-- Where only the reservation `id` has changed. -/
theorem sum_claimed_exchange {id : String} (member : id ∈ ids)
    (others : ∀ other, other ≠ id → store'.claimed capId other = store.claimed capId other) :
    ∑ other ∈ ids, store'.claimed capId other + store.claimed capId id =
      ∑ other ∈ ids, store.claimed capId other + store'.claimed capId id := by
  have before := Finset.add_sum_erase ids (store.claimed capId) member
  have after := Finset.add_sum_erase ids (store'.claimed capId) member
  have rest : ∑ other ∈ ids.erase id, store'.claimed capId other =
      ∑ other ∈ ids.erase id, store.claimed capId other :=
    Finset.sum_congr rfl fun other inside => others other (Finset.ne_of_mem_erase inside)
  omega

theorem takeUses_uses {row row' : CapabilityRow} {count : Nat}
    (taken : row.takeUses count = some row') :
    ∃ uses, row.usesRemaining = some uses ∧ count ≤ uses ∧
      row'.usesRemaining = some (uses - count) := by
  unfold CapabilityRow.takeUses at taken
  split at taken
  · cases taken
  · rename_i uses finite
    split_ifs at taken with guard spent
    · obtain rfl := Option.some.inj taken
      exact ⟨uses, finite, guard.2, rfl⟩
    · obtain rfl := Option.some.inj taken
      exact ⟨uses, finite, guard.2, rfl⟩

theorem giveBack_uses {row row' : CapabilityRow} {count : Nat} {counted : 0 < count}
    (given : row.giveBack count counted = some row') :
    ∃ uses, row.usesRemaining = some uses ∧ row'.usesRemaining = some (uses + count) := by
  unfold CapabilityRow.giveBack at given
  split at given
  · cases given
  · rename_i uses finite
    split_ifs at given with status revoked
    · obtain rfl := Option.some.inj given
      exact ⟨uses, finite, rfl⟩
    · obtain rfl := Option.some.inj given
      exact ⟨uses, finite, rfl⟩

theorem Balance.reserve {id reservationId : String} {count : Nat}
    (balance : Balance ids capId total store) (drawn : reservationId ∈ ids)
    (done : store.reserve id reservationId count = .ok store') :
    Balance ids capId total store' := by
  obtain ⟨row, updated, counted, stored, taken, fresh, rfl⟩ := reserve_ok done
  obtain ⟨uses, left, sum⟩ := balance.sum
  refine ⟨?_, fun other reservation placed mine => ?_⟩
  · have exchange := @sum_claimed_exchange store
      ((store.setRow id updated).setReservation reservationId ⟨id, count, .reserved, counted⟩)
      capId ids reservationId drawn fun other apart => by
        simp [CapabilityStore.claimed, setReservation, setRow, apart]
    have empty : store.claimed capId reservationId = 0 := by
      simp [CapabilityStore.claimed, fresh]
    by_cases mine : id = capId
    · subst mine
      obtain ⟨uses', finite, enough, spent⟩ := takeUses_uses taken
      obtain rfl : uses' = uses := by simpa [stored, finite] using left
      have claims : ((store.setRow id updated).setReservation reservationId
          ⟨id, count, .reserved, counted⟩).claimed id reservationId = count := by
        simp [CapabilityStore.claimed, setReservation, UseReservation.claimed]
      exact ⟨uses' - count, by simp [setReservation, setRow, spent], by omega⟩
    · have claims : ((store.setRow id updated).setReservation reservationId
          ⟨id, count, .reserved, counted⟩).claimed capId reservationId = 0 := by
        simp [CapabilityStore.claimed, setReservation, UseReservation.claimed, mine]
      exact ⟨uses, by simpa [setReservation, setRow, Ne.symm mine] using left, by omega⟩
  · by_cases same : other = reservationId
    · exact same ▸ drawn
    · exact balance.listed other reservation
        (by simpa [setReservation, setRow, same] using placed) mine

theorem Balance.restore (balance : Balance ids capId total store) (id : String) :
    Balance ids capId total (store.restore id) := by
  unfold CapabilityStore.restore
  split
  · rename_i reservation placed
    split_ifs with open_
    · cases given : (store.capabilities reservation.capId).bind
          (·.giveBack reservation.count reservation.positive) with
      | none => exact (sameUses_settle placed open_ (by decide)).balance balance
      | some updated =>
          obtain ⟨old, stored, back⟩ := Option.bind_eq_some_iff.mp given
          obtain ⟨uses, left, sum⟩ := balance.sum
          change Balance ids capId total
            ((store.setRow reservation.capId updated).settle id reservation .restored)
          refine ⟨?_, fun other found placed' mine => ?_⟩
          · by_cases mine : reservation.capId = capId
            · have drawn := balance.listed id reservation placed mine
              have exchange := @sum_claimed_exchange store
                ((store.setRow reservation.capId updated).settle id reservation .restored)
                capId ids id drawn fun other apart => by
                  simp [CapabilityStore.claimed, settle, setReservation, setRow, apart]
              have claims : store.claimed capId id = reservation.count := by
                simp [CapabilityStore.claimed, placed, UseReservation.claimed, mine, open_]
              have none_ : ((store.setRow reservation.capId updated).settle id reservation
                  .restored).claimed capId id = 0 := by
                simp [CapabilityStore.claimed, settle, setReservation, UseReservation.claimed]
              obtain ⟨uses', finite, returned⟩ := giveBack_uses back
              obtain rfl : uses' = uses := by simpa [← mine, stored, finite] using left
              exact ⟨uses' + reservation.count,
                by simp [settle, setReservation, setRow, mine, returned], by omega⟩
            · refine ⟨uses, by simpa [settle, setReservation, setRow, Ne.symm mine] using left, ?_⟩
              rw [← sum]
              refine congrArg (uses + ·) (Finset.sum_congr rfl fun other _ => ?_)
              by_cases same : other = id
              · simp [CapabilityStore.claimed, settle, setReservation, same, placed,
                  UseReservation.claimed, mine]
              · simp [CapabilityStore.claimed, settle, setReservation, setRow, same]
          · by_cases same : other = id
            · subst same
              simp only [settle, setReservation, if_true, Option.some.injEq] at placed'
              subst placed'
              exact balance.listed other reservation placed mine
            · exact balance.listed other found
                (by simpa [settle, setReservation, setRow, same] using placed') mine
    · exact balance
  · exact balance

theorem Balance.consume {id : String} {count : Nat} (balance : Balance ids capId total store)
    (done : store.consume id count = .ok store') :
    ∃ total', Balance ids capId total' store' ∧
      total' + (StoreOp.consume id count).consumes store capId = total := by
  unfold CapabilityStore.consume at done
  split_ifs at done
  obtain ⟨row, found, done⟩ := bind_eq_ok.mp done
  have stored := require_ok.mp found
  split_ifs at done with unlimited
  · obtain rfl := Except.ok.inj done
    exact ⟨total, balance, by simp [StoreOp.consumes, stored, unlimited]⟩
  · split at done
    · rename_i updated taken
      obtain rfl := Except.ok.inj done
      obtain ⟨uses, left, sum⟩ := balance.sum
      obtain ⟨uses', finite, enough, spent⟩ := takeUses_uses taken
      by_cases mine : id = capId
      · subst mine
        obtain rfl : uses' = uses := by simpa [stored, finite] using left
        refine ⟨total - count, ⟨⟨uses' - count, by simp [setRow, spent], ?_⟩, balance.listed⟩, ?_⟩
        · change uses' - count + ∑ other ∈ ids, store.claimed id other = total - count
          omega
        · simp only [StoreOp.consumes, stored, finite, Option.any_some, Option.isSome_some,
            and_self, if_true]
          omega
      · exact ⟨total, ⟨⟨uses, by simpa [setRow, Ne.symm mine] using left, sum⟩, balance.listed⟩,
          by simp [StoreOp.consumes, mine]⟩
    · cases done

theorem Balance.revoke {id : String} {authority : Option (String × String)}
    (balance : Balance ids capId total store)
    (drawn : ∀ reservationId ∈ (StoreOp.revoke id authority).drawn, reservationId ∈ ids)
    (apart : (StoreOp.revoke id authority).OnOtherAuthority)
    (done : store.revoke id authority = .ok store') : Balance ids capId total store' := by
  obtain ⟨current, found, done⟩ := bind_eq_ok.mp done
  obtain ⟨reserved, taken, done⟩ := bind_eq_ok.mp done
  obtain rfl := Except.ok.inj done
  have stored := requireRevocable_ok found
  have kept : reserved.capabilities id = store.capabilities id ∧
      Balance ids capId total reserved := by
    cases authority with
    | none =>
        obtain rfl := Except.ok.inj taken
        exact ⟨rfl, balance⟩
    | some use =>
        obtain ⟨authorityId, reservationId⟩ := use
        refine ⟨?_, balance.reserve (drawn reservationId (by simp [StoreOp.drawn])) taken⟩
        obtain ⟨row, updated, counted, -, -, -, rfl⟩ := reserve_ok taken
        simp [setReservation, setRow, Ne.symm apart]
  have written : SameUses capId reserved
      (reserved.updateInactive id (current.retire .revoked (by decide))) := by
    refine sameUses_updateInactive fun _ => ?_
    rw [kept.1, stored]
    rfl
  have settled := written.balance kept.2
  cases authority with
  | none => exact settled
  | some use => exact (sameUses_commit _ _).balance settled

theorem sameUses_updateRow {id : String} {row row' : CapabilityRow}
    (stored : store.capabilities id = some row) (kept : row'.usesRemaining = row.usesRemaining) :
    SameUses capId store (store.updateInactive id row') :=
  sameUses_updateInactive fun _ => by rw [stored, Option.map_some, kept]

/-- No operation changes the balance, except that a consumption is taken out of it. -/
theorem Balance.exec {op : StoreOp} (balance : Balance ids capId total store)
    (drawn : ∀ id ∈ op.drawn, id ∈ ids) (apart : op.OnOtherAuthority)
    (done : op.exec store = .ok store') :
    ∃ total', Balance ids capId total' store' ∧ total' + op.consumes store capId = total := by
  cases op with
  | consume id count => exact balance.consume done
  | issue id row =>
      refine ⟨total, ?_, rfl⟩
      simp only [StoreOp.exec, insertCapability] at done
      split at done
      · cases done
      · rename_i free
        obtain rfl := Except.ok.inj done
        obtain ⟨uses, left, -⟩ := balance.sum
        refine (sameUses_rows ?_).balance balance
        by_cases same : capId = id
        · simp [same, free] at left
        · simp [same]
  | reserve id reservationId count =>
      exact ⟨total, balance.reserve (drawn _ (by simp [StoreOp.drawn])) done, rfl⟩
  | commit id =>
      obtain rfl := Except.ok.inj done
      exact ⟨total, (sameUses_commit store id).balance balance, rfl⟩
  | restore id =>
      obtain rfl := Except.ok.inj done
      exact ⟨total, balance.restore id, rfl⟩
  | revoke id authority => exact ⟨total, balance.revoke drawn apart done, rfl⟩
  | disable id =>
      obtain ⟨row, found, done⟩ := bind_eq_ok.mp done
      obtain rfl := Except.ok.inj done
      exact ⟨total, (sameUses_updateRow (require_ok.mp found) (by rfl)).balance balance, rfl⟩
  | stageExecRevocation id rollbackToken =>
      simp only [StoreOp.exec, stageExecRevocation] at done
      split_ifs at done
      obtain ⟨row, found, done⟩ := bind_eq_ok.mp done
      split_ifs at done <;> obtain rfl := Except.ok.inj done
      · exact ⟨total, (sameUses_updateRow (requireRevocable_ok found) (by rfl)).balance balance, rfl⟩
      · exact ⟨total, balance, rfl⟩
  | finalizeExecRevocations subject rollbackToken =>
      obtain rfl := Except.ok.inj done
      exact ⟨total, (sameUses_revokeWhere store _).balance balance, rfl⟩
  | restoreExecRevoked subject rollbackToken before =>
      obtain rfl := Except.ok.inj done
      exact ⟨total, (sameUses_restoreExecRevoked store _ _ before).balance balance, rfl⟩
  | revokeResource resource =>
      obtain rfl := Except.ok.inj done
      exact ⟨total, (sameUses_revokeWhere store _).balance balance, rfl⟩

/-! ## Settled reservations -/

theorem ended_reserve {id reservationId other : String} {count : Nat}
    {reservation : UseReservation} (stored : store.reservations other = some reservation)
    (done : store.reserve id reservationId count = .ok store') :
    store'.reservations other = some reservation := by
  obtain ⟨row, updated, counted, -, -, fresh, rfl⟩ := reserve_ok done
  have apart : other ≠ reservationId := by
    rintro rfl
    rw [fresh] at stored
    cases stored
  simpa [setReservation, setRow, apart] using stored

theorem ended_invalidate {other : String} {reservation : UseReservation}
    {chosen : String → Bool} (stored : store.reservations other = some reservation)
    (ended : reservation.status ≠ .reserved) :
    (store.invalidate chosen).reservations other = some reservation := by
  simp [invalidate, stored, ended]

theorem ended_revokeWhere {other : String} {reservation : UseReservation}
    {selected : CapabilityRow → Bool} (stored : store.reservations other = some reservation)
    (ended : reservation.status ≠ .reserved) :
    (store.revokeWhere selected).reservations other = some reservation := by
  simp [revokeWhere, invalidate, stored, ended]

theorem ended_settle {id other : String} {placed reservation : UseReservation}
    {status : ReservationStatus} (open_ : placed.status = .reserved)
    (here : store.reservations id = some placed)
    (stored : store.reservations other = some reservation)
    (ended : reservation.status ≠ .reserved) :
    (store.settle id placed status).reservations other = some reservation := by
  have apart : other ≠ id := by
    rintro rfl
    obtain rfl : placed = reservation := Option.some.inj (here.symm.trans stored)
    exact ended open_
  simpa [settle, setReservation, apart] using stored

theorem ended_commit {id other : String} {reservation : UseReservation}
    (stored : store.reservations other = some reservation)
    (ended : reservation.status ≠ .reserved) :
    (store.commit id).reservations other = some reservation := by
  unfold commit
  split
  · rename_i placed here
    split_ifs with open_
    · exact ended_settle open_ here stored ended
    · exact stored
  · exact stored

/-- A reservation that is not reserved any more stays as it is. -/
theorem ended_exec {op : StoreOp} {other : String} {reservation : UseReservation}
    (stored : store.reservations other = some reservation)
    (ended : reservation.status ≠ .reserved) (done : op.exec store = .ok store') :
    store'.reservations other = some reservation := by
  cases op with
  | issue id row =>
      simp only [StoreOp.exec, insertCapability] at done
      split at done
      · cases done
      · obtain rfl := Except.ok.inj done
        exact stored
  | consume id count =>
      simp only [StoreOp.exec, consume] at done
      split_ifs at done
      obtain ⟨row, found, done⟩ := bind_eq_ok.mp done
      split_ifs at done
      · obtain rfl := Except.ok.inj done
        exact stored
      · split at done
        · obtain rfl := Except.ok.inj done
          exact stored
        · cases done
  | reserve id reservationId count => exact ended_reserve stored done
  | commit id =>
      obtain rfl := Except.ok.inj done
      exact ended_commit stored ended
  | restore id =>
      obtain rfl := Except.ok.inj done
      unfold CapabilityStore.restore
      split
      · rename_i placed here
        split_ifs with open_
        · split
          · exact @ended_settle (store.setRow placed.capId _) id other placed reservation
              .restored open_ here stored ended
          · exact ended_settle open_ here stored ended
        · exact stored
      · exact stored
  | revoke id authority =>
      obtain ⟨current, found, done⟩ := bind_eq_ok.mp done
      obtain ⟨reserved, taken, done⟩ := bind_eq_ok.mp done
      obtain rfl := Except.ok.inj done
      cases authority with
      | none =>
          obtain rfl := Except.ok.inj taken
          simp only [commitDecision]
          exact @ended_invalidate (store.setRow id _) other reservation _ stored ended
      | some use =>
          have stored := ended_reserve stored taken
          refine ended_commit ?_ ended
          exact @ended_invalidate (reserved.setRow id _) other reservation _ stored ended
  | disable id =>
      obtain ⟨row, found, done⟩ := bind_eq_ok.mp done
      obtain rfl := Except.ok.inj done
      exact ended_invalidate stored ended
  | stageExecRevocation id rollbackToken =>
      simp only [StoreOp.exec, stageExecRevocation] at done
      split_ifs at done
      obtain ⟨row, found, done⟩ := bind_eq_ok.mp done
      split_ifs at done <;> obtain rfl := Except.ok.inj done
      · exact ended_invalidate stored ended
      · exact stored
  | finalizeExecRevocations subject rollbackToken =>
      obtain rfl := Except.ok.inj done
      exact ended_revokeWhere stored ended
  | restoreExecRevoked subject rollbackToken before =>
      obtain rfl := Except.ok.inj done
      exact stored
  | revokeResource resource =>
      obtain rfl := Except.ok.inj done
      exact ended_revokeWhere stored ended

/-! ## The status of a row nobody revokes -/

/-- The row is active with uses left, or exhausted. -/
def ShowsUses (row : CapabilityRow) : Prop :=
  ∃ uses, row.usesRemaining = some uses ∧
    (row.status = .active ∧ 0 < uses ∨ row.status = .revoked ∧ uses = 0)

theorem takeUses_shows {row row' : CapabilityRow} {count : Nat}
    (taken : row.takeUses count = some row') : ShowsUses row' := by
  unfold CapabilityRow.takeUses at taken
  split at taken
  · cases taken
  · rename_i uses finite
    split_ifs at taken with guard spent
    · obtain rfl := Option.some.inj taken
      exact ⟨uses - count, rfl, Or.inr ⟨rfl, spent⟩⟩
    · obtain rfl := Option.some.inj taken
      exact ⟨uses - count, rfl, Or.inl ⟨guard.1, by omega⟩⟩

theorem giveBack_shows {row row' : CapabilityRow} {count : Nat} {counted : 0 < count}
    (given : row.giveBack count counted = some row') : ShowsUses row' := by
  unfold CapabilityRow.giveBack at given
  split at given
  · cases given
  · rename_i uses finite
    split_ifs at given with live revoked
    · obtain rfl := Option.some.inj given
      exact ⟨uses + count, rfl, Or.inl ⟨rfl, by omega⟩⟩
    · obtain rfl := Option.some.inj given
      exact ⟨uses + count, rfl, Or.inl ⟨live.resolve_right revoked, by omega⟩⟩

def StatusOfUses (capId resource : String) (store : CapabilityStore) : Prop :=
  ∃ row, store.capabilities capId = some row ∧ row.resource = resource ∧ ShowsUses row

variable {resource : String}

theorem StatusOfUses.kept (status : StatusOfUses capId resource store)
    (same : store'.capabilities capId = store.capabilities capId) :
    StatusOfUses capId resource store' := by
  obtain ⟨row, stored, rest⟩ := status
  exact ⟨row, same.trans stored, rest⟩

theorem StatusOfUses.written {id : String} {row row' : CapabilityRow}
    (status : StatusOfUses capId resource store) (stored : store.capabilities id = some row)
    (same : SameIdentity row row') (shows_ : ShowsUses row') :
    StatusOfUses capId resource (store.setRow id row') := by
  by_cases here : capId = id
  · subst here
    obtain ⟨old, stored', named, -⟩ := status
    obtain rfl := Option.some.inj (stored.symm.trans stored')
    exact ⟨row', by simp [setRow], same.resource.trans named, shows_⟩
  · exact status.kept (by simp [setRow, here])

theorem StatusOfUses.taken {id : String} {row row' : CapabilityRow} {count : Nat}
    (status : StatusOfUses capId resource store) (stored : store.capabilities id = some row)
    (taken : row.takeUses count = some row') :
    StatusOfUses capId resource (store.setRow id row') :=
  status.written stored (takeUses_active taken).2 (takeUses_shows taken)

theorem StatusOfUses.reserve {id reservationId : String} {count : Nat}
    (status : StatusOfUses capId resource store)
    (done : store.reserve id reservationId count = .ok store') :
    StatusOfUses capId resource store' := by
  obtain ⟨row, updated, counted, stored, taken, -, rfl⟩ := reserve_ok done
  exact (status.taken stored taken).kept rfl

theorem StatusOfUses.restore (status : StatusOfUses capId resource store) (id : String) :
    StatusOfUses capId resource (store.restore id) := by
  unfold CapabilityStore.restore
  split
  · rename_i reservation placed
    split_ifs with open_
    · cases given : (store.capabilities reservation.capId).bind
          (·.giveBack reservation.count reservation.positive) with
      | none => exact status.kept rfl
      | some updated =>
          obtain ⟨old, stored, back⟩ := Option.bind_eq_some_iff.mp given
          exact (status.written stored (giveBack_status back).2.2 (giveBack_shows back)).kept rfl
    · exact status
  · exact status

theorem StatusOfUses.exec {op : StoreOp} (status : StatusOfUses capId resource store)
    (quiet : ¬ op.ChangesStatus capId resource) (done : op.exec store = .ok store') :
    StatusOfUses capId resource store' := by
  obtain ⟨row, stored, named, uses, finite, live⟩ := id status
  have unstaged : row.status ≠ .execRevoked := by
    rcases live with ⟨live, -⟩ | ⟨live, -⟩ <;> rw [live] <;> decide
  cases op with
  | issue id row =>
      simp only [StoreOp.exec, insertCapability] at done
      split at done
      · cases done
      · rename_i free
        obtain rfl := Except.ok.inj done
        refine status.kept ?_
        by_cases same : capId = id
        · rw [same, free] at stored
          cases stored
        · simp [setRow, same]
  | consume id count =>
      simp only [StoreOp.exec, consume] at done
      split_ifs at done
      obtain ⟨row, found, done⟩ := bind_eq_ok.mp done
      split_ifs at done
      · obtain rfl := Except.ok.inj done
        exact status
      · split at done
        · rename_i updated taken
          obtain rfl := Except.ok.inj done
          exact status.taken (require_ok.mp found) taken
        · cases done
  | reserve id reservationId count => exact status.reserve done
  | commit id =>
      obtain rfl := Except.ok.inj done
      exact status.kept (by rw [commit_capabilities])
  | restore id =>
      obtain rfl := Except.ok.inj done
      exact status.restore id
  | revoke id authority =>
      have other : capId ≠ id := fun same => quiet same.symm
      obtain ⟨current, found, done⟩ := bind_eq_ok.mp done
      obtain ⟨reserved, taken, done⟩ := bind_eq_ok.mp done
      obtain rfl := Except.ok.inj done
      cases authority with
      | none =>
          obtain rfl := Except.ok.inj taken
          exact status.kept (by simp [commitDecision, updateInactive, invalidate, setRow, other])
      | some use =>
          refine (status.reserve taken).kept ?_
          rw [commitDecision, commit_capabilities]
          simp [updateInactive, invalidate, setRow, other]
  | disable id =>
      have other : capId ≠ id := fun same => quiet same.symm
      obtain ⟨row, found, done⟩ := bind_eq_ok.mp done
      obtain rfl := Except.ok.inj done
      exact status.kept (by simp [updateInactive, invalidate, setRow, other])
  | stageExecRevocation id rollbackToken =>
      have other : capId ≠ id := fun same => quiet same.symm
      simp only [StoreOp.exec, stageExecRevocation] at done
      split_ifs at done
      obtain ⟨row, found, done⟩ := bind_eq_ok.mp done
      split_ifs at done <;> obtain rfl := Except.ok.inj done
      · exact status.kept (by simp [updateInactive, invalidate, setRow, other])
      · exact status
  | finalizeExecRevocations subject rollbackToken =>
      obtain rfl := Except.ok.inj done
      exact status.kept (by
        simp [finalizeExecRevocations, revokeWhere, invalidate, stored, unstaged])
  | restoreExecRevoked subject rollbackToken before =>
      obtain rfl := Except.ok.inj done
      exact status.kept (by simp [restoreExecRevoked, stored, unstaged])
  | revokeResource selected =>
      have other : row.resource ≠ selected := fun same => quiet (same.symm.trans named)
      obtain rfl := Except.ok.inj done
      exact status.kept (by simp [revokeResource, revokeWhere, invalidate, stored, other])

end CapabilityStore

/-! ## Whole runs -/

namespace UseAccount

/-- The reservation ids that a run draws. -/
def drawnIds (ops : List StoreOp) : Finset String := (ops.flatMap StoreOp.drawn).toFinset

/-- The account when a capability of `store` is about to be used. -/
def opened (store : CapabilityStore) : UseAccount := ⟨store, fun _ => 0⟩

/-- The account of `capId`, which was issued with `n` uses, balances. -/
def Balances (ids : Finset String) (capId : String) (n : Nat) (account : UseAccount) : Prop :=
  ∃ total, account.store.Balance ids capId total ∧ total + account.consumed capId = n

variable {ids : Finset String} {capId resource : String} {n : Nat}

theorem Balances.step {account : UseAccount} {op : StoreOp} (balances : account.Balances ids capId n)
    (side : (∀ id ∈ op.drawn, id ∈ ids) ∧ op.OnOtherAuthority) :
    (account.step op).Balances ids capId n := by
  unfold UseAccount.step
  cases done : op.exec account.store with
  | error _ => exact balances
  | ok store =>
      obtain ⟨total, balance, sum⟩ := balances
      obtain ⟨total', balance', taken⟩ := balance.exec side.1 side.2 done
      refine ⟨total', balance', ?_⟩
      simp only
      omega

theorem ended_step {account : UseAccount} {op : StoreOp} {id : String}
    {reservation : UseReservation} (ended : reservation.status ≠ .reserved)
    (stored : account.store.reservations id = some reservation) :
    (account.step op).store.reservations id = some reservation := by
  unfold UseAccount.step
  cases done : op.exec account.store with
  | error _ => exact stored
  | ok store => exact ended_exec stored ended done

theorem statusOfUses_step {account : UseAccount} {op : StoreOp}
    (status : StatusOfUses capId resource account.store)
    (quiet : ¬ op.ChangesStatus capId resource) :
    StatusOfUses capId resource (account.step op).store := by
  unfold UseAccount.step
  cases done : op.exec account.store with
  | error _ => exact status
  | ok store => exact status.exec quiet done

theorem meets_all {step : UseAccount → StoreOp → UseAccount} {side : StoreOp → Prop}
    {ops : List StoreOp} (all : ∀ op ∈ ops, side op) (start : UseAccount) :
    Meets step (fun _ op => side op) start ops := by
  induction ops generalizing start with
  | nil => trivial
  | cons op ops ih =>
      exact ⟨all op List.mem_cons_self, ih (fun op' inside => all op' (List.mem_cons_of_mem _ inside)) _⟩

/-- Of the `n` uses a capability is issued with, each is left, reserved, committed, lost with an
invalidated reservation or consumed; a reservation is settled once; and without an explicit change
of its status the capability is active exactly while it has uses left. -/
theorem uses_conserved (store : CapabilityStore) (capId : String) (row : CapabilityRow) (n : Nat)
    (stored : store.capabilities capId = some row) (finite : row.usesRemaining = some n)
    (live : row.status = .active)
    (fresh : ∀ id reservation, store.reservations id = some reservation →
      reservation.capId ≠ capId)
    (ops : List StoreOp) (others : ∀ op ∈ ops, op.OnOtherAuthority) :
    ∃ row' uses, (run step (opened store) ops).store.capabilities capId = some row' ∧
      row'.usesRemaining = some uses ∧
      uses + ∑ id ∈ drawnIds ops, (run step (opened store) ops).store.claimed capId id +
        (run step (opened store) ops).consumed capId = n ∧
      (∀ id reservation, (run step (opened store) ops).store.reservations id = some reservation →
        reservation.capId = capId → id ∈ drawnIds ops) ∧
      ∑ id ∈ drawnIds ops, (run step (opened store) ops).store.committed capId id +
        (run step (opened store) ops).consumed capId ≤ n ∧
      ((∀ op ∈ ops, ¬ op.ChangesStatus capId row.resource) →
        (row'.status = .active ↔ 0 < uses)) ∧
      ∀ front back, ops = front ++ back → ∀ id reservation,
        (run step (opened store) front).store.reservations id = some reservation →
        reservation.status ≠ .reserved →
        (run step (opened store) ops).store.reservations id = some reservation := by
  have unclaimed : ∀ id, store.claimed capId id = 0 := by
    intro id
    unfold CapabilityStore.claimed
    cases placed : store.reservations id with
    | none => rfl
    | some reservation => simp [UseReservation.claimed, fresh id reservation placed]
  have init : (opened store).Balances (drawnIds ops) capId n := by
    refine ⟨n, ⟨⟨n, by simp [opened, stored, finite], ?_⟩, ?_⟩, rfl⟩
    · simp [opened, unclaimed]
    · exact fun id reservation placed mine => absurd mine (fresh id reservation placed)
  have within : ∀ op ∈ ops, (∀ id ∈ op.drawn, id ∈ drawnIds ops) ∧ op.OnOtherAuthority :=
    fun op inside => ⟨fun id drawn => List.mem_toFinset.mpr (List.mem_flatMap.mpr ⟨op, inside, drawn⟩),
      others op inside⟩
  obtain ⟨total, ⟨⟨uses, left, sum⟩, listed⟩, consumed⟩ :=
    @invariant_run _ _ step _ (Balances (drawnIds ops) capId n)
      (fun account op balances side => balances.step side) (opened store) ops init
      (meets_all within (opened store))
  obtain ⟨row', stored', finite'⟩ := Option.bind_eq_some_iff.mp left
  have fewer : ∑ id ∈ drawnIds ops, (run step (opened store) ops).store.committed capId id ≤
      ∑ id ∈ drawnIds ops, (run step (opened store) ops).store.claimed capId id :=
    Finset.sum_le_sum fun id _ => committed_le_claimed _ capId id
  refine ⟨row', uses, stored', finite', by omega, listed, by omega, fun quiet => ?_, ?_⟩
  · have positive : 0 < n := by
      have := row.positive (Or.inl live)
      rw [finite] at this
      exact Nat.pos_of_ne_zero fun zero => this (congrArg some zero)
    have init : StatusOfUses capId row.resource (opened store).store :=
      ⟨row, stored, rfl, n, finite, Or.inl ⟨live, positive⟩⟩
    obtain ⟨found, stored'', -, uses', finite'', shows_⟩ :=
      @invariant_run _ _ step _ (fun account => StatusOfUses capId row.resource account.store)
        (fun account op status quiet => statusOfUses_step status quiet) (opened store) ops init
        (meets_all quiet (opened store))
    obtain rfl := Option.some.inj (stored'.symm.trans stored'')
    obtain rfl := Option.some.inj (finite'.symm.trans finite'')
    rcases shows_ with ⟨status, left⟩ | ⟨status, none_⟩
    · exact iff_of_true status left
    · exact iff_of_false (by rw [status]; decide) (by omega)
  · rintro front back rfl id reservation placed ended
    rw [run_append]
    exact @stable_run _ _ step (fun account => account.store.reservations id = some reservation)
      (fun account op => ended_step ended) _ back placed

def threeUses : CapabilityStore where
  capabilities id := if id = "cap_1" then
    some ⟨"pid_1", "object:report", true, some 3, .active, none, fun _ none_ => by cases none_⟩
    else none
  reservations _ := none

/-- A reservation of two uses is given back after the third is consumed. -/
theorem uses_conserved_three :
    ∃ row' uses, (run step (opened threeUses) [.reserve "cap_1" "capres_1" 2, .consume "cap_1" 1,
        .restore "capres_1"]).store.capabilities "cap_1" = some row' ∧
      row'.usesRemaining = some uses ∧ (row'.status = .active ↔ 0 < uses) := by
  obtain ⟨row', uses, stored, finite, -, -, -, status, -⟩ := uses_conserved threeUses "cap_1"
    ⟨"pid_1", "object:report", true, some 3, .active, none, fun _ none_ => by cases none_⟩ 3
    rfl rfl rfl nofun [.reserve "cap_1" "capres_1" 2, .consume "cap_1" 1, .restore "capres_1"]
    (by simp [StoreOp.OnOtherAuthority])
  exact ⟨row', uses, stored, finite, status (by simp [StoreOp.ChangesStatus])⟩

end UseAccount
end AgentLibOS.Capability
