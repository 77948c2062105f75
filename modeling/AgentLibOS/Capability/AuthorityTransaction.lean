import AgentLibOS.Library.Scope
import AgentLibOS.Capability.Conservation
import AgentLibOS.Capability.Evaluator

namespace AgentLibOS.Capability
open Library.Scope Library.Run CapabilityStore

/-- What the store makes durable: the capability tables and whatever callers keep beside them. -/
structure Durable (β : Type) where
  capabilities : CapabilityStore
  business : β

inductive TransactionError
  | denied (message : String)
  | lease (error : LeaseError)
  | raised (message : String)
  deriving DecidableEq, Repr

/-- The places of a transaction where an admission check, the audit trail, the evidence or the
store may raise. -/
inductive Point
  | admission | begin | entered
  | reserve (capId : String) | reserved (capId : String)
  | returned
  | commit (capId : String) | committed (capId : String)
  | settled | release
  deriving DecidableEq, Repr

/-- What the surroundings do during one transaction. `drawn` is `new_id("capres")`. -/
structure Surroundings where
  raises : Point → Option TransactionError
  savepoint : Point → Ending TransactionError
  ending : Ending TransactionError
  drawn : String → String

variable {β : Type}

def onStore (update : CapabilityStore → Except LeaseError CapabilityStore) :
    Stateful (Durable β) TransactionError Unit :=
  change fun durable =>
    match update durable.capabilities with
    | .ok store => .ok { durable with capabilities := store }
    | .error err => .error (.lease err)

/-! ## Leases in a transaction -/

namespace CapabilityLeaseService

/-- `reserve_decision` of a decision that names a capability. -/
def reserveDecision (around : Surroundings) (capId : String) :
    Stateful (Durable β) TransactionError String :=
  transaction (around.savepoint (.reserve capId)) do
    raiseIf (around.raises (.reserve capId))
    onStore fun store => store.reserve capId (around.drawn capId) 1
    raiseIf (around.raises (.reserved capId))
    pure (around.drawn capId)

def outstanding (store : CapabilityStore) (reservationId : String) : Bool :=
  (store.reservations reservationId).any (·.status == .reserved)

def commit (around : Surroundings) (capId reservationId : String) :
    Stateful (Durable β) TransactionError Bool :=
  transaction (around.savepoint (.commit capId)) do
    raiseIf (around.raises (.commit capId))
    let committed ← consult fun durable => .ok (outstanding durable.capabilities reservationId)
    onStore fun store => .ok (store.commit reservationId)
    raiseIf (around.raises (.committed capId))
    pure committed

end CapabilityLeaseService

/-! ## Authority transactions -/

/-- What a caller's body does with the store. An operation that fails has rolled back its own
savepoint; a transaction inside the body is the operations it commits. -/
inductive BodyStep (β : Type)
  | operation (op : StoreOp)
  | mutate (change : β → β)

def BodyStep.apply (durable : Durable β) : BodyStep β → Durable β
  | .operation op => { durable with capabilities := transact StoreOp.exec durable.capabilities op }
  | .mutate change => { durable with business := change durable.business }

/-- One execution of a body: its steps, and the error it ends with if it raises. -/
structure BodyTrace (β : Type) where
  steps : List (BodyStep β)
  raises : Option TransactionError

structure AuthorityTransaction (β : Type) where
  decisions : List (Option CapabilityDecision)
  operation : String
  reauthorize : Durable β → CapabilityDecision → Except TransactionError CapabilityDecision
  body : List CapabilityDecision → Durable β → BodyTrace β

namespace AuthorityTransaction
variable (self : AuthorityTransaction β) (around : Surroundings)

def original : List CapabilityDecision := self.decisions.filterMap id

/-- One reservation for each capability, however many decisions name it. -/
def reserveAll : List CapabilityDecision → List (String × String) →
    Stateful (Durable β) TransactionError (List (String × String))
  | [], reservations => pure reservations
  | decision :: rest, reservations =>
      match decision.consumeCapabilityId with
      | none => reserveAll rest reservations
      | some capId =>
          if capId ∈ reservations.map Prod.fst then reserveAll rest reservations
          else do
            let reservationId ← CapabilityLeaseService.reserveDecision around capId
            reserveAll rest (reservations ++ [(capId, reservationId)])

/-- `__enter__` once both scopes are entered. -/
def enter : Stateful (Durable β) TransactionError
    (List CapabilityDecision × List (String × String)) := do
  raiseIf (around.raises .entered)
  let current ← consult fun durable => self.original.mapM (self.reauthorize durable)
  let reservations ← reserveAll around current []
  pure (current, reservations)

def runBody (current : List CapabilityDecision) : Stateful (Durable β) TransactionError Unit := do
  let trace ← consult fun durable => .ok (self.body current durable)
  change fun durable => .ok (trace.steps.foldl BodyStep.apply durable)
  raiseIf trace.raises

def commitAll : List (String × String) → Stateful (Durable β) TransactionError Unit
  | [] => pure ()
  | (capId, reservationId) :: rest => do
      let committed ← CapabilityLeaseService.commit around capId reservationId
      if committed then commitAll rest
      else throw (.denied (self.operation ++ " authority reservation is no longer active"))

/-- `__exit__` of a body that has not raised, while both scopes are open. -/
def exit (reservations : List (String × String)) : Stateful (Durable β) TransactionError Unit := do
  raiseIf (around.raises .returned)
  self.commitAll around reservations
  raiseIf (around.raises .settled)

/-- What runs inside the admission scope and the store transaction. -/
def inside : Stateful (Durable β) TransactionError
    (List CapabilityDecision × List (String × String)) := do
  let entered ← self.enter around
  self.runBody entered.1
  self.exit around entered.2
  pure entered

/-- The whole `with` statement. Whichever step raises, the stack leaves the store transaction with
the error first and the admission scope last. -/
def run : Stateful (Durable β) TransactionError
    (List CapabilityDecision × List (String × String)) :=
  guarded ((around.raises .admission).or (around.raises .begin)) (around.raises .release)
    (transaction around.ending (self.inside around))

end AuthorityTransaction

/-! ## Reserving -/

theorem run_onStore {update : CapabilityStore → Except LeaseError CapabilityStore}
    {durable durable' : Durable β} {result : Unit} :
    (onStore update).run durable = (.ok result, durable') ↔
      ∃ store, update durable.capabilities = .ok store ∧
        durable' = { durable with capabilities := store } := by
  refine run_change.trans ?_
  cases update durable.capabilities with
  | ok store => simp [eq_comm]
  | error err => simp

/-- The reservations of one use each that lead from one store to another. -/
inductive Reserving (before : CapabilityStore) : List (String × String) → CapabilityStore → Prop
  | nil : Reserving before [] before
  | snoc {reservations store store' capId id} (further : Reserving before reservations store)
      (apart : capId ∉ reservations.map Prod.fst)
      (done : store.reserve capId id 1 = .ok store') :
      Reserving before (reservations ++ [(capId, id)]) store'

/-- The store once the capabilities of `reservations` are charged one use each. -/
structure Charged (before : CapabilityStore) (reservations : List (String × String))
    (store : CapabilityStore) : Prop where
  once : (reservations.map Prod.fst).Nodup
  distinct : (reservations.map Prod.snd).Nodup
  fresh : ∀ entry ∈ reservations, before.reservations entry.2 = none
  held : ∀ entry ∈ reservations,
    store.reservations entry.2 = some ⟨entry.1, 1, .reserved, Nat.one_pos⟩
  others : ∀ id, id ∉ reservations.map Prod.snd → store.reservations id = before.reservations id
  taken : ∀ capId ∈ reservations.map Prod.fst, ∃ row row', before.capabilities capId = some row ∧
    row.takeUses 1 = some row' ∧ store.capabilities capId = some row'
  spared : ∀ capId, capId ∉ reservations.map Prod.fst →
    store.capabilities capId = before.capabilities capId

namespace Charged
variable {before store store' : CapabilityStore} {reservations : List (String × String)}

theorem nil (before : CapabilityStore) : Charged before [] before where
  once := List.nodup_nil
  distinct := List.nodup_nil
  fresh := by simp
  held := by simp
  others := fun _ _ => rfl
  taken := by simp
  spared := fun _ _ => rfl

/-- One more capability is reserved, under an id that is in use nowhere. -/
theorem snoc (charged : Charged before reservations store) {capId id : String}
    (apart : capId ∉ reservations.map Prod.fst) (done : store.reserve capId id 1 = .ok store') :
    Charged before (reservations ++ [(capId, id)]) store' := by
  obtain ⟨row, updated, counted, stored, taken, free, rfl⟩ := reserve_ok done
  have unused : id ∉ reservations.map Prod.snd := by
    intro used
    obtain ⟨entry, member, rfl⟩ := List.mem_map.mp used
    rw [charged.held entry member] at free
    cases free
  have was : before.reservations id = none := (charged.others id unused).symm.trans free
  constructor
  · rw [List.map_append]
    exact charged.once.append (List.nodup_singleton capId) (by simpa using apart)
  · rw [List.map_append]
    exact charged.distinct.append (List.nodup_singleton id) (by simpa using unused)
  · intro entry member
    rcases List.mem_append.mp member with member | member
    · exact charged.fresh entry member
    · obtain rfl := List.mem_singleton.mp member
      exact was
  · intro entry member
    rcases List.mem_append.mp member with member | member
    · have other : entry.2 ≠ id := fun same => unused (same ▸ List.mem_map_of_mem member)
      simpa [setReservation, setRow, other] using charged.held entry member
    · obtain rfl := List.mem_singleton.mp member
      simp [setReservation]
  · intro other outside
    simp only [List.map_append, List.map_cons, List.map_nil, List.mem_append, List.mem_singleton,
      not_or] at outside
    simpa [setReservation, setRow, outside.2] using charged.others other outside.1
  · intro other member
    simp only [List.map_append, List.map_cons, List.map_nil, List.mem_append,
      List.mem_singleton] at member
    rcases member with member | rfl
    · have different : other ≠ capId := fun same => apart (same ▸ member)
      simpa [setReservation, setRow, different] using charged.taken other member
    · refine ⟨row, updated, ?_, taken, by simp [setReservation, setRow]⟩
      rw [← charged.spared other apart]
      exact stored
  · intro other outside
    simp only [List.map_append, List.map_cons, List.map_nil, List.mem_append, List.mem_singleton,
      not_or] at outside
    simpa [setReservation, setRow, outside.2] using charged.spared other outside.1

end Charged

theorem Reserving.charged {before store : CapabilityStore} {reservations : List (String × String)}
    (reserving : Reserving before reservations store) : Charged before reservations store := by
  induction reserving with
  | nil => exact .nil before
  | snoc further apart done ih => exact ih.snoc apart done

theorem reserveDecision_ok {around : Surroundings} {capId id : String} {durable durable' : Durable β}
    (run : (CapabilityLeaseService.reserveDecision around capId).run durable = (.ok id, durable')) :
    durable.capabilities.reserve capId id 1 = .ok durable'.capabilities ∧
      durable'.business = durable.business := by
  have run := run_transaction run
  obtain ⟨_, _, first, run⟩ := run_bind.mp run
  obtain ⟨-, rfl⟩ := run_raiseIf.mp first
  obtain ⟨_, _, reserved, run⟩ := run_bind.mp run
  obtain ⟨store, done, rfl⟩ := run_onStore.mp reserved
  obtain ⟨_, _, last, run⟩ := run_bind.mp run
  obtain ⟨-, rfl⟩ := run_raiseIf.mp last
  obtain ⟨rfl, rfl⟩ := run_pure.mp run
  exact ⟨done, rfl⟩

namespace AuthorityTransaction

theorem reserveAll_ok {around : Surroundings} {before : CapabilityStore}
    {decisions : List CapabilityDecision} {reservations final : List (String × String)}
    {durable durable' : Durable β}
    (reserving : Reserving before reservations durable.capabilities)
    (run : (reserveAll around decisions reservations).run durable = (.ok final, durable')) :
    Reserving before final durable'.capabilities ∧ durable'.business = durable.business ∧
      ∀ capId, capId ∈ final.map Prod.fst ↔ capId ∈ reservations.map Prod.fst ∨
        ∃ decision ∈ decisions, decision.consumeCapabilityId = some capId := by
  induction decisions generalizing reservations durable with
  | nil =>
      obtain ⟨rfl, rfl⟩ := run_pure.mp run
      exact ⟨reserving, rfl, by simp⟩
  | cons decision rest ih =>
      rw [reserveAll] at run
      cases named : decision.consumeCapabilityId with
      | none =>
          rw [named] at run
          obtain ⟨reserving', business, members⟩ := ih reserving run
          refine ⟨reserving', business, fun capId => (members capId).trans ?_⟩
          simp [named]
      | some selected =>
          simp only [named] at run
          by_cases known : selected ∈ reservations.map Prod.fst
          · rw [if_pos known] at run
            obtain ⟨reserving', business, members⟩ := ih reserving run
            refine ⟨reserving', business, fun capId => (members capId).trans ?_⟩
            simp only [List.exists_mem_cons_iff, named, Option.some.injEq]
            constructor
            · exact fun found => found.imp_right Or.inr
            · rintro (found | rfl | found)
              · exact Or.inl found
              · exact Or.inl known
              · exact Or.inr found
          · rw [if_neg known] at run
            obtain ⟨id, between, reserved, run⟩ := run_bind.mp run
            obtain ⟨done, kept⟩ := reserveDecision_ok reserved
            obtain ⟨reserving', business, members⟩ := ih (reserving.snoc known done) run
            refine ⟨reserving', business.trans kept, fun capId => (members capId).trans ?_⟩
            simp [named, or_assoc, eq_comm]

end AuthorityTransaction

/-! ## The body -/

/-- Reservations stay what they are reservations of. -/
def Registered (store store' : CapabilityStore) : Prop :=
  ∀ id reservation, store.reservations id = some reservation →
    ∃ status, store'.reservations id = some { reservation with status := status }

namespace Registered
variable {store store' : CapabilityStore}

theorem of_same (same : store'.reservations = store.reservations) : Registered store store' :=
  fun _ reservation stored => ⟨reservation.status, by rw [same, stored]⟩

theorem trans {middle : CapabilityStore} (first : Registered store middle)
    (second : Registered middle store') : Registered store store' := by
  intro id reservation stored
  obtain ⟨status, between⟩ := first id reservation stored
  obtain ⟨status', after⟩ := second id { reservation with status := status } between
  exact ⟨status', after⟩

theorem invalidate (store : CapabilityStore) (chosen : String → Bool) :
    Registered store (store.invalidate chosen) := by
  intro id reservation stored
  simp only [CapabilityStore.invalidate, stored, Option.map_some]
  split_ifs
  · exact ⟨.invalidated, rfl⟩
  · exact ⟨reservation.status, rfl⟩

theorem updateInactive (store : CapabilityStore) (capId : String) (row : CapabilityRow) :
    Registered store (store.updateInactive capId row) :=
  invalidate (store.setRow capId row) _

theorem revokeWhere (store : CapabilityStore) (selected : CapabilityRow → Bool) :
    Registered store (store.revokeWhere selected) :=
  fun id reservation stored => invalidate _ _ id reservation stored

theorem settle {id : String} {reservation : UseReservation}
    (stored : store.reservations id = some reservation) (status : ReservationStatus) :
    Registered store (store.settle id reservation status) := by
  intro other found stored'
  by_cases same : other = id
  · subst same
    obtain rfl := Option.some.inj (stored.symm.trans stored')
    exact ⟨status, by simp [CapabilityStore.settle, setReservation]⟩
  · exact ⟨found.status, by simp [CapabilityStore.settle, setReservation, same, stored']⟩

theorem commit (store : CapabilityStore) (id : String) : Registered store (store.commit id) := by
  unfold CapabilityStore.commit
  split
  · rename_i reservation stored
    split_ifs
    · exact settle stored .committed
    · exact of_same rfl
  · exact of_same rfl

theorem restore (store : CapabilityStore) (id : String) : Registered store (store.restore id) := by
  unfold CapabilityStore.restore
  split
  · rename_i reservation stored
    split_ifs
    · split
      · rename_i updated given
        exact @settle (store.setRow reservation.capId updated) id reservation stored .restored
      · exact settle stored .invalidated
    · exact of_same rfl
  · exact of_same rfl

theorem reserve {capId id : String} {count : Nat}
    (done : store.reserve capId id count = .ok store') : Registered store store' := by
  obtain ⟨row, updated, counted, -, -, free, rfl⟩ := reserve_ok done
  intro other reservation stored
  have different : other ≠ id := by
    rintro rfl
    rw [free] at stored
    cases stored
  exact ⟨reservation.status, by simp [setReservation, setRow, different, stored]⟩

theorem exec {op : StoreOp} (done : op.exec store = .ok store') : Registered store store' := by
  cases op with
  | issue id row =>
      simp only [StoreOp.exec, insertCapability] at done
      split at done
      · cases done
      · obtain rfl := Except.ok.inj done
        exact of_same rfl
  | consume id count =>
      simp only [StoreOp.exec, consume] at done
      split_ifs at done
      obtain ⟨row, found, done⟩ := bind_eq_ok.mp done
      split_ifs at done
      · obtain rfl := Except.ok.inj done
        exact of_same rfl
      · split at done
        · obtain rfl := Except.ok.inj done
          exact of_same rfl
        · cases done
  | reserve id reservationId count => exact reserve done
  | commit id =>
      obtain rfl := Except.ok.inj done
      exact commit store id
  | restore id =>
      obtain rfl := Except.ok.inj done
      exact restore store id
  | revoke id authority =>
      obtain ⟨current, found, done⟩ := bind_eq_ok.mp done
      obtain ⟨reserved, taken, done⟩ := bind_eq_ok.mp done
      obtain rfl := Except.ok.inj done
      cases authority with
      | none =>
          obtain rfl := Except.ok.inj taken
          exact updateInactive store id _
      | some use => exact ((reserve taken).trans (updateInactive reserved id _)).trans (commit _ _)
  | disable id =>
      obtain ⟨row, found, done⟩ := bind_eq_ok.mp done
      obtain rfl := Except.ok.inj done
      exact updateInactive store id _
  | stageExecRevocation id rollbackToken =>
      simp only [StoreOp.exec, stageExecRevocation] at done
      split_ifs at done
      obtain ⟨row, found, done⟩ := bind_eq_ok.mp done
      split_ifs at done <;> obtain rfl := Except.ok.inj done
      · exact updateInactive store id _
      · exact of_same rfl
  | finalizeExecRevocations subject rollbackToken =>
      obtain rfl := Except.ok.inj done
      exact revokeWhere store _
  | restoreExecRevoked subject rollbackToken before =>
      obtain rfl := Except.ok.inj done
      exact of_same rfl
  | revokeResource resource =>
      obtain rfl := Except.ok.inj done
      exact revokeWhere store _

theorem transact (store : CapabilityStore) (op : StoreOp) :
    Registered store (transact StoreOp.exec store op) := by
  rcases transact_cases StoreOp.exec store op with done | same
  · exact exec done
  · rw [same]
    exact of_same rfl

theorem steps (steps : List (BodyStep β)) (durable : Durable β) :
    Registered durable.capabilities (steps.foldl BodyStep.apply durable).capabilities := by
  induction steps generalizing durable with
  | nil => exact of_same rfl
  | cons step steps ih =>
      refine trans ?_ (ih (step.apply durable))
      cases step with
      | operation op => exact transact durable.capabilities op
      | mutate change => exact of_same rfl

end Registered

namespace AuthorityTransaction
variable {self : AuthorityTransaction β} {around : Surroundings}

theorem runBody_ok {current : List CapabilityDecision} {durable durable' : Durable β} {result : Unit}
    (run : (self.runBody current).run durable = (.ok result, durable')) :
    (self.body current durable).raises = none ∧
      durable' = (self.body current durable).steps.foldl BodyStep.apply durable := by
  obtain ⟨trace, _, read, run⟩ := run_bind.mp run
  obtain ⟨same, rfl⟩ := run_consult.mp read
  obtain rfl := Except.ok.inj same
  obtain ⟨_, _, changed, run⟩ := run_bind.mp run
  obtain ⟨quiet, rfl⟩ := run_raiseIf.mp run
  exact ⟨quiet, (Except.ok.inj (run_change.mp changed)).symm⟩

/-! ## Settling -/

theorem commit_ok {capId id : String} {durable durable' : Durable β} {committed : Bool}
    (run : (CapabilityLeaseService.commit around capId id).run durable = (.ok committed, durable')) :
    committed = CapabilityLeaseService.outstanding durable.capabilities id ∧
      durable' = { durable with capabilities := durable.capabilities.commit id } := by
  have run := run_transaction run
  obtain ⟨_, _, first, run⟩ := run_bind.mp run
  obtain ⟨-, rfl⟩ := run_raiseIf.mp first
  obtain ⟨was, _, read, run⟩ := run_bind.mp run
  obtain ⟨same, rfl⟩ := run_consult.mp read
  obtain ⟨_, _, settled, run⟩ := run_bind.mp run
  obtain ⟨store, done, rfl⟩ := run_onStore.mp settled
  obtain ⟨_, _, last, run⟩ := run_bind.mp run
  obtain ⟨-, rfl⟩ := run_raiseIf.mp last
  obtain ⟨rfl, rfl⟩ := run_pure.mp run
  exact ⟨(Except.ok.inj same).symm, by rw [Except.ok.inj done]⟩

theorem outstanding_iff {store : CapabilityStore} {id : String} :
    CapabilityLeaseService.outstanding store id = true ↔ ∃ reservation,
      store.reservations id = some reservation ∧ reservation.status = .reserved := by
  unfold CapabilityLeaseService.outstanding
  cases store.reservations id with
  | none => simp
  | some reservation => simp

theorem commit_reservations (store : CapabilityStore) {id : String} {reservation : UseReservation}
    (stored : store.reservations id = some reservation) (open_ : reservation.status = .reserved)
    (other : String) : (store.commit id).reservations other =
      if other = id then some { reservation with status := .committed }
      else store.reservations other := by
  simp only [CapabilityStore.commit, stored, open_, if_true]
  rfl

/-- The loop ends where it has found every reservation outstanding and committed it. -/
theorem commitAll_ok {reservations : List (String × String)} {durable durable' : Durable β}
    {result : Unit} (distinct : (reservations.map Prod.snd).Nodup)
    (run : (self.commitAll around reservations).run durable = (.ok result, durable')) :
    durable'.business = durable.business ∧
      durable'.capabilities.capabilities = durable.capabilities.capabilities ∧
      (∀ entry ∈ reservations, ∃ reservation,
        durable.capabilities.reservations entry.2 = some reservation ∧
        reservation.status = .reserved ∧ durable'.capabilities.reservations entry.2 =
          some { reservation with status := .committed }) ∧
      ∀ id, id ∉ reservations.map Prod.snd →
        durable'.capabilities.reservations id = durable.capabilities.reservations id := by
  induction reservations generalizing durable with
  | nil =>
      obtain ⟨-, rfl⟩ := run_pure.mp run
      exact ⟨rfl, rfl, by simp, fun _ _ => rfl⟩
  | cons entry rest ih =>
      obtain ⟨capId, id⟩ := entry
      obtain ⟨apart, distinct⟩ := List.nodup_cons.mp distinct
      obtain ⟨committed, between, settled, run⟩ := run_bind.mp run
      obtain ⟨was, rfl⟩ := commit_ok settled
      split_ifs at run with active
      · obtain ⟨business, rows, ends, kept⟩ := ih distinct run
        rw [was] at active
        obtain ⟨reservation, stored, open_⟩ := outstanding_iff.mp active
        have changed := commit_reservations durable.capabilities stored open_
        refine ⟨business, rows.trans (commit_capabilities _ _), ?_, ?_⟩
        · intro entry member
          rcases List.mem_cons.mp member with rfl | member
          · refine ⟨reservation, stored, open_, ?_⟩
            rw [kept id apart, changed, if_pos rfl]
          · have other : entry.2 ≠ id := fun same => apart (List.mem_map.mpr ⟨entry, member, same⟩)
            obtain ⟨found, before, status, after⟩ := ends entry member
            rw [changed, if_neg other] at before
            exact ⟨found, before, status, after⟩
        · intro other outside
          simp only [List.map_cons, List.mem_cons, not_or] at outside
          rw [kept other outside.2, changed, if_neg outside.1]
      · exact absurd run run_throw

/-! ## Whole transactions -/

/-- What a transaction that commits has done: every decision is authorised again in the state it
started from, each capability these decisions name is charged one use, the body has run from there,
and its reservations are committed. -/
structure Committed (caller : AuthorityTransaction β) (before after : Durable β)
    (current : List CapabilityDecision) (reservations : List (String × String))
    (charged : Durable β) : Prop where
  reauthorized : caller.original.mapM (caller.reauthorize before) = .ok current
  named : ∀ capId, capId ∈ reservations.map Prod.fst ↔
    ∃ decision ∈ current, decision.consumeCapabilityId = some capId
  reserving : Reserving before.capabilities reservations charged.capabilities
  untouched : charged.business = before.business
  quiet : (caller.body current charged).raises = none
  business : after.business =
    ((caller.body current charged).steps.foldl BodyStep.apply charged).business
  rows : after.capabilities.capabilities =
    ((caller.body current charged).steps.foldl BodyStep.apply charged).capabilities.capabilities
  settled : ∀ entry ∈ reservations,
    CapabilityLeaseService.outstanding
      ((caller.body current charged).steps.foldl BodyStep.apply charged).capabilities entry.2 = true ∧
    after.capabilities.reservations entry.2 = some ⟨entry.1, 1, .committed, Nat.one_pos⟩
  others : ∀ id, id ∉ reservations.map Prod.snd → after.capabilities.reservations id =
    ((caller.body current charged).steps.foldl BodyStep.apply charged).capabilities.reservations id

theorem enter_ok {before charged : Durable β} {current : List CapabilityDecision}
    {reservations : List (String × String)}
    (run : (self.enter around).run before = (.ok (current, reservations), charged)) :
    self.original.mapM (self.reauthorize before) = .ok current ∧
      Reserving before.capabilities reservations charged.capabilities ∧
      charged.business = before.business ∧ ∀ capId, capId ∈ reservations.map Prod.fst ↔
        ∃ decision ∈ current, decision.consumeCapabilityId = some capId := by
  obtain ⟨_, _, first, run⟩ := run_bind.mp run
  obtain ⟨-, rfl⟩ := run_raiseIf.mp first
  obtain ⟨current', _, again, run⟩ := run_bind.mp run
  obtain ⟨reauthorized, rfl⟩ := run_consult.mp again
  obtain ⟨reservations', _, reserved, run⟩ := run_bind.mp run
  obtain ⟨same, rfl⟩ := run_pure.mp run
  obtain ⟨rfl, rfl⟩ := Prod.mk.inj same
  obtain ⟨reserving, untouched, members⟩ := reserveAll_ok .nil reserved
  exact ⟨reauthorized, reserving, untouched, fun capId => (members capId).trans (by simp)⟩

theorem exit_ok {reservations : List (String × String)} {left after : Durable β} {result : Unit}
    (run : (self.exit around reservations).run left = (.ok result, after)) :
    ∃ result, (self.commitAll around reservations).run left = (.ok result, after) := by
  obtain ⟨_, _, returned, run⟩ := run_bind.mp run
  obtain ⟨-, rfl⟩ := run_raiseIf.mp returned
  obtain ⟨_, _, commits, last⟩ := run_bind.mp run
  obtain ⟨-, rfl⟩ := run_raiseIf.mp last
  exact ⟨_, commits⟩

theorem inside_ok {before after : Durable β} {current : List CapabilityDecision}
    {reservations : List (String × String)}
    (run : (self.inside around).run before = (.ok (current, reservations), after)) :
    ∃ charged, self.Committed before after current reservations charged := by
  obtain ⟨entered, charged, entering, run⟩ := run_bind.mp run
  obtain ⟨_, left, body, run⟩ := run_bind.mp run
  obtain ⟨_, final, exiting, run⟩ := run_bind.mp run
  obtain ⟨rfl, rfl⟩ := run_pure.mp run
  obtain ⟨reauthorized, reserving, untouched, named⟩ := enter_ok entering
  obtain ⟨quiet, rfl⟩ := runBody_ok body
  obtain ⟨_, commits⟩ := exit_ok exiting
  obtain ⟨business, rows, ends, others⟩ := commitAll_ok reserving.charged.distinct commits
  refine ⟨charged, reauthorized, named, reserving, untouched, quiet, business, rows,
    fun entry member => ?_, others⟩
  obtain ⟨reservation, stored, open_, committed⟩ := ends entry member
  refine ⟨outstanding_iff.mpr ⟨reservation, stored, open_⟩, ?_⟩
  -- the body cannot make the reservation one of another capability
  have registered := Registered.steps (self.body current charged).steps charged
  obtain ⟨status, found⟩ := registered entry.2 _ (reserving.charged.held entry member)
  obtain rfl := Option.some.inj (found.symm.trans stored)
  exact committed

def landing (self : AuthorityTransaction β) (around : Surroundings) (before : Durable β) :
    Option (List CapabilityDecision × List (String × String)) :=
  landed ((around.raises .admission).or (around.raises .begin)) around.ending (self.inside around) before

/-- A transaction commits, or it raises and leaves everything as it was. -/
theorem run_atomic (self : AuthorityTransaction β) (around : Surroundings) (before : Durable β) :
    (∃ current reservations charged, self.landing around before = some (current, reservations) ∧
      self.Committed before ((self.run around).run before).2 current reservations charged) ∨
      self.landing around before = none ∧ ((self.run around).run before).2 = before ∧
        ∃ err, ((self.run around).run before).1 = .error err := by
  rcases guarded_transaction_atomic ((around.raises .admission).or (around.raises .begin))
      (around.raises .release) around.ending (self.inside around) before with
    ⟨⟨current, reservations⟩, lands, run⟩ | aborted
  · obtain ⟨charged, committed⟩ := inside_ok run
    exact Or.inl ⟨current, reservations, charged, lands, committed⟩
  · exact Or.inr aborted

end AuthorityTransaction
end AgentLibOS.Capability
