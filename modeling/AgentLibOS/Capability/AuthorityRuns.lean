import AgentLibOS.Capability.AuthorityTransaction

namespace AgentLibOS.Capability
open Library.Scope Library.Run CapabilityStore

variable {β : Type}

/-! ## The uses left -/

/-- At most `n` uses of `capId` are left or claimed by a reservation. -/
def Spendable (capId : String) (n : Nat) (store : CapabilityStore) : Prop :=
  ∃ ids total, total ≤ n ∧ Balance ids capId total store

namespace Spendable
variable {capId : String} {n : Nat} {store store' : CapabilityStore}

/-- An id under which nothing of `capId` is reserved adds nothing to its balance. -/
theorem balance_insert {ids : Finset String} {total : Nat}
    (balance : Balance ids capId total store) (id : String) :
    Balance (insert id ids) capId total store := by
  obtain ⟨uses, left, sum⟩ := balance.sum
  refine ⟨⟨uses, left, ?_⟩, fun other reservation stored mine =>
    Finset.mem_insert_of_mem (balance.listed other reservation stored mine)⟩
  by_cases member : id ∈ ids
  · rw [Finset.insert_eq_of_mem member]
    exact sum
  · have nothing : store.claimed capId id = 0 := by
      unfold CapabilityStore.claimed
      cases stored : store.reservations id with
      | none => rfl
      | some reservation =>
          have foreign : reservation.capId ≠ capId :=
            fun mine => member (balance.listed id reservation stored mine)
          simp [UseReservation.claimed, foreign]
    rw [Finset.sum_insert member, nothing, zero_add]
    exact sum

theorem balance_union {ids : Finset String} {total : Nat}
    (balance : Balance ids capId total store) (drawn : List String) :
    ∃ ids', (∀ id ∈ drawn, id ∈ ids') ∧ Balance ids' capId total store := by
  induction drawn with
  | nil => exact ⟨ids, by simp, balance⟩
  | cons id drawn ih =>
      obtain ⟨ids', inside, balance'⟩ := ih
      refine ⟨insert id ids', fun other member => ?_, balance_insert balance' id⟩
      rcases List.mem_cons.mp member with rfl | member
      · exact Finset.mem_insert_self _ _
      · exact Finset.mem_insert_of_mem (inside other member)

theorem exec {op : StoreOp} (spendable : Spendable capId n store) (apart : op.OnOtherAuthority)
    (done : op.exec store = .ok store') : Spendable capId n store' := by
  obtain ⟨ids, total, le, balance⟩ := spendable
  obtain ⟨ids', drawn, balance'⟩ := balance_union balance op.drawn
  obtain ⟨total', after, sum⟩ := balance'.exec drawn apart done
  exact ⟨ids', total', by omega, after⟩

theorem same (spendable : Spendable capId n store) (same : SameUses capId store store') :
    Spendable capId n store' := by
  obtain ⟨ids, total, le, balance⟩ := spendable
  exact ⟨ids, total, le, same.balance balance⟩

theorem reserving {reservations : List (String × String)} (spendable : Spendable capId n store)
    (reserving : Reserving store reservations store') : Spendable capId n store' := by
  induction reserving with
  | nil => exact spendable
  | @snoc reservations between final capId' id further apart done ih =>
      exact @exec _ _ _ _ (.reserve capId' id 1) ih trivial done

end Spendable

/-- No step of a body revokes a capability on the authority of that same capability. -/
def BodyStep.OnOtherAuthority : BodyStep β → Prop
  | .operation op => op.OnOtherAuthority
  | .mutate _ => True

theorem Spendable.apply {capId : String} {n : Nat} {durable : Durable β} {step : BodyStep β}
    (spendable : Spendable capId n durable.capabilities) (apart : step.OnOtherAuthority) :
    Spendable capId n (step.apply durable).capabilities := by
  cases step with
  | mutate change => exact spendable
  | operation op =>
      rcases transact_cases StoreOp.exec durable.capabilities op with done | same
      · exact spendable.exec apart done
      · simpa only [BodyStep.apply, same] using spendable

theorem Spendable.steps {capId : String} {n : Nat} {steps : List (BodyStep β)} {durable : Durable β}
    (spendable : Spendable capId n durable.capabilities)
    (apart : ∀ step ∈ steps, step.OnOtherAuthority) :
    Spendable capId n (steps.foldl BodyStep.apply durable).capabilities := by
  induction steps generalizing durable with
  | nil => exact spendable
  | cons step steps ih =>
      exact ih (spendable.apply (apart step List.mem_cons_self))
        fun other member => apart other (List.mem_cons_of_mem _ member)

namespace AuthorityTransaction
variable {self : AuthorityTransaction β}

def OnOtherAuthority (self : AuthorityTransaction β) : Prop :=
  ∀ current durable, ∀ step ∈ (self.body current durable).steps, step.OnOtherAuthority

theorem Committed.sameUses {before after charged : Durable β} {current : List CapabilityDecision}
    {reservations : List (String × String)}
    (committed : self.Committed before after current reservations charged) (capId : String) :
    SameUses capId ((self.body current charged).steps.foldl BodyStep.apply charged).capabilities
      after.capabilities := by
  have registered := Registered.steps (self.body current charged).steps charged
  -- what the body leaves under the id of a reservation
  have left : ∀ entry ∈ reservations,
      ((self.body current charged).steps.foldl BodyStep.apply charged).capabilities.reservations
        entry.2 = some ⟨entry.1, 1, .reserved, Nat.one_pos⟩ := by
    intro entry member
    obtain ⟨status, found⟩ :=
      registered entry.2 _ (committed.reserving.charged.held entry member)
    obtain ⟨reservation, stored, open_⟩ := outstanding_iff.mp (committed.settled entry member).1
    obtain rfl := Option.some.inj (found.symm.trans stored)
    rw [found, show status = .reserved from open_]
  refine ⟨by rw [committed.rows], fun id => ?_, fun id reservation' stored => ?_⟩
  · by_cases mine : id ∈ reservations.map Prod.snd
    · obtain ⟨entry, member, rfl⟩ := List.mem_map.mp mine
      simp [CapabilityStore.claimed, (committed.settled entry member).2, left entry member,
        UseReservation.claimed]
    · simp only [CapabilityStore.claimed, committed.others id mine]
  · by_cases mine : id ∈ reservations.map Prod.snd
    · obtain ⟨entry, member, rfl⟩ := List.mem_map.mp mine
      rw [(committed.settled entry member).2] at stored
      obtain rfl := Option.some.inj stored
      exact ⟨_, left entry member, rfl⟩
    · rw [committed.others id mine] at stored
      exact ⟨reservation', stored, rfl⟩

theorem Committed.spendable {before after charged : Durable β} {current : List CapabilityDecision}
    {reservations : List (String × String)} {capId : String} {n : Nat}
    (committed : self.Committed before after current reservations charged)
    (apart : self.OnOtherAuthority) (spendable : Spendable capId n before.capabilities) :
    Spendable capId n after.capabilities :=
  ((spendable.reserving committed.reserving).steps (apart current charged)).same
    (committed.sameUses capId)

end AuthorityTransaction

/-! ## Uses that are settled -/

theorem ended_steps {steps : List (BodyStep β)} {durable : Durable β} {id : String}
    {reservation : UseReservation} (ended : reservation.status ≠ .reserved)
    (stored : durable.capabilities.reservations id = some reservation) :
    (steps.foldl BodyStep.apply durable).capabilities.reservations id = some reservation := by
  induction steps generalizing durable with
  | nil => exact stored
  | cons step steps ih =>
      apply ih
      cases step with
      | mutate change => exact stored
      | operation op =>
          rcases transact_cases StoreOp.exec durable.capabilities op with done | same
          · exact ended_exec stored ended done
          · simpa only [BodyStep.apply, same] using stored

theorem AuthorityTransaction.Committed.ended {self : AuthorityTransaction β}
    {before after charged : Durable β} {current : List CapabilityDecision}
    {reservations : List (String × String)}
    (committed : self.Committed before after current reservations charged) {id : String}
    {reservation : UseReservation} (ended : reservation.status ≠ .reserved)
    (stored : before.capabilities.reservations id = some reservation) :
    after.capabilities.reservations id = some reservation := by
  have outside : id ∉ reservations.map Prod.snd := by
    intro mine
    obtain ⟨entry, member, rfl⟩ := List.mem_map.mp mine
    rw [committed.reserving.charged.fresh entry member] at stored
    cases stored
  rw [committed.others id outside]
  exact ended_steps ended ((committed.reserving.charged.others id outside).trans stored)

/-! ## Runs -/

inductive AuthorityEvent (β : Type)
  | direct (change : BodyStep β)
  | transaction (self : AuthorityTransaction β) (around : Surroundings)

def AuthorityEvent.OnOtherAuthority : AuthorityEvent β → Prop
  | .direct change => change.OnOtherAuthority
  | .transaction self _ => self.OnOtherAuthority

/-- The durable state with the reservations of each transaction that has committed. No code reads
these. -/
structure AuthorityLedger (β : Type) where
  durable : Durable β
  committed : List (List (String × String))

namespace AuthorityLedger

def opened (durable : Durable β) : AuthorityLedger β := ⟨durable, []⟩

def step (ledger : AuthorityLedger β) : AuthorityEvent β → AuthorityLedger β
  | .direct change => { ledger with durable := change.apply ledger.durable }
  | .transaction self around =>
      { durable := ((self.run around).run ledger.durable).2
        committed := ledger.committed ++
          ((self.landing around ledger.durable).map Prod.snd).toList }

/-- The transactions that were authorised by `capId`. -/
def authorised (ledger : AuthorityLedger β) (capId : String) : List (List (String × String)) :=
  ledger.committed.filter fun reservations => capId ∈ reservations.map Prod.fst

/-- Every use that a committed transaction took is committed under an id of its own. -/
structure Charges (ledger : AuthorityLedger β) : Prop where
  distinct : (ledger.committed.flatten.map Prod.snd).Nodup
  settled : ∀ entry ∈ ledger.committed.flatten,
    ledger.durable.capabilities.reservations entry.2 = some ⟨entry.1, 1, .committed, Nat.one_pos⟩

theorem Charges.step {ledger : AuthorityLedger β} (charges : ledger.Charges)
    (event : AuthorityEvent β) : (ledger.step event).Charges := by
  cases event with
  | direct change =>
      refine ⟨charges.distinct, fun entry member => ?_⟩
      exact @ended_steps _ [change] ledger.durable _ _ (by simp) (charges.settled entry member)
  | transaction self around =>
      rcases self.run_atomic around ledger.durable with
        ⟨current, reservations, charged, lands, committed⟩ | ⟨nothing, kept, -⟩
      · have fresh := committed.reserving.charged.fresh
        have same : (ledger.step (.transaction self around)).committed.flatten =
            ledger.committed.flatten ++ reservations := by
          simp [AuthorityLedger.step, lands]
        refine ⟨?_, ?_⟩
        · rw [same, List.map_append]
          refine charges.distinct.append committed.reserving.charged.distinct ?_
          intro id before now
          obtain ⟨entry, member, rfl⟩ := List.mem_map.mp before
          obtain ⟨entry', member', same⟩ := List.mem_map.mp now
          have free := fresh entry' member'
          rw [same, charges.settled entry member] at free
          cases free
        · rw [same]
          intro entry member
          rcases List.mem_append.mp member with member | member
          · exact committed.ended (by simp) (charges.settled entry member)
          · exact (committed.settled entry member).2
      · simpa [AuthorityLedger.step, nothing, kept] using ⟨charges.distinct, charges.settled⟩

theorem spendable_step {ledger : AuthorityLedger β} {event : AuthorityEvent β} {capId : String}
    {n : Nat} (apart : event.OnOtherAuthority)
    (spendable : Spendable capId n ledger.durable.capabilities) :
    Spendable capId n (ledger.step event).durable.capabilities := by
  cases event with
  | direct change => exact spendable.apply apart
  | transaction self around =>
      rcases self.run_atomic around ledger.durable with
        ⟨current, reservations, charged, -, committed⟩ | ⟨-, kept, -⟩
      · exact committed.spendable apart spendable
      · simpa only [AuthorityLedger.step, kept] using spendable

theorem length_filter_le_flatten {α κ : Type} [DecidableEq κ] (key : α → κ) (k : κ)
    (groups : List (List α)) :
    (groups.filter fun group => k ∈ group.map key).length ≤
      (groups.flatten.filter fun entry => key entry = k).length := by
  induction groups with
  | nil => exact le_rfl
  | cons group groups ih =>
      rw [List.flatten_cons, List.filter_append, List.length_append, List.filter_cons]
      by_cases named : k ∈ group.map key
      · obtain ⟨entry, member, rfl⟩ := List.mem_map.mp named
        have some_ : 0 < (group.filter fun other => key other = key entry).length :=
          List.length_pos_of_mem (List.mem_filter.mpr ⟨member, by simp⟩)
        rw [if_pos (by simpa using named), List.length_cons]
        omega
      · rw [if_neg (by simpa using named)]
        omega

/-- Every committed use is claimed in the balance. -/
theorem authorised_le {ledger : AuthorityLedger β} (charges : ledger.Charges) {capId : String}
    {n : Nat} (spendable : Spendable capId n ledger.durable.capabilities) :
    (ledger.authorised capId).length ≤ n := by
  obtain ⟨ids, total, le, balance⟩ := spendable
  obtain ⟨uses, -, sum⟩ := balance.sum
  let mine := ledger.committed.flatten.filter fun entry => entry.1 = capId
  have distinct : (mine.map Prod.snd).Nodup := charges.distinct.sublist (List.filter_sublist.map _)
  have settled : ∀ id ∈ mine.map Prod.snd, ledger.durable.capabilities.reservations id =
      some ⟨capId, 1, .committed, Nat.one_pos⟩ := by
    intro id member
    obtain ⟨entry, inside, rfl⟩ := List.mem_map.mp member
    obtain ⟨inside, same⟩ := List.mem_filter.mp inside
    rw [charges.settled entry inside, of_decide_eq_true same]
  have listed : (mine.map Prod.snd).toFinset ⊆ ids := by
    intro id member
    exact balance.listed id _ (settled id (List.mem_toFinset.mp member)) rfl
  have claims : ∑ id ∈ (mine.map Prod.snd).toFinset,
      ledger.durable.capabilities.claimed capId id = mine.length := by
    have one : ∀ id ∈ (mine.map Prod.snd).toFinset,
        ledger.durable.capabilities.claimed capId id = 1 := by
      intro id member
      simp [CapabilityStore.claimed, settled id (List.mem_toFinset.mp member),
        UseReservation.claimed]
    rw [Finset.sum_congr rfl one, Finset.sum_const, List.toFinset_card_of_nodup distinct,
      List.length_map]
    simp
  have fewer : ∑ id ∈ (mine.map Prod.snd).toFinset, ledger.durable.capabilities.claimed capId id ≤
      ∑ id ∈ ids, ledger.durable.capabilities.claimed capId id :=
    Finset.sum_le_sum_of_subset listed
  have groups := length_filter_le_flatten Prod.fst capId ledger.committed
  change (ledger.authorised capId).length ≤ mine.length at groups
  omega

theorem balance_fresh {store : CapabilityStore} {capId : String} {row : CapabilityRow} {n : Nat}
    (stored : store.capabilities capId = some row) (finite : row.usesRemaining = some n)
    (fresh : ∀ id reservation, store.reservations id = some reservation →
      reservation.capId ≠ capId) : Spendable capId n store := by
  refine ⟨∅, n, le_rfl, ⟨n, by simp [stored, finite], by simp⟩, fun id reservation placed mine => ?_⟩
  exact absurd mine (fresh id reservation placed)

theorem charges_opened (durable : Durable β) : (opened durable).Charges := by
  constructor
  · exact List.nodup_nil
  · intro entry member
    cases member

theorem charges_run (durable : Durable β) (events : List (AuthorityEvent β)) :
    (run step (opened durable) events).Charges :=
  stable_run (fun _ event charges => charges.step event) events (charges_opened durable)

theorem meets_events {side : AuthorityEvent β → Prop} {events : List (AuthorityEvent β)}
    (all : ∀ event ∈ events, side event) (start : AuthorityLedger β) :
    Meets step (fun _ event => side event) start events := by
  induction events generalizing start with
  | nil => trivial
  | cons event events ih =>
      exact ⟨all event List.mem_cons_self,
        ih (fun other inside => all other (List.mem_cons_of_mem _ inside)) _⟩

/-- Wherever it stands in a run, a transaction commits with every decision authorised again and
every capability these name charged one committed use, or it raises and everything is as before;
and a capability with `n` uses authorises at most `n` transactions that commit. -/
theorem transactions_atomic_and_bounded (start : Durable β) (events : List (AuthorityEvent β)) :
    (∀ front self around back, events = front ++ .transaction self around :: back →
      (∃ current reservations charged,
        self.landing around (run step (opened start) front).durable = some (current, reservations) ∧
        self.Committed (run step (opened start) front).durable
          (run step (opened start) (front ++ [.transaction self around])).durable current
          reservations charged ∧
        Charged (run step (opened start) front).durable.capabilities reservations
          charged.capabilities) ∨
      ((run step (opened start) (front ++ [.transaction self around])).durable =
          (run step (opened start) front).durable ∧
        ∃ err, ((self.run around).run (run step (opened start) front).durable).1 = .error err)) ∧
    ∀ capId row n, start.capabilities.capabilities capId = some row → row.usesRemaining = some n →
      (∀ id reservation, start.capabilities.reservations id = some reservation →
        reservation.capId ≠ capId) →
      (∀ event ∈ events, event.OnOtherAuthority) →
      ((run step (opened start) events).authorised capId).length ≤ n := by
  constructor
  · intro front self around back _
    rw [run_append, run_cons, run_nil]
    rcases self.run_atomic around (run step (opened start) front).durable with
      ⟨current, reservations, charged, lands, committed⟩ | ⟨-, kept, raised⟩
    · exact Or.inl ⟨current, reservations, charged, lands, committed, committed.reserving.charged⟩
    · exact Or.inr ⟨kept, raised⟩
  · intro capId row n stored finite fresh apart
    refine authorised_le (charges_run start events) ?_
    exact @invariant_run _ _ step _
      (fun ledger : AuthorityLedger β => Spendable capId n ledger.durable.capabilities)
      (fun ledger event spendable apart => spendable_step apart spendable) (opened start) events
      (balance_fresh stored finite fresh) (meets_events apart _)

/-! ## Two decisions on one capability -/

def reportDecision : CapabilityDecision where
  subject := "pid_1"
  resource := "object:report"
  right := "write"
  allowed := true
  effect := some .allow
  reason := "capability allows"
  matchedCapabilityIds := ["cap_1"]
  selectedCapabilityId := some "cap_1"
  consumeCapabilityId := some "cap_1"
  context := []

/-- A body that counts up, under two decisions that name the same capability. -/
def counting : AuthorityTransaction Nat where
  decisions := [some reportDecision, none, some reportDecision]
  operation := "report"
  reauthorize := fun _ decision => .ok decision
  body := fun _ _ => ⟨[.mutate (· + 1)], none⟩

def calm (id : String) : Surroundings where
  raises := fun _ => none
  savepoint := fun _ => .committed
  ending := .committed
  drawn := fun _ => id

theorem counting_bounded :
    ((run step (opened ⟨UseAccount.threeUses, 0⟩) [.transaction counting (calm "capres_1"),
      .direct (.operation (.consume "cap_1" 1)), .transaction counting (calm "capres_2"),
      .transaction counting (calm "capres_3")]).authorised "cap_1").length ≤ 3 :=
  (transactions_atomic_and_bounded ⟨UseAccount.threeUses, 0⟩ [.transaction counting (calm "capres_1"),
      .direct (.operation (.consume "cap_1" 1)), .transaction counting (calm "capres_2"),
      .transaction counting (calm "capres_3")]).2 "cap_1"
    ⟨"pid_1", "object:report", true, some 3, .active, none, fun _ none_ => by cases none_⟩ 3
    rfl rfl nofun (by
      simp [AuthorityEvent.OnOtherAuthority, AuthorityTransaction.OnOtherAuthority, counting,
        BodyStep.OnOtherAuthority, StoreOp.OnOtherAuthority])

/-- The third transaction finds no use left. -/
example : ((run step (opened ⟨UseAccount.threeUses, 0⟩) [.transaction counting (calm "capres_1"),
      .direct (.operation (.consume "cap_1" 1)), .transaction counting (calm "capres_2"),
      .transaction counting (calm "capres_3")]).durable.business) = 2 := by rfl

end AuthorityLedger
end AgentLibOS.Capability
