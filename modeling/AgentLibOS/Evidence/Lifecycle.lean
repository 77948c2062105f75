import AgentLibOS.Evidence.ExternalEffects

namespace AgentLibOS.Evidence
open Library Library.Run Capability Effects

/-! ## Transaction states -/

/-- A call of the provider may have begun. -/
def Late (state : TransactionState) : Prop := state ∉ [.prepared, .authorized, .approved]

/-- The states of finalised effects. -/
def settledStates : List TransactionState := [.unknown, .committed, .failed, .compensated]

theorem late_of_settled {state : TransactionState} (settled : state ∈ settledStates) :
    Late state := by
  cases state <;> simp_all [settledStates, Late]

theorem outcomeState_settled (metadata : Dict) : outcomeState metadata ∈ settledStates := by
  unfold outcomeState
  split
  · split_ifs <;> decide
  · decide

theorem settled_settled (state : ProviderState) : state.settled ∈ settledStates := by
  cases state <;> decide

namespace EffectWrite

/-- The effect that a write of `unknown` is about. -/
def marksUnknown : EffectWrite → Option String
  | .markUnknown effectId .. | .reconcileUnknown effectId .. => some effectId
  | _ => none

/-- The effect that the write is to finalise. -/
def finalizes : EffectWrite → Option String
  | .record effectId .. | .finalize effectId .. | .settle effectId .. => some effectId
  | _ => none

end EffectWrite

namespace EffectStore
variable {store store' : EffectStore} {write : EffectWrite}

/-! ## What each write does -/

/-- How a write may change a row. -/
inductive Moves (write : EffectWrite) (row record : ExternalEffectRecord) : Prop
  | finalized (pending : row.effectState = .pending) (finalized : record.effectState = .finalized)
      (settled : record.transactionState ∈ settledStates)
  | dispatched (expected : row.transactionState ∉ settledStates)
      (same : record.effectState = row.effectState)
      (dispatched : record.transactionState = .dispatched)
  | unknown (expected : row.transactionState ∈ unsettledStates)
      (same : record.effectState = row.effectState) (unknown : record.transactionState = .unknown)
      (marked : write.marksUnknown = some record.effectId)

/-- The row keeps the key that it has, or takes a free one. -/
def KeepsKey (store : EffectStore) (row record : ExternalEffectRecord) : Prop :=
  record.boundary.pid = row.boundary.pid ∧
    (record.idempotencyKey = none ∨ record.idempotencyKey = row.idempotencyKey) ∨
  store.keyFree record

inductive Change (store : EffectStore) (write : EffectWrite) : EffectStore → Prop
  | same : Change store write store
  | inserted {record : ExternalEffectRecord} {now : String}
      (fresh : store.effects.get record.effectId = none) (free : store.keyFree record)
      (settled : record.effectState = .finalized → record.transactionState ∈ settledStates)
      (unrelated : ∀ effectId, write ≠ .abandon effectId) :
      Change store write (store.writeEffect record now)
  | written {row record : ExternalEffectRecord} {now : String}
      (stored : store.effects.get record.effectId = some row) (moves : Moves write row record)
      (key : KeepsKey store row record) : Change store write (store.writeEffect record now)
  | abandoned {effectId : String} {row : ExternalEffectRecord}
      (stored : store.effects.get effectId = some row) (pending : row.effectState = .pending)
      (asked : write = .abandon effectId) :
      Change store write { store with effects := store.effects.restrict (· != effectId) }

theorem insertExternalEffect_ok {record : ExternalEffectRecord}
    (done : store.insertExternalEffect record = .ok store') :
    store.effects.get record.effectId = none ∧ store.keyFree record ∧
      store' = store.writeEffect record record.updatedAt := by
  simp only [insertExternalEffect, bind_eq_ok, ensure_ok] at done
  obtain ⟨_, _, _, ⟨fresh, free⟩, done⟩ := done
  cases done
  exact ⟨Option.isNone_iff_eq_none.mp fresh, free, rfl⟩

theorem finalizeExternalEffect_ok {record : ExternalEffectRecord} {done : Bool}
    (accepted : store.finalizeExternalEffect record = .ok (store', done)) :
    record.effectState = .finalized ∧ (store' = store ∨
      ∃ row, store.effects.get record.effectId = some row ∧ row.effectState = .pending ∧
        store.keyFree record ∧ store' = store.writeEffect record record.updatedAt) := by
  simp only [finalizeExternalEffect, bind_eq_ok, ensure_ok] at accepted
  obtain ⟨_, finalized, _, _, accepted⟩ := accepted
  refine ⟨finalized, ?_⟩
  split at accepted
  · cases accepted
    exact Or.inl rfl
  · next row stored =>
      split_ifs at accepted with intent
      · simp only [bind_eq_ok, ensure_ok] at accepted
        obtain ⟨_, free, accepted⟩ := accepted
        cases accepted
        exact Or.inr ⟨row, stored, intent.2.2.2.2.2, free, rfl⟩
      · cases accepted
        exact Or.inl rfl

theorem transitionExternalEffect_ok {effectId now : String} {expected : List TransactionState}
    {state : TransactionState} {metadata receipt : Option Dict} {done : Bool}
    (accepted : store.transitionExternalEffect effectId expected state metadata receipt now =
      .ok (store', done)) :
    store' = store ∨ ∃ row record, store.effects.get effectId = some row ∧
      record.effectId = effectId ∧ row.transactionState ∈ expected ∧
      record.effectState = row.effectState ∧ record.transactionState = state ∧
      KeepsKey store row record ∧ store' = store.writeEffect record now := by
  unfold transitionExternalEffect at accepted
  split at accepted
  · cases accepted
    exact Or.inl rfl
  · next row stored =>
      split_ifs at accepted with member
      · simp only [bind_eq_ok, ensure_ok] at accepted
        obtain ⟨_, _, accepted⟩ := accepted
        cases accepted
        refine Or.inr ⟨row, _, stored, ?_, member, ?_, ?_, ?_, rfl⟩
        · rfl
        · rfl
        · rfl
        · exact Or.inl ⟨rfl, Or.inr rfl⟩
      · cases accepted
        exact Or.inl rfl

theorem becomeUnknown_ok {effectId now : String} {seen : ExternalEffectRecord}
    {metadata receipt : Dict}
    (done : store.becomeUnknown effectId seen metadata receipt now = .ok store') :
    store' = store ∨ ∃ moved, store.transitionExternalEffect effectId unsettledStates .unknown
      (some metadata) (some receipt) now = .ok (store', moved) := by
  unfold becomeUnknown at done
  split_ifs at done
  · cases done
    exact Or.inl rfl
  · obtain ⟨⟨next, moved⟩, accepted, rfl⟩ := map_eq_ok.mp done
    exact Or.inr ⟨moved, accepted⟩

theorem settleExternalEffectRecovery_ok {effectId auditId now : String}
    {expected : TransactionState} {providerState : ProviderState} {metadata receipt : Dict}
    {converges done : Bool}
    (accepted : store.settleExternalEffectRecovery effectId expected providerState metadata receipt
      auditId now converges = .ok (store', done)) :
    store' = store ∨ ∃ row record, store.effects.get effectId = some row ∧
      record.effectId = effectId ∧ row.effectState = .pending ∧
      record.effectState = .finalized ∧ record.transactionState = providerState.settled ∧
      KeepsKey store row record ∧ store' = store.writeEffect record now := by
  simp only [settleExternalEffectRecovery, bind_eq_ok, ensure_ok] at accepted
  obtain ⟨_, _, _, _, _, _, accepted⟩ := accepted
  split at accepted
  · cases accepted
    exact Or.inl rfl
  · next row stored =>
      split_ifs at accepted with candidate notStarted
      · simp only [bind_eq_ok, ensure_ok] at accepted
        obtain ⟨_, _, _, _, _, _, accepted⟩ := accepted
        cases accepted
        refine Or.inr ⟨row, _, stored, ?_, candidate.1, ?_, ?_, ?_, rfl⟩
        · rfl
        · rfl
        · rfl
        · exact Or.inl ⟨rfl, Or.inl rfl⟩
      · simp only [bind_eq_ok, ensure_ok] at accepted
        obtain ⟨_, _, _, _, _, _, accepted⟩ := accepted
        cases accepted
        refine Or.inr ⟨row, _, stored, ?_, candidate.1, ?_, ?_, ?_, rfl⟩
        · rfl
        · rfl
        · rfl
        · exact Or.inl ⟨rfl, Or.inr rfl⟩
      · cases accepted
        exact Or.inl rfl

theorem transition_change {effectId now : String} {expected : List TransactionState}
    {state : TransactionState} {metadata receipt : Option Dict} {done : Bool}
    (accepted : store.transitionExternalEffect effectId expected state metadata receipt now =
      .ok (store', done))
    (moves : ∀ row record : ExternalEffectRecord, record.effectId = effectId →
      row.transactionState ∈ expected → record.effectState = row.effectState →
      record.transactionState = state → Moves write row record) :
    Change store write store' := by
  obtain rfl | ⟨row, record, stored, rfl, member, same, moved, key, rfl⟩ :=
    transitionExternalEffect_ok accepted
  · exact .same
  · exact .written stored (moves row record rfl member same moved) key

theorem becomeUnknown_change {effectId now : String} {seen : ExternalEffectRecord}
    {metadata receipt : Dict} (marked : write.marksUnknown = some effectId)
    (done : store.becomeUnknown effectId seen metadata receipt now = .ok store') :
    Change store write store' := by
  obtain rfl | ⟨moved, accepted⟩ := becomeUnknown_ok done
  · exact .same
  · apply transition_change accepted
    intro row record named member same unknown
    exact .unknown member same unknown (by rw [named, marked])

theorem exec_change (done : store.exec write = .ok store') : Change store write store' := by
  cases write with
  | prepare effectId boundary stateMutation informationFlow metadata argsHash key now =>
      obtain ⟨fresh, free, rfl⟩ := insertExternalEffect_ok done
      refine .inserted fresh free ?_ ?_
      · intro finalized
        cases finalized
      · intro other same
        cases same
  | record effectId outcome now =>
      obtain ⟨fresh, free, rfl⟩ := insertExternalEffect_ok done
      refine .inserted fresh free ?_ ?_
      · intro _
        exact outcomeState_settled outcome.metadata
      · intro other same
        cases same
  | finalize effectId outcome seen now =>
      obtain ⟨⟨next, moved⟩, accepted, rfl⟩ := map_eq_ok.mp done
      obtain ⟨_, rfl | ⟨row, stored, pending, free, rfl⟩⟩ := finalizeExternalEffect_ok accepted
      · exact .same
      · exact .written stored (.finalized pending rfl (outcomeState_settled outcome.metadata))
          (Or.inr free)
  | markDispatched effectId seen now =>
      obtain ⟨⟨next, moved⟩, accepted, rfl⟩ := map_eq_ok.mp done
      apply transition_change accepted
      intro row record _ member same dispatched
      refine .dispatched ?_ same dispatched
      intro settled
      exact late_of_settled settled member
  | recordPhase effectId metadata now =>
      obtain ⟨⟨next, moved⟩, accepted, rfl⟩ := map_eq_ok.mp done
      apply transition_change accepted
      intro row record _ member same dispatched
      refine .dispatched ?_ same dispatched
      rw [List.mem_singleton.mp member]
      decide
  | markUnknown effectId seen reason receipt now => exact becomeUnknown_change rfl done
  | reconcileUnknown effectId seen receipt now => exact becomeUnknown_change rfl done
  | settle effectId expected providerState metadata receipt auditId now converges =>
      obtain ⟨⟨next, moved⟩, accepted, rfl⟩ := map_eq_ok.mp done
      obtain rfl | ⟨row, record, stored, rfl, pending, finalized, settled, key, rfl⟩ :=
        settleExternalEffectRecovery_ok accepted
      · exact .same
      · refine .written stored (.finalized pending finalized ?_) key
        rw [settled]
        exact settled_settled providerState
  | abandon effectId =>
      simp only [exec, abandonExternalEffectIntent] at done
      split at done
      · cases done
        exact .same
      · next row stored =>
          split_ifs at done with intent
          · cases done
            exact .abandoned stored intent.2.2.2.2 rfl
          · cases done
            exact .same

theorem step_change (store : EffectStore) (write : EffectWrite) :
    Change store write (store.step write) := by
  rcases transact_cases exec store write with done | same
  · exact exec_change done
  · rw [step, same]
    exact .same

/-! ## Consistent stores -/

structure Consistent (store : EffectStore) : Prop where
  named : ∀ id row, store.effects.get id = some row → row.effectId = id
  settled : ∀ id row, store.effects.get id = some row → row.effectState = .finalized →
    row.transactionState ∈ settledStates
  numbered : store.transitions.map (·.seq) = (List.range' 1 store.ledgerSeq).reverse
  newest : ∀ id row, store.effects.get id = some row →
    ∃ entry, store.transitions.find? (·.effectId == id) = some entry ∧
      entry.effectState = row.effectState ∧ entry.transactionState = row.transactionState
  keys : ∀ id id' row row' key, store.effects.get id = some row →
    store.effects.get id' = some row' → row.boundary.pid = row'.boundary.pid →
      row.idempotencyKey = some key → row'.idempotencyKey = some key → id = id'

theorem empty_consistent : Consistent empty where
  named := fun _ _ stored => by cases stored
  settled := fun _ _ stored => by cases stored
  numbered := rfl
  newest := fun _ _ stored => by cases stored
  keys := fun _ _ _ _ _ stored => by cases stored

theorem written_keys (consistent : Consistent store) {record : ExternalEffectRecord} {now : String}
    (apart : ∀ id row key, store.effects.get id = some row → id ≠ record.effectId →
      row.boundary.pid = record.boundary.pid → record.idempotencyKey = some key →
        row.idempotencyKey ≠ some key) (id id' : String) (row row' : ExternalEffectRecord)
    (key : String) (stored : (store.writeEffect record now).effects.get id = some row)
    (stored' : (store.writeEffect record now).effects.get id' = some row')
    (pid : row.boundary.pid = row'.boundary.pid) (held : row.idempotencyKey = some key)
    (held' : row'.idempotencyKey = some key) : id = id' := by
  simp only [writeEffect, Table.set_get] at stored stored'
  split_ifs at stored stored' with here there there
  · exact here.trans there.symm
  · cases stored
    exact absurd held' (apart id' row' key stored' there pid.symm held)
  · cases stored'
    exact absurd held (apart id row key stored here pid held')
  · exact consistent.keys id id' row row' key stored stored' pid held held'

theorem keyFree_apart {record : ExternalEffectRecord} (free : store.keyFree record) (id : String)
    (row : ExternalEffectRecord) (key : String) (stored : store.effects.get id = some row)
    (other : id ≠ record.effectId) (pid : row.boundary.pid = record.boundary.pid)
    (held : record.idempotencyKey = some key) : row.idempotencyKey ≠ some key := by
  have listed : id ∈ store.effects.keys := by
    rw [Table.mem, stored]
    rfl
  have present : record.idempotencyKey.isSome = true := by
    rw [held]
    rfl
  rw [← held]
  exact free id listed other row stored pid present

theorem keepsKey_apart (consistent : Consistent store) {row record : ExternalEffectRecord}
    (stored : store.effects.get record.effectId = some row) (keeps : KeepsKey store row record)
    (id : String) (other : ExternalEffectRecord) (key : String)
    (found : store.effects.get id = some other) (different : id ≠ record.effectId)
    (pid : other.boundary.pid = record.boundary.pid) (held : record.idempotencyKey = some key) :
    other.idempotencyKey ≠ some key := by
  rcases keeps with ⟨samePid, none | same⟩ | free
  · rw [none] at held
    cases held
  · intro again
    rw [same] at held
    exact different (consistent.keys id record.effectId other row key found stored
      (pid.trans samePid) again held)
  · exact keyFree_apart free id other key found different pid held

/-- The row, the ledger and the keys after a write. -/
theorem written_consistent (consistent : Consistent store) {record : ExternalEffectRecord}
    {now : String}
    (settled : record.effectState = .finalized → record.transactionState ∈ settledStates)
    (apart : ∀ id row key, store.effects.get id = some row → id ≠ record.effectId →
      row.boundary.pid = record.boundary.pid → record.idempotencyKey = some key →
        row.idempotencyKey ≠ some key) : Consistent (store.writeEffect record now) where
  named := by
    intro id row stored
    simp only [writeEffect, Table.set_get] at stored
    split_ifs at stored with here
    · cases stored
      exact here.symm
    · exact consistent.named id row stored
  settled := by
    intro id row stored
    simp only [writeEffect, Table.set_get] at stored
    split_ifs at stored
    · cases stored
      exact settled
    · exact consistent.settled id row stored
  numbered := by
    simp only [writeEffect, List.map_cons, consistent.numbered]
    rw [List.range'_concat, List.reverse_append]
    simp [Nat.add_comm]
  newest := by
    intro id row stored
    simp only [writeEffect, Table.set_get] at stored ⊢
    split_ifs at stored with here
    · cases stored
      exact ⟨_, by rw [here]; exact List.find?_cons_of_pos (by simp), rfl, rfl⟩
    · obtain ⟨entry, found, states⟩ := consistent.newest id row stored
      refine ⟨entry, ?_, states⟩
      rw [List.find?_cons_of_neg (by simpa using Ne.symm here)]
      exact found
  keys := written_keys consistent apart

theorem Moves.settled {row record : ExternalEffectRecord} (moves : Moves write row record)
    (settled : row.effectState = .finalized → row.transactionState ∈ settledStates)
    (finalized : record.effectState = .finalized) : record.transactionState ∈ settledStates := by
  cases moves with
  | finalized pending finalized settled => exact settled
  | dispatched expected same dispatched => exact absurd (settled (same ▸ finalized)) expected
  | unknown expected same unknown marked =>
      rw [unknown]
      decide

theorem Change.consistent (change : Change store write store') (consistent : Consistent store) :
    Consistent store' := by
  cases change with
  | same => exact consistent
  | inserted fresh free settled unrelated =>
      exact written_consistent consistent settled (keyFree_apart free)
  | written stored moves key =>
      exact written_consistent consistent (moves.settled (consistent.settled _ _ stored))
        (keepsKey_apart consistent stored key)
  | @abandoned effectId row stored pending asked =>
      have kept (id : String) (row : ExternalEffectRecord)
          (left : (store.effects.restrict (· != effectId)).get id = some row) :
          store.effects.get id = some row := by
        rw [Table.restrict_get] at left
        split_ifs at left
        exact left
      exact
        { named := fun id row left => consistent.named id row (kept id row left)
          settled := fun id row left => consistent.settled id row (kept id row left)
          numbered := consistent.numbered
          newest := fun id row left => consistent.newest id row (kept id row left)
          keys := fun id id' row row' key left left' =>
            consistent.keys id id' row row' key (kept id row left) (kept id' row' left') }

/-! ## Rows over time -/

/-- No write of `unknown` reaches a finalised effect whose outcome is unknown. -/
def Quiet (store : EffectStore) (write : EffectWrite) : Prop :=
  ∀ id row, write.marksUnknown = some id → store.effects.get id = some row →
    row.effectState = .finalized → row.transactionState ≠ .unknown

/-- What becomes of a row: it never returns before a dispatch, and a finalised one keeps its
states. -/
def RowAdvances (row row' : ExternalEffectRecord) : Prop :=
  (Late row.transactionState → Late row'.transactionState) ∧
    (row.effectState = .finalized → row'.effectState = .finalized ∧
      row'.transactionState = row.transactionState)

theorem RowAdvances.refl (row : ExternalEffectRecord) : RowAdvances row row :=
  ⟨id, fun finalized => ⟨finalized, rfl⟩⟩

theorem Moves.advances {row record : ExternalEffectRecord} (moves : Moves write row record)
    (settled : row.effectState = .finalized → row.transactionState ∈ settledStates) :
    RowAdvances row record := by
  cases moves with
  | finalized pending finalized done =>
      refine ⟨fun _ => late_of_settled done, ?_⟩
      intro already
      rw [pending] at already
      cases already
  | dispatched expected same dispatched =>
      refine ⟨fun _ => by rw [dispatched]; simp [Late], ?_⟩
      intro already
      exact absurd (settled already) expected
  | unknown expected same unknown marked =>
      refine ⟨fun _ => by rw [unknown]; simp [Late], ?_⟩
      intro already
      refine ⟨same.trans already, unknown.trans ?_⟩
      have both := settled already
      generalize row.transactionState = state at both expected
      cases state <;> simp_all [settledStates, unsettledStates]

/-- A row stays, unless its pending effect is abandoned; a finalised one stays as it is, unless a
write of `unknown` reaches it. -/
theorem Change.row (change : Change store write store') (consistent : Consistent store)
    {id : String} {row : ExternalEffectRecord} (stored : store.effects.get id = some row) :
    (∃ row', store'.effects.get id = some row' ∧ RowAdvances row row' ∧
      (row.effectState = .finalized → Quiet store write → row' = row)) ∨
      row.effectState = .pending ∧ write = .abandon id := by
  cases change with
  | same => exact Or.inl ⟨row, stored, .refl row, fun _ _ => rfl⟩
  | @inserted record now fresh free settled unrelated =>
      have different : id ≠ record.effectId := by
        rintro rfl
        rw [fresh] at stored
        cases stored
      refine Or.inl ⟨row, ?_, .refl row, fun _ _ => rfl⟩
      simpa [writeEffect, different] using stored
  | @written before record now held moves key =>
      by_cases same : id = record.effectId
      · subst same
        rw [stored] at held
        cases held
        have known := consistent.settled _ _ stored
        refine Or.inl ⟨record, by simp [writeEffect], moves.advances known, ?_⟩
        intro finalized quiet
        exfalso
        cases moves with
        | finalized pending _ _ =>
            rw [pending] at finalized
            cases finalized
        | dispatched expected _ _ => exact expected (known finalized)
        | unknown expected same unknown marked =>
            have settled := known finalized
            have other := quiet record.effectId row marked stored finalized
            generalize row.transactionState = state at settled expected other
            cases state <;> simp_all [settledStates, unsettledStates]
      · refine Or.inl ⟨row, ?_, .refl row, fun _ _ => rfl⟩
        simpa [writeEffect, same] using stored
  | @abandoned effectId before held pending asked =>
      by_cases same : id = effectId
      · subst same
        rw [stored] at held
        cases held
        exact Or.inr ⟨pending, asked⟩
      · refine Or.inl ⟨row, ?_, .refl row, fun _ _ => rfl⟩
        simpa [same] using stored

/-! ## Runs -/

theorem run_consistent (consistent : Consistent store) (writes : List EffectWrite) :
    Consistent (run step store writes) :=
  stable_run (fun current write holds => (step_change current write).consistent holds) writes
    consistent

theorem run_finalized (consistent : Consistent store) {id : String} {row : ExternalEffectRecord}
    (stored : store.effects.get id = some row) (finalized : row.effectState = .finalized)
    (writes : List EffectWrite) :
    ∃ row', (run step store writes).effects.get id = some row' ∧ row'.effectState = .finalized ∧
      row'.transactionState = row.transactionState ∧
      (Meets step Quiet store writes → row' = row) := by
  induction writes generalizing store row with
  | nil => exact ⟨row, stored, finalized, rfl, fun _ => rfl⟩
  | cons write writes ih =>
      have change := step_change store write
      rcases change.row consistent stored with ⟨next, here, advances, frozen⟩ | ⟨pending, _⟩
      · obtain ⟨finalized', same⟩ := advances.2 finalized
        obtain ⟨last, there, ended, same', frozen'⟩ := ih (change.consistent consistent) here finalized'
        refine ⟨last, there, ended, same'.trans same, ?_⟩
        intro quiet
        exact (frozen' quiet.2).trans (frozen finalized quiet.1)
      · rw [pending] at finalized
        cases finalized

theorem run_late (consistent : Consistent store) {id : String} {row : ExternalEffectRecord}
    (stored : store.effects.get id = some row) (late : Late row.transactionState)
    {writes : List EffectWrite} (retained : .abandon id ∉ writes) :
    ∃ row', (run step store writes).effects.get id = some row' ∧ Late row'.transactionState := by
  induction writes generalizing store row with
  | nil => exact ⟨row, stored, late⟩
  | cons write writes ih =>
      rw [List.mem_cons, not_or] at retained
      have change := step_change store write
      rcases change.row consistent stored with ⟨next, here, advances, _⟩ | ⟨_, abandoned⟩
      · exact ih (change.consistent consistent) here (advances.1 late) retained.2
      · exact absurd abandoned.symm retained.1

/-- A finalised effect is not finalised again. -/
theorem finalized_once {id : String} {row : ExternalEffectRecord}
    (stored : store.effects.get id = some row) (finalized : row.effectState = .finalized)
    (again : write.finalizes = some id) : store.step write = store := by
  rcases transact_cases exec store write with done | same
  · have closed {other : ExternalEffectRecord} (found : store.effects.get id = some other)
        (pending : other.effectState = .pending) : False := by
      rw [stored] at found
      cases found
      rw [pending] at finalized
      cases finalized
    cases write with
    | record effectId outcome now =>
        cases again
        obtain ⟨fresh, _⟩ := insertExternalEffect_ok done
        change store.effects.get id = none at fresh
        rw [stored] at fresh
        cases fresh
    | finalize effectId outcome seen now =>
        cases again
        obtain ⟨⟨next, moved⟩, accepted, result⟩ := map_eq_ok.mp done
        obtain ⟨_, rfl | ⟨other, found, pending, _⟩⟩ := finalizeExternalEffect_ok accepted
        · exact result.symm
        · exact (closed found pending).elim
    | settle effectId expected providerState metadata receipt auditId now converges =>
        cases again
        obtain ⟨⟨next, moved⟩, accepted, result⟩ := map_eq_ok.mp done
        obtain rfl | ⟨other, record, found, _, pending, _⟩ :=
          settleExternalEffectRecovery_ok accepted
        · exact result.symm
        · exact (closed found pending).elim
    | _ => cases again
  · exact same

/-- The lifecycle of every effect is monotone: `middle` and `last` are any two stores of a run. A
finalised row keeps its receipt and metadata as long as no write of `unknown` reaches it. -/
theorem external_effects_monotone (front back : List EffectWrite) :
    let middle := run step empty front
    let last := run step middle back
    (∀ id row, middle.effects.get id = some row → row.effectState = .finalized →
      (∃ row', last.effects.get id = some row' ∧ row'.effectState = .finalized ∧
        row'.transactionState = row.transactionState ∧
        (Meets step Quiet middle back → row' = row)) ∧
      ∀ write : EffectWrite, write.finalizes = some id → middle.step write = middle) ∧
    (∀ id row, middle.effects.get id = some row → Late row.transactionState →
      .abandon id ∉ back →
        ∃ row', last.effects.get id = some row' ∧ Late row'.transactionState) ∧
    last.transitions.map (·.seq) = (List.range' 1 last.ledgerSeq).reverse ∧
    (∀ id row, last.effects.get id = some row →
      ∃ entry, last.transitions.find? (·.effectId == id) = some entry ∧
        entry.effectState = row.effectState ∧ entry.transactionState = row.transactionState) ∧
    ∀ id id' row row' key, last.effects.get id = some row → last.effects.get id' = some row' →
      row.boundary.pid = row'.boundary.pid → row.idempotencyKey = some key →
        row'.idempotencyKey = some key → id = id' := by
  intro middle last
  have sound : Consistent middle := run_consistent empty_consistent front
  have final : Consistent last := run_consistent sound back
  refine ⟨?_, ?_, final.numbered, final.newest, final.keys⟩
  · intro id row stored finalized
    refine ⟨run_finalized sound stored finalized back, ?_⟩
    intro write again
    exact finalized_once stored finalized again
  · intro id row stored late retained
    exact run_late sound stored late retained

/-! ## A late write of `unknown` -/

def demoBoundary : EffectBoundary := ⟨"process", "filesystem", "write", some "file"⟩

/-- A provider call that ends with an unknown outcome. -/
def demoWrites : List EffectWrite :=
  [.prepare "effect" demoBoundary true false [] "hash" "key" "t1",
    .markDispatched "effect"
      (intentRecord "effect" demoBoundary true false [] "hash" "key" "t1") "t2",
    .finalize "effect" ⟨some "audit", some "event", demoBoundary,
      ⟨.irreversible, .notSupported, true, false⟩,
      [("outcome", .str "unknown_after_provider_boundary")]⟩ none "t3"]

/-- A reconciler that had read the pending row. -/
def demoMark : EffectWrite :=
  .markUnknown "effect" (intentRecord "effect" demoBoundary true false [] "hash" "key" "t1")
    "provider_does_not_support_reconciliation" none "t4"

/-- Of a row: its state, and whether a reconciler has written its reason over the metadata. -/
def marked (store : EffectStore) : Option (EffectState × Bool) :=
  (store.effects.get "effect").map fun row =>
    (row.effectState, (row.providerMetadata.get "reconciliation_reason").isStr)

theorem finalized_metadata_rewritten :
    marked (run step empty demoWrites) = some (.finalized, false) ∧
      marked (run step empty (demoWrites ++ [demoMark])) = some (.finalized, true) := by
  decide

end EffectStore
end AgentLibOS.Evidence
