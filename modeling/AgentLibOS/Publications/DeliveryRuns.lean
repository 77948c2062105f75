import AgentLibOS.Publications.PayloadDelivery
import Mathlib.Data.String.Basic

namespace AgentLibOS.Publications
open Library Library.Run Processes

/-! ## Deliveries of a publication -/

theorem assigned_of_attempt {delivery : PayloadDelivery} {deliverable : Bool} {attemptId : String}
    (valid : delivery.valid deliverable = true) (carries : delivery.attemptId = some attemptId) :
    deliverable = true ∧ ∃ state, delivery.state = some state ∧ state.assigned = true := by
  unfold PayloadDelivery.valid at valid
  cases held : delivery.state with
  | none => simp [held, carries] at valid
  | some state =>
      cases started : delivery.startedAt with
      | none => simp [held, carries, started] at valid
      | some startedAt =>
          simp only [held, carries, started, Bool.and_eq_true] at valid
          exact ⟨valid.1.2, state, rfl, valid.2.1⟩

theorem attempt_of_assigned {delivery : PayloadDelivery} {deliverable : Bool}
    {state : PayloadDeliveryState} (valid : delivery.valid deliverable = true)
    (held : delivery.state = some state) :
    delivery.attemptId.isSome = state.assigned := by
  unfold PayloadDelivery.valid at valid
  cases carried : delivery.attemptId <;> cases started : delivery.startedAt <;>
    simp_all

theorem RuntimePublication.carries_state {publication : RuntimePublication} {attemptId : String}
    (carries : publication.carries attemptId) :
    publication.deliverable = true ∧
      (publication.delivery.state = some .confirmed ∨
        publication.delivery.state = some .completed) := by
  obtain ⟨deliverable, state, held, assigned⟩ :=
    assigned_of_attempt publication.projection carries
  refine ⟨deliverable, ?_⟩
  cases state with
  | pending => cases assigned
  | confirmed => exact Or.inl held
  | completed => exact Or.inr held

namespace DeliveryStore
variable {store store' : DeliveryStore}

theorem someCarrier_of {id attemptId : String} {publication : RuntimePublication}
    {test : RuntimePublication → Bool} (stored : store.publications.get id = some publication)
    (carries : publication.carries attemptId) (holds : test publication = true) :
    store.someCarrier attemptId test := by
  refine ⟨id, ?_, publication, stored, (RuntimePublication.carries_state carries).1, carries, holds⟩
  rw [Table.mem, stored]
  rfl

/-! ## What each call does -/

/-- What a call does to the store; `moved` is a successful transition. -/
inductive Change (store : DeliveryStore) : DeliveryStore → Prop
  | same : Change store store
  | begun {attemptId : String} {row : AttemptRow} (fresh : store.attempts.get attemptId = none)
      (fresh_state : row.state = .preparing) :
      Change store { store with attempts := store.attempts.set attemptId row }
  | acked {attempt : CheckpointPayloadDeliveryAttempt} {row : AttemptRow}
      (preparing : store.preparing attempt) (owner : row.ownerInstanceId = attempt.ownerInstanceId)
      (started : row.startedAt = attempt.startedAt) (acked : row.state = .acked)
      (carried : ∃ id publication, store.publications.get id = some publication ∧
        publication.carries attempt.attemptId)
      (completed : ∀ id publication, store.publications.get id = some publication →
        publication.carries attempt.attemptId → publication.delivery.state = some .completed) :
      Change store { store with attempts := store.attempts.set attempt.attemptId row }
  | aborted {attempt : CheckpointPayloadDeliveryAttempt} {row : AttemptRow}
      (preparing : store.preparing attempt) (owner : row.ownerInstanceId = attempt.ownerInstanceId)
      (started : row.startedAt = attempt.startedAt) (aborted : row.state = .aborted)
      (free : ∀ id publication, store.publications.get id = some publication →
        ¬ publication.carries attempt.attemptId) :
      Change store { store with attempts := store.attempts.set attempt.attemptId row }
  | moved {id : String} {publication publication' : RuntimePublication}
      (stored : store.publications.get id = some publication)
      (released : ∀ attemptId, publication.carries attemptId →
        ∃ row, store.attempts.get attemptId = some row ∧ row.state = .preparing)
      (assigned : ∀ attemptId, publication'.carries attemptId →
        ∃ row, store.attempts.get attemptId = some row ∧ row.state = .preparing ∧
          row.ownerInstanceId = publication'.ownerInstanceId) :
      Change store { store with publications := store.publications.set id publication' }

theorem preparing_row {attempt : CheckpointPayloadDeliveryAttempt}
    (preparing : store.preparing attempt) :
    ∃ row, store.attempts.get attempt.attemptId = some row ∧
      row.ownerInstanceId = attempt.ownerInstanceId ∧ row.startedAt = attempt.startedAt ∧
      row.state = .preparing := preparing

theorem beginAttempt_change (attempt : CheckpointPayloadDeliveryAttempt) :
    Change store (store.beginAttempt attempt).1 := by
  unfold beginAttempt
  split_ifs with taken
  · exact .same
  · refine .begun ?_ rfl
    cases held : store.attempts.get attempt.attemptId with
    | none => rfl
    | some row => exact absurd (Or.inl (by rw [held]; rfl)) taken

theorem ackAttempt_change (attempt : CheckpointPayloadDeliveryAttempt) (now : String) :
    Change store (store.ackAttempt attempt now).1 := by
  simp only [ackAttempt]
  split_ifs with accepted
  · obtain ⟨preparing, carrier, unconfirmed, _, _⟩ := accepted
    refine .acked preparing rfl rfl rfl ?_ ?_
    · obtain ⟨id, _, publication, stored, _, carries, _⟩ := carrier
      exact ⟨id, publication, stored, carries⟩
    · intro id publication stored carries
      rcases (RuntimePublication.carries_state carries).2 with confirmed | completed
      · refine absurd (someCarrier_of stored carries ?_) unconfirmed
        simp [confirmed]
      · exact completed
  · exact .same

theorem abortAttempt_change (attempt : CheckpointPayloadDeliveryAttempt) :
    Change store (store.abortAttempt attempt).1 := by
  unfold abortAttempt
  split_ifs with accepted
  · refine .aborted accepted.1 rfl rfl rfl ?_
    intro id publication stored carries
    exact accepted.2 (someCarrier_of stored carries rfl)
  · exact .same

theorem validate_ok {request : DeliveryRequest} {accepted : Unit}
    (done : request.validate = .ok accepted) :
    (request.expectedState, request.deliveryState) ∈ DeliveryRequest.transitions ∧
      (request.deliveryState = .completed → request.deliveryAttempt = request.expectedAttempt) := by
  simp only [DeliveryRequest.validate, bind_eq_ok, ensure_ok] at done
  obtain ⟨_, listed, _, _, _, _, _, _, _, preserved, _⟩ := done
  exact ⟨listed, fun completed => (preserved completed).2⟩

theorem ownerTarget_ok {request : DeliveryRequest} {publication : RuntimePublication}
    {owner : String} (done : request.ownerTarget publication = .ok (some owner))
    (assigned : request.deliveryState.assigned = true) :
    request.deliveryAttempt.map (·.ownerInstanceId) = some owner := by
  simp only [DeliveryRequest.ownerTarget] at done
  split_ifs at done with foreign outdated
  · cases done
  · have selected := Option.some.inj (Except.ok.inj done)
    rw [← selected]
    by_contra other
    exact foreign ⟨assigned, other⟩

/-- The control row of a transition is the one of the attempt that it assigns. -/
theorem controlAttempt_assigned {request : DeliveryRequest} {publication : RuntimePublication}
    (listed : (request.expectedState, request.deliveryState) ∈ DeliveryRequest.transitions)
    (preserved : request.deliveryState = .completed →
      request.deliveryAttempt = request.expectedAttempt)
    (source : request.sourceMatches publication)
    (assigned : request.deliveryState.assigned = true) :
    request.controlAttempt = request.deliveryAttempt := by
  cases target : request.deliveryState with
  | pending =>
      rw [target] at assigned
      cases assigned
  | confirmed =>
      have pending : request.expectedState = some .pending := by
        simpa [target, DeliveryRequest.transitions] using listed
      have state := attempt_of_assigned publication.projection (source.2.1.trans pending)
      have absent : request.expectedAttempt = none := by
        have none := source.2.2.1
        simpa [none, PayloadDeliveryState.assigned] using state
      simp [DeliveryRequest.controlAttempt, absent]
  | completed =>
      rw [DeliveryRequest.controlAttempt, ← preserved target]
      cases request.deliveryAttempt <;> rfl

theorem applyTransition_change {id : String} {publication : RuntimePublication}
    {request : DeliveryRequest} {owner : String} {moved : Bool}
    (stored : store.publications.get id = some publication)
    (valid : request.validate = .ok ()) (source : request.sourceMatches publication)
    (target : request.ownerTarget publication = .ok (some owner))
    (done : store.applyTransition id publication request owner = .ok (store', moved)) :
    Change store store' := by
  obtain ⟨listed, preserved⟩ := validate_ok valid
  unfold applyTransition at done
  split_ifs at done with fenced projection
  · cases done
    refine .moved stored ?_ ?_
    · intro attemptId carries
      have expected : request.expectedAttempt.map (·.attemptId) = some attemptId :=
        source.2.2.1.symm.trans carries
      obtain ⟨attempt, held, rfl⟩ := Option.map_eq_some_iff.mp expected
      have control : attempt ∈ request.controlAttempt := by
        simp [DeliveryRequest.controlAttempt, held]
      obtain ⟨row, found, _, _, preparing⟩ := preparing_row (fenced attempt control)
      exact ⟨row, found, preparing⟩
    · intro attemptId carries
      have delivered : request.deliveryAttempt.map (·.attemptId) = some attemptId := carries
      obtain ⟨attempt, held, rfl⟩ := Option.map_eq_some_iff.mp delivered
      obtain ⟨_, state, same, assigned⟩ := assigned_of_attempt projection delivered
      obtain rfl := Option.some.inj same
      have owned := ownerTarget_ok target assigned
      have control := controlAttempt_assigned listed preserved source assigned
      rw [held] at owned control
      obtain ⟨row, found, owner', _, preparing⟩ := preparing_row (fenced attempt control)
      exact ⟨row, found, preparing, owner'.trans (Option.some.inj owned)⟩
  · cases done
    exact .same

theorem exec_change {call : DeliveryCall} (done : store.exec call = .ok store') :
    Change store store' := by
  cases call with
  | beginAttempt attempt =>
      cases done
      exact beginAttempt_change attempt
  | ackAttempt attempt now =>
      cases done
      exact ackAttempt_change attempt now
  | abortAttempt attempt =>
      cases done
      exact abortAttempt_change attempt
  | transition publicationId request =>
      obtain ⟨⟨next, moved⟩, transition, rfl⟩ := map_eq_ok.mp done
      simp only [transitionPayloadDelivery, bind_eq_ok] at transition
      obtain ⟨_, valid, transition⟩ := transition
      cases stored : store.publications.get publicationId with
      | none =>
          simp only [stored] at transition
          cases transition
          exact .same
      | some publication =>
          simp only [stored] at transition
          split_ifs at transition with source
          · obtain ⟨owner, target, transition⟩ := bind_eq_ok.mp transition
            cases owner with
            | none =>
                cases transition
                exact .same
            | some owner =>
                exact applyTransition_change stored valid source.1 target transition
          · cases transition
            exact .same

theorem step_change (store : DeliveryStore) (call : DeliveryCall) :
    Change store (store.step call) := by
  rcases transact_cases exec store call with done | same
  · exact exec_change done
  · rw [step, same]
    exact .same

/-! ## Consistent stores -/

structure Consistent (store : DeliveryStore) : Prop where
  carried : ∀ id publication attemptId, store.publications.get id = some publication →
    publication.carries attemptId → ∃ row, store.attempts.get attemptId = some row ∧
      row.ownerInstanceId = publication.ownerInstanceId ∧ row.state ≠ .aborted ∧
      (row.state = .acked → publication.delivery.state = some .completed)
  acked : ∀ attemptId row, store.attempts.get attemptId = some row → row.state = .acked →
    ∃ id publication, store.publications.get id = some publication ∧ publication.carries attemptId

/-- What no call takes back. -/
structure Advances (before after : DeliveryStore) : Prop where
  attempts : ∀ attemptId row, before.attempts.get attemptId = some row →
    ∃ row', after.attempts.get attemptId = some row' ∧
      row'.ownerInstanceId = row.ownerInstanceId ∧ row'.startedAt = row.startedAt ∧
      (row.state ≠ .preparing → row' = row)
  kept : ∀ attemptId row id publication, before.attempts.get attemptId = some row →
    row.state ≠ .preparing → before.publications.get id = some publication →
      publication.carries attemptId → after.publications.get id = some publication

theorem Advances.refl (store : DeliveryStore) : Advances store store where
  attempts := fun _ row stored => ⟨row, stored, rfl, rfl, fun _ => rfl⟩
  kept := fun _ _ _ _ _ _ stored _ => stored

theorem Advances.trans {first middle last : DeliveryStore} (early : Advances first middle)
    (late : Advances middle last) : Advances first last where
  attempts := by
    intro attemptId row stored
    obtain ⟨row', stored', owner, started, frozen⟩ := early.attempts attemptId row stored
    obtain ⟨row'', stored'', owner', started', frozen'⟩ := late.attempts attemptId row' stored'
    refine ⟨row'', stored'', owner'.trans owner, started'.trans started, ?_⟩
    intro closed
    obtain rfl := frozen closed
    exact frozen' closed
  kept := by
    intro attemptId row id publication listed closed stored carries
    obtain ⟨row', listed', _, _, frozen⟩ := early.attempts attemptId row listed
    obtain rfl := frozen closed
    have here := early.kept attemptId row' id publication listed closed stored carries
    exact late.kept attemptId row' id publication listed' closed here carries

/-- A row that was `preparing` is closed. -/
theorem closed_advances {attempt : CheckpointPayloadDeliveryAttempt} {row : AttemptRow}
    (preparing : store.preparing attempt) (owner : row.ownerInstanceId = attempt.ownerInstanceId)
    (started : row.startedAt = attempt.startedAt) :
    Advances store { store with attempts := store.attempts.set attempt.attemptId row } where
  attempts := by
    intro attemptId before stored
    obtain ⟨current, found, owner', started', open_⟩ := preparing_row preparing
    by_cases same : attemptId = attempt.attemptId
    · subst same
      rw [found] at stored
      cases stored
      exact ⟨row, by simp, owner.trans owner'.symm, started.trans started'.symm,
        fun closed => absurd open_ closed⟩
    · exact ⟨before, by simpa [same] using stored, rfl, rfl, fun _ => rfl⟩
  kept := fun _ _ _ _ _ _ stored _ => stored

theorem Change.advances (change : Change store store') : Advances store store' := by
  cases change with
  | same => exact .refl store
  | @begun attemptId row fresh fresh_state =>
      refine { Advances.refl store with attempts := ?_ }
      intro other before stored
      have different : other ≠ attemptId := by
        rintro rfl
        rw [fresh] at stored
        cases stored
      exact ⟨before, by simpa [different] using stored, rfl, rfl, fun _ => rfl⟩
  | acked preparing owner started => exact closed_advances preparing owner started
  | aborted preparing owner started => exact closed_advances preparing owner started
  | @moved id publication publication' stored released assigned =>
      refine { Advances.refl store with kept := ?_ }
      intro attemptId row other before listed closed found carries
      have different : other ≠ id := by
        rintro rfl
        rw [stored] at found
        cases found
        obtain ⟨row', listed', open_⟩ := released attemptId carries
        rw [listed] at listed'
        cases listed'
        exact closed open_
      simpa [different] using found

theorem Change.consistent (change : Change store store') (consistent : Consistent store) :
    Consistent store' := by
  cases change with
  | same => exact consistent
  | @begun attemptId row fresh fresh_state =>
      constructor
      · intro id publication other stored carries
        obtain ⟨before, listed, facts⟩ := consistent.carried id publication other stored carries
        have different : other ≠ attemptId := by
          rintro rfl
          rw [fresh] at listed
          cases listed
        exact ⟨before, by simpa [different] using listed, facts⟩
      · intro other before listed closed
        change (store.attempts.set attemptId row).get other = some before at listed
        rw [Table.set_get] at listed
        split_ifs at listed with same
        · cases listed
          rw [fresh_state] at closed
          cases closed
        · exact consistent.acked other before listed closed
  | @acked attempt row preparing owner started acked carried completed =>
      constructor
      · intro id publication other stored carries
        obtain ⟨before, listed, owned, facts⟩ :=
          consistent.carried id publication other stored carries
        by_cases same : other = attempt.attemptId
        · subst same
          obtain ⟨current, found, owner', _, _⟩ := preparing_row preparing
          rw [found] at listed
          cases listed
          refine ⟨row, by simp, ?_, ?_, ?_⟩
          · exact owner.trans (owner'.symm.trans owned)
          · rw [acked]
            decide
          · intro _
            exact completed id publication stored carries
        · exact ⟨before, by simpa [same] using listed, owned, facts⟩
      · intro other before listed closed
        change (store.attempts.set attempt.attemptId row).get other = some before at listed
        rw [Table.set_get] at listed
        split_ifs at listed with same
        · subst same
          exact carried
        · exact consistent.acked other before listed closed
  | @aborted attempt row preparing owner started aborted free =>
      constructor
      · intro id publication other stored carries
        have different : other ≠ attempt.attemptId := by
          rintro rfl
          exact free id publication stored carries
        obtain ⟨before, listed, facts⟩ := consistent.carried id publication other stored carries
        exact ⟨before, by simpa [different] using listed, facts⟩
      · intro other before listed closed
        change (store.attempts.set attempt.attemptId row).get other = some before at listed
        rw [Table.set_get] at listed
        split_ifs at listed with same
        · cases listed
          rw [aborted] at closed
          cases closed
        · exact consistent.acked other before listed closed
  | @moved id publication publication' stored released assigned =>
      constructor
      · intro other after attemptId found carries
        change (store.publications.set id publication').get other = some after at found
        rw [Table.set_get] at found
        split_ifs at found
        · cases found
          obtain ⟨row, listed, open_, owner⟩ := assigned attemptId carries
          refine ⟨row, listed, owner, ?_, ?_⟩
          · rw [open_]
            decide
          · intro closed
            rw [open_] at closed
            cases closed
        · exact consistent.carried other after attemptId found carries
      · intro attemptId row listed closed
        obtain ⟨other, before, found, carries⟩ := consistent.acked attemptId row listed closed
        have different : other ≠ id := by
          rintro rfl
          rw [stored] at found
          cases found
          obtain ⟨row', listed', open_⟩ := released attemptId carries
          rw [listed] at listed'
          cases listed'
          rw [open_] at closed
          cases closed
        exact ⟨other, before, by simpa [different] using found, carries⟩

theorem run_advances (store : DeliveryStore) (calls : List DeliveryCall) :
    Advances store (run step store calls) :=
  stable_run (I := Advances store) (fun current call advances =>
    advances.trans (step_change current call).advances) calls (.refl store)

theorem run_consistent (consistent : Consistent store) (calls : List DeliveryCall) :
    Consistent (run step store calls) :=
  stable_run (fun current call holds => (step_change current call).consistent holds) calls
    consistent

/-- Each startup attempt is delivered as a whole or not at all: `last` is the store after any
further calls on a consistent store. -/
theorem payload_delivery_atomic (start : DeliveryStore) (consistent : Consistent start)
    (calls : List DeliveryCall) :
    let last := run step start calls
    Consistent last ∧
      (∀ attemptId row, start.attempts.get attemptId = some row →
        ∃ row', last.attempts.get attemptId = some row' ∧
          row'.ownerInstanceId = row.ownerInstanceId ∧ row'.startedAt = row.startedAt ∧
          (row.state ≠ .preparing → row' = row)) ∧
      (∀ attemptId row, last.attempts.get attemptId = some row → row.state = .acked →
        (∃ id publication, last.publications.get id = some publication ∧
          publication.carries attemptId) ∧
        ∀ id publication, last.publications.get id = some publication →
          publication.carries attemptId → publication.delivery.state = some .completed ∧
            publication.ownerInstanceId = row.ownerInstanceId) ∧
      (∀ attemptId row id publication, start.attempts.get attemptId = some row →
        row.state = .acked → start.publications.get id = some publication →
          publication.carries attemptId → last.publications.get id = some publication) ∧
      (∀ attemptId row, start.attempts.get attemptId = some row → row.state = .aborted →
        ∀ id publication, last.publications.get id = some publication →
          ¬ publication.carries attemptId) ∧
      ∀ id publication, last.publications.get id = some publication →
        (publication.delivery.state = some .pending → publication.delivery.attemptId = none) ∧
        (publication.delivery.state = some .confirmed ∨
            publication.delivery.state = some .completed →
          ∃ attemptId row, publication.carries attemptId ∧
            last.attempts.get attemptId = some row ∧
            row.ownerInstanceId = publication.ownerInstanceId) := by
  intro last
  have advances : Advances start last := run_advances start calls
  have sound : Consistent last := run_consistent consistent calls
  refine ⟨sound, advances.attempts, ?_, ?_, ?_, ?_⟩
  · intro attemptId row listed acked
    refine ⟨sound.acked attemptId row listed acked, ?_⟩
    intro id publication stored carries
    obtain ⟨row', listed', owner, _, completed⟩ :=
      sound.carried id publication attemptId stored carries
    rw [listed] at listed'
    cases listed'
    exact ⟨completed acked, owner.symm⟩
  · intro attemptId row id publication listed acked stored carries
    refine advances.kept attemptId row id publication listed ?_ stored carries
    rw [acked]
    decide
  · intro attemptId row listed aborted id publication stored carries
    obtain ⟨row', listed', _, _, frozen⟩ := advances.attempts attemptId row listed
    have same : row' = row := frozen (by rw [aborted]; decide)
    obtain ⟨row'', listed'', _, open_, _⟩ :=
      sound.carried id publication attemptId stored carries
    rw [listed'] at listed''
    cases listed''
    exact open_ (same ▸ aborted)
  · intro id publication stored
    refine ⟨?_, ?_⟩
    · intro pending
      have unassigned := attempt_of_assigned publication.projection pending
      simpa [PayloadDeliveryState.assigned] using unassigned
    · intro assigned
      have present : publication.delivery.attemptId.isSome = true := by
        rcases assigned with confirmed | completed
        · exact attempt_of_assigned publication.projection confirmed
        · exact attempt_of_assigned publication.projection completed
      obtain ⟨attemptId, carries⟩ := Option.isSome_iff_exists.mp present
      obtain ⟨row, listed, owner, _⟩ := sound.carried id publication attemptId stored carries
      exact ⟨attemptId, row, carries, listed, owner⟩

/-! ## A late compensation -/

def demoAttempt : CheckpointPayloadDeliveryAttempt := ⟨"t1", "attempt", "host", by decide⟩

def demoStart : DeliveryStore where
  publications := Table.empty.set "restore"
    { kind := .checkpointRestore
      state := .committed
      phase := "reconciled"
      ownerInstanceId := "host"
      operationReconciled := true
      recovery := some ⟨true, some "lease"⟩
      delivery := ⟨none, none, none, none, none⟩
      projection := rfl }
  attempts := Table.empty

theorem demoStart_consistent : Consistent demoStart where
  carried := by
    intro id publication attemptId stored carries
    simp only [demoStart, Table.set_get, Table.empty_get] at stored
    split_ifs at stored
    cases stored
    cases carries
  acked := by
    intro attemptId row listed
    cases listed

def demoCalls : List DeliveryCall :=
  [.beginAttempt demoAttempt,
    .transition "restore" ⟨none, .pending, none, none, none, some "lease"⟩,
    .transition "restore" ⟨some .pending, .confirmed, none, some demoAttempt, none, none⟩,
    .transition "restore"
      ⟨some .confirmed, .completed, some demoAttempt, some demoAttempt, none, none⟩,
    .ackAttempt demoAttempt "t2"]

def demoCompensation : DeliveryCall :=
  .transition "restore" ⟨some .completed, .pending, some demoAttempt, none, none, none⟩

/-- The attempt is acknowledged and stays so when its compensation comes late. -/
theorem payload_delivery_late_compensation :
    (run step demoStart demoCalls).attempts.get "attempt" =
        some ⟨"host", .acked, "t1", some "t2"⟩ ∧
      ∀ publication,
        (run step demoStart demoCalls).publications.get "restore" = some publication →
          publication.carries "attempt" →
            (run step (run step demoStart demoCalls) [demoCompensation]).publications.get
              "restore" = some publication := by
  have acked : (run step demoStart demoCalls).attempts.get "attempt" =
      some ⟨"host", .acked, "t1", some "t2"⟩ := by decide
  refine ⟨acked, ?_⟩
  intro publication stored carries
  have consistent := run_consistent demoStart_consistent demoCalls
  exact (payload_delivery_atomic (run step demoStart demoCalls) consistent
    [demoCompensation]).2.2.2.1 "attempt" _ "restore" publication acked rfl stored carries

end DeliveryStore
end AgentLibOS.Publications
