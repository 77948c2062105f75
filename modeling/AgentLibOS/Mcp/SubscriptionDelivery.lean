import AgentLibOS.Mcp.SubscriptionRuns

namespace AgentLibOS.Mcp
open Library Library.Run

variable {Id Reader Payload : Type} [DecidableEq Id]

namespace McpSubscriptionManager

/-! ## Delivery to one reader -/

section Delivery
variable [DecidableEq Reader]

/-- What a reader has received of a stream, in the order in which its reads returned. -/
def received (reader : Reader) (id : Id) :
    List (EventBatch Id Reader Payload) → List (McpSubscriptionEvent Payload)
  | [] => []
  | delivered :: earlier =>
      if delivered.read.reader = reader ∧ delivered.read.subscriptionId = id then
        received reader id earlier ++ delivered.batch
      else received reader id earlier

/-- The reader passes the last sequence that it has received, at first zero. -/
def PassesLast (reader : Reader) (id : Id) : List (EventBatch Id Reader Payload) → Prop
  | [] => True
  | delivered :: earlier => PassesLast reader id earlier ∧
      (delivered.read.reader = reader ∧ delivered.read.subscriptionId = id →
        delivered.read.after = lastSequence 0 (received reader id earlier))

/-- Such a reader has received the first events that were accepted. -/
theorem received_prefix {accepted : List (McpSubscriptionEvent Payload)} {reader : Reader} {id : Id}
    (sequences : accepted.map (·.sequence) = List.range' 1 accepted.length)
    {batches : List (EventBatch Id Reader Payload)}
    (sound : ∀ delivered ∈ batches, delivered.read.subscriptionId = id →
      delivered.batch <+: accepted.drop delivered.read.after)
    (passes : PassesLast reader id batches) : received reader id batches <+: accepted := by
  induction batches with
  | nil => exact List.nil_prefix
  | cons delivered earlier ih =>
      have before := ih (fun other member => sound other (List.mem_cons_of_mem _ member)) passes.1
      unfold received
      split_ifs with mine
      · have shape : received reader id earlier =
            accepted.take (received reader id earlier).length := List.prefix_iff_eq_take.mp before
        have counted := sequences_take sequences (received reader id earlier).length
        rw [← shape] at counted
        have last : lastSequence 0 (received reader id earlier) = _ := lastSequence_eq counted
        rw [Nat.zero_add] at last
        obtain ⟨rest, next⟩ := sound delivered List.mem_cons_self mine.2
        rw [passes.2 mine, last] at next
        refine ⟨rest, ?_⟩
        rw [List.append_assoc, next]
        nth_rewrite 1 [shape]
        exact List.take_append_drop _ _
      · exact before

end Delivery

/-! ## Terminal states -/

/-- A stop finishes, with the write of its row if there is one, for a stream that has a terminal
record while its durable row is not `lost`. -/
def LateStop (manager : McpSubscriptionManager Id Reader Payload) :
    SubscriptionEvent Id Reader Payload → Prop
  | .finishStop id swapped => ∃ persist,
      (manager.subscriptions id).stopCall = some persist ∧
        manager.terminal.get id ≠ none ∧
        (manager.subscriptions id).durable ≠ .lost ∧
        (persist = true → manager.durableStore = true → swapped = true)
  | _ => False

/-- A terminal status that has been reported is reported again while its record is retained. -/
def StatusSettled (manager : McpSubscriptionManager Id Reader Payload)
    (events : List (SubscriptionEvent Id Reader Payload)) : Prop :=
  ∀ earlier later id status, earlier ++ later <+: events →
    (run step manager earlier).status? id = .ok status → status = .lost ∨ status = .closed →
    Meets step (fun manager event => (step manager event).terminal.get id ≠ none)
      (run step manager earlier) later →
    (run step manager (earlier ++ later)).status? id = .ok status

variable {manager : McpSubscriptionManager Id Reader Payload} {id : Id}

/-- A retained record is what `status` reports. -/
theorem Sound.status?_eq (sound : Sound manager) {record : TerminalSubscription Payload}
    (found : manager.terminal.get id = some record) :
    manager.status? id = .ok record.status := by
  obtain ⟨notLive, notOpening, notStopping⟩ := (sound.each id).apart (by simp [found])
  simp [status?, notLive, notOpening, notStopping, found]

/-- A terminal status comes from a retained record. -/
theorem status?_terminal {status : McpSubscriptionStatus}
    (reported : manager.status? id = .ok status) (terminal : status = .lost ∨ status = .closed) :
    ∃ record, manager.terminal.get id = some record ∧ record.status = status := by
  unfold status? at reported
  dsimp only at reported
  rcases found : manager.terminal.get id with _ | record
  · rw [found] at reported
    split_ifs at reported <;> cases reported <;> simp at terminal
  · rw [found] at reported
    refine ⟨record, rfl, ?_⟩
    split_ifs at reported <;> cases reported <;> simp at terminal ⊢

/-- A retained record has the status it had. -/
def KeepsStatus (after : McpSubscriptionManager Id Reader Payload) (id : Id)
    (record : TerminalSubscription Payload) : Prop :=
  ∀ record', after.terminal.get id = some record' → record'.status = record.status

/-- The subscription stands in no table, and its record has the status it had. -/
structure Settled (manager : McpSubscriptionManager Id Reader Payload) (id : Id)
    (record : TerminalSubscription Payload) : Prop where
  live : (manager.subscriptions id).live = false
  opening : (manager.subscriptions id).opening = false
  stopping : (manager.subscriptions id).stopping = false
  kept : KeepsStatus manager id record

section Settled
variable {record : TerminalSubscription Payload}

theorem Sound.settled (sound : Sound manager) (found : manager.terminal.get id = some record) :
    Settled manager id record := by
  obtain ⟨notLive, notOpening, notStopping⟩ := (sound.each id).apart (by simp [found])
  refine ⟨notLive, notOpening, notStopping, fun record' found' => ?_⟩
  rw [found] at found'
  cases found'
  rfl

/-- A stream of another id is lost. -/
theorem Settled.remember (settled : Settled manager id record) {other : Id} (apart : id ≠ other)
    (after selected : Subscription Payload) (status : McpSubscriptionStatus) :
    Settled ((manager.set other after).rememberTerminal other status selected) id record := by
  have same : ((manager.set other after).rememberTerminal other status selected).subscriptions id =
      manager.subscriptions id := set_subscriptions_of_ne manager other after apart
  refine ⟨?_, ?_, ?_, fun record' found => ?_⟩
  · rw [same]
    exact settled.live
  · rw [same]
    exact settled.opening
  · rw [same]
    exact settled.stopping
  · exact settled.kept record' (remember_of_ne _ _ _ status apart found)

theorem Settled.set_of_ne (settled : Settled manager id record) {other : Id} (apart : id ≠ other)
    (after : Subscription Payload) : Settled (manager.set other after) id record := by
  have same := set_subscriptions_of_ne manager other after apart
  refine ⟨?_, ?_, ?_, settled.kept⟩
  · rw [same]
    exact settled.live
  · rw [same]
    exact settled.opening
  · rw [same]
    exact settled.stopping

theorem Settled.invalidateTable (settled : Settled manager id record)
    {table : Subscription Payload → Bool}
    (tables : ∀ selected, table selected = true →
      selected.live = true ∨ selected.stopping = true)
    (change : SubscriptionInvalidation) (answers : Id → LostAnswer) (other : Id) :
    Settled (manager.invalidateTable change table answers other) id record := by
  unfold McpSubscriptionManager.invalidateTable
  dsimp only
  split_ifs with found
  · have apart : id ≠ other := by
      rintro rfl
      have held := tables _ found.1
      simp [settled.live, settled.stopping] at held
    exact settled.remember apart _ _ _
  · exact settled

theorem Settled.invalidateOpenings (settled : Settled manager id record)
    (change : SubscriptionInvalidation) (readable : Id → Bool) (ids : List Id) :
    Settled (invalidateOpenings change readable ids manager) id record := by
  induction ids generalizing manager with
  | nil => exact settled
  | cons other ids ih =>
      unfold McpSubscriptionManager.invalidateOpenings
      dsimp only
      split_ifs with found failed
      all_goals try
        have apart : id ≠ other := by
          rintro rfl
          rw [settled.opening] at found
          cases found.1
      · exact settled.set_of_ne apart _
      · exact ih (settled.remember apart _ _ _)
      · exact ih settled

theorem Settled.invalidateNowait (settled : Settled manager id record)
    (change : SubscriptionInvalidation) (answers : Id → LostAnswer) (readable : Id → Bool) :
    Settled (manager.invalidateNowait change answers readable) id record := by
  have live : Settled (run (McpSubscriptionManager.invalidateTable change (·.live) answers) manager
      manager.identifiers) id record :=
    stable_run (I := fun manager => Settled manager id record)
      (fun _ other settled => settled.invalidateTable (fun _ => Or.inl) change answers other)
      _ settled
  have stopping : Settled (run (McpSubscriptionManager.invalidateTable change (·.stopping) answers)
      _ manager.identifiers) id record :=
    stable_run (I := fun manager => Settled manager id record)
      (fun _ other settled => settled.invalidateTable (fun _ => Or.inr) change answers other)
      _ live
  exact stopping.invalidateOpenings change readable _

theorem Settled.same (settled : Settled manager id record)
    {after : McpSubscriptionManager Id Reader Payload} (same : after.terminal = manager.terminal) :
    KeepsStatus after id record := by
  intro record' found
  rw [same] at found
  exact settled.kept record' found

theorem Settled.touch (settled : Settled manager id record) (other : Id) :
    KeepsStatus { manager with terminal := manager.terminal.touch other } id record := by
  intro record' found
  rw [Retention.get_touch] at found
  exact settled.kept record' found

/-- A stream that is remembered as it stands in a table is another one. -/
theorem Settled.remembered (settled : Settled manager id record) {other : Id}
    (held : (manager.subscriptions other).live = true ∨
      (manager.subscriptions other).opening = true ∨
      (manager.subscriptions other).stopping = true)
    (after selected : Subscription Payload) (status : McpSubscriptionStatus) :
    KeepsStatus ((manager.set other after).rememberTerminal other status selected) id record := by
  have apart : id ≠ other := by
    rintro rfl
    simp [settled.live, settled.opening, settled.stopping] at held
  exact (settled.remember apart after selected status).kept

theorem Sound.prepareFailed_kept (sound : Sound manager)
    (found : manager.terminal.get id = some record) (other : Id) (answer : LostAnswer) :
    KeepsStatus (manager.prepareFailed other answer) id record := by
  have settled := sound.settled found
  unfold McpSubscriptionManager.prepareFailed
  dsimp only
  split_ifs with preparing raised
  · exact settled.same rfl
  · by_cases here : id = other
    · subst here
      intro record' remembered
      rw [remember_self] at remembered
      cases remembered
      exact ((sound.each id).lost record found (Or.inl preparing)).symm
    · exact (settled.remember here _ _ _).kept
  · exact settled.kept

theorem Sound.events_kept (sound : Sound manager) (found : manager.terminal.get id = some record)
    (other : Id) : KeepsStatus (manager.events other) id record := by
  have settled := sound.settled found
  unfold McpSubscriptionManager.events
  split
  · exact settled.kept
  · rename_i read chosen
    split
    · exact settled.kept
    · rename_i batch after done
      unfold McpSubscriptionManager.readEvents at done
      dsimp only at done
      split at done
      · split_ifs at done
        cases done
        exact settled.same rfl
      · split at done
        · cases done
        · rename_i current there
          split_ifs at done
          cases done
          intro record' later
          change (manager.terminal.put _ _).get id = some record' at later
          rw [Retention.get_put] at later
          split_ifs at later with here
          · cases later
            rw [← here, found] at there
            cases there
            rfl
          · exact settled.kept record' later

theorem Sound.finishStop_kept (sound : Sound manager)
    (found : manager.terminal.get id = some record) (other : Id) (swapped : Bool)
    (early : ¬ LateStop manager (.finishStop other swapped)) :
    KeepsStatus (manager.finishStop other swapped) id record := by
  have settled := sound.settled found
  unfold McpSubscriptionManager.finishStop
  dsimp only
  split
  · exact settled.kept
  · rename_i persist running
    split
    · exact settled.same rfl
    · rename_i unlost
      split
      · exact settled.same rfl
      · rename_i durable written
        by_cases here : id = other
        · subst here
          -- the stop would be late
          refine absurd ⟨persist, running, by simp [found], fun lost => ?_, fun ask store => ?_⟩
            early
          · exact unlost ⟨lost, by simp [found]⟩
          · by_contra refused
            simp [casRecord, ask, store, refused] at written
        · exact (settled.remember here _ _ _).kept

/-- A retained record keeps its status, unless a stop is late. -/
theorem Sound.step_kept (sound : Sound manager) (found : manager.terminal.get id = some record)
    (event : SubscriptionEvent Id Reader Payload) (early : ¬ LateStop manager event) :
    KeepsStatus (step manager event) id record := by
  have settled := sound.settled found
  cases event with
  | reserveOpening other fence =>
      change KeepsStatus (manager.reserveOpening other fence) id record
      unfold McpSubscriptionManager.reserveOpening
      split_ifs <;> exact settled.same rfl
  | insertFailed other =>
      change KeepsStatus (manager.insertFailed other) id record
      unfold McpSubscriptionManager.insertFailed
      dsimp only
      split_ifs <;> exact settled.same rfl
  | prepared other =>
      change KeepsStatus (manager.prepared other) id record
      unfold McpSubscriptionManager.prepared
      dsimp only
      split_ifs <;> exact settled.same rfl
  | prepareFailed other answer => exact sound.prepareFailed_kept found other answer
  | commitPreparedStart other swapped =>
      change KeepsStatus (manager.commitPreparedStart other swapped) id record
      unfold McpSubscriptionManager.commitPreparedStart
      dsimp only
      split
      · split <;> exact settled.same rfl
      · exact settled.same rfl
  | finalizePreparedStart other current started =>
      change KeepsStatus (manager.finalizePreparedStart other current started) id record
      unfold McpSubscriptionManager.finalizePreparedStart
      dsimp only
      split_ifs <;> exact settled.same rfl
  | abortPreparedStart other persist answer =>
      change KeepsStatus (manager.abortPreparedStart other persist answer) id record
      unfold McpSubscriptionManager.abortPreparedStart
      dsimp only
      split
      · rename_i able
        exact settled.remembered (able.2.elim (Or.inr ∘ Or.inl) Or.inl) _ _ _
      · exact settled.same rfl
  | status other =>
      change KeepsStatus (manager.status other) id record
      unfold McpSubscriptionManager.status
      dsimp only
      split
      · exact settled.same rfl
      · exact settled.touch other
  | beginEvents read =>
      change KeepsStatus (manager.beginEvents read) id record
      unfold McpSubscriptionManager.beginEvents
      split_ifs <;> exact settled.same rfl
  | events other => exact sound.events_kept found other
  | endEvents other => exact settled.same rfl
  | claimStop other persist swapped =>
      change KeepsStatus (manager.claimStop other persist swapped) id record
      unfold McpSubscriptionManager.claimStop
      dsimp only
      split
      · exact settled.same rfl
      · split
        · split <;> exact settled.same rfl
        · exact settled.touch other
  | finishStop other swapped => exact sound.finishStop_kept found other swapped early
  | stopFailed other => exact settled.same rfl
  | enqueueEvent other payload recorded =>
      change KeepsStatus (manager.enqueueEvent other payload recorded) id record
      unfold McpSubscriptionManager.enqueueEvent
      dsimp only
      split_ifs <;> exact settled.same rfl
  | connectionLost other answer =>
      change KeepsStatus (manager.connectionLost other answer) id record
      unfold McpSubscriptionManager.connectionLost
      dsimp only
      split
      · rename_i able
        exact settled.remembered (able.imp_right fun opening => Or.inl opening.1) _ _ _
      · exact settled.same rfl
  | latchOwner owner => exact settled.same rfl
  | invalidateNowait change answers readable =>
      exact (settled.invalidateNowait change answers readable).kept
  | beginClose => exact settled.same rfl

/-- A record that stays retained keeps its status, if no stop is late. -/
theorem Sound.run_kept (sound : Sound manager) (found : manager.terminal.get id = some record)
    {events : List (SubscriptionEvent Id Reader Payload)}
    (early : Meets step (fun manager event => ¬ LateStop manager event) manager events)
    (retained : Meets step (fun manager event => (step manager event).terminal.get id ≠ none)
      manager events) :
    ∃ record', (run step manager events).terminal.get id = some record' ∧
      record'.status = record.status := by
  induction events generalizing manager record with
  | nil => exact ⟨record, found, rfl⟩
  | cons event events ih =>
      obtain ⟨next, found'⟩ := Option.ne_none_iff_exists'.mp retained.1
      obtain ⟨last, found'', same⟩ := ih (step_sound sound event) found' early.2 retained.2
      exact ⟨last, found'', same.trans (sound.step_kept found event early.1 next found')⟩

/-- A late stop replaces the record `LOST` by `CLOSED`. -/
theorem Sound.lateStop (sound : Sound manager) {event : SubscriptionEvent Id Reader Payload}
    (late : LateStop manager event) : ∃ id, manager.status? id = .ok .lost ∧
      (step manager event).terminal.get id ≠ none ∧
      (step manager event).status? id = .ok .closed := by
  cases event with
  | finishStop id swapped =>
      obtain ⟨persist, running, retained, unlost, written⟩ := late
      obtain ⟨record, found⟩ := Option.ne_none_iff_exists'.mp retained
      have lost := (sound.each id).lost record found (Or.inr (Or.inl (by simp [running])))
      have cas : ∃ durable, (if persist = true then
          manager.casRecord swapped (manager.subscriptions id).durable .stopped
          else some (manager.subscriptions id).durable) = some durable := by
        unfold casRecord
        split_ifs with ask store swap
        · exact ⟨_, rfl⟩
        · exact absurd (written ask store) swap
        · exact ⟨_, rfl⟩
        · exact ⟨_, rfl⟩
      obtain ⟨durable, cas⟩ := cas
      have closed : (step manager (.finishStop id swapped)).terminal.get id =
          some ⟨.closed, (manager.subscriptions id).queue,
            (manager.subscriptions id).eventCursor⟩ := by
        change (manager.finishStop id swapped).terminal.get id = _
        unfold McpSubscriptionManager.finishStop
        dsimp only
        rw [running]
        dsimp only
        rw [if_neg (fun both => unlost both.1), cas]
        exact remember_self _ _ _ _
      refine ⟨id, ?_, by simp [closed], ?_⟩
      · rw [sound.status?_eq found, lost]
      · exact (step_sound sound (.finishStop id swapped)).status?_eq closed
  | _ => exact late.elim

end Settled

theorem StatusSettled.cons {event : SubscriptionEvent Id Reader Payload}
    {events : List (SubscriptionEvent Id Reader Payload)}
    (settled : StatusSettled manager (event :: events)) :
    StatusSettled (step manager event) events := by
  intro earlier later id status front reported terminal retained
  exact settled (event :: earlier) later id status
    ((List.prefix_cons_inj event).mpr front) reported terminal retained

/-- In a run, terminal statuses stay exactly when no stop is late. -/
theorem Sound.statusSettled_iff (sound : Sound manager)
    (events : List (SubscriptionEvent Id Reader Payload)) :
    StatusSettled manager events ↔
      Meets step (fun manager event => ¬ LateStop manager event) manager events := by
  constructor
  · intro settled
    induction events generalizing manager with
    | nil => trivial
    | cons event events ih =>
        refine ⟨fun late => ?_, ih (step_sound sound event) settled.cons⟩
        obtain ⟨id, lost, retained, closed⟩ := sound.lateStop late
        have again := settled [] [event] id .lost
          (List.prefix_append [event] events) lost (Or.inl rfl) ⟨retained, trivial⟩
        change (step manager event).status? id = .ok .lost at again
        rw [closed] at again
        cases again
  · rintro early earlier later id status ⟨rest, rfl⟩ reported terminal retained
    obtain ⟨record, found, rfl⟩ := status?_terminal reported terminal
    have before := run_sound sound earlier
    obtain ⟨record', found', same⟩ :=
      before.run_kept found early.append.later retained
    rw [← run_append] at found'
    rw [(run_sound sound (earlier ++ later)).status?_eq found', same]

/-! ## Overflow -/

/-- The loss that a failing consumer reports makes its stream `LOST`. -/
theorem connectionLost_lost (sound : Sound manager) (live : (manager.subscriptions id).live = true)
    (answer : LostAnswer) :
    (step manager (.connectionLost id answer)).status? id = .ok .lost := by
  have lost : (manager.connectionLost id answer).terminal.get id =
      some ⟨.lost, (manager.subscriptions id).queue, (manager.subscriptions id).eventCursor⟩ := by
    unfold McpSubscriptionManager.connectionLost
    dsimp only
    rw [if_pos (Or.inl live)]
    exact remember_self _ _ _ _
  exact (step_sound sound (.connectionLost id answer)).status?_eq lost

/-- A stream that has lost an event is `LOST`, or its consumer is about to report the loss. -/
theorem Sound.overflow (sound : Sound manager) (dropped : (manager.subscriptions id).dropped ≠ 0) :
    (manager.subscriptions id).dropped = 1 ∧
      ((manager.subscriptions id).live = true → (manager.subscriptions id).failing = true ∧
        ∀ answer, (step manager (.connectionLost id answer)).status? id = .ok .lost) ∧
      ((manager.subscriptions id).live = false → ∀ status, manager.status? id = .ok status →
        status = .lost) := by
  have here := sound.each id
  refine ⟨(here.overflow dropped).1, fun live => ?_, fun notLive status reported => ?_⟩
  · exact ⟨(here.overflow dropped).2 live, fun answer => connectionLost_lost sound live answer⟩
  · have notOpening : (manager.subscriptions id).opening = false := by
      by_contra opening
      exact dropped (here.opening (Bool.not_eq_false _ ▸ opening)).2.2.2
    have notStopping : (manager.subscriptions id).stopping = false := by
      by_contra stopping
      exact dropped (here.stopping (Bool.not_eq_false _ ▸ stopping))
    rcases found : manager.terminal.get id with _ | record
    · simp [status?, notLive, notOpening, notStopping, found] at reported
    · rw [sound.status?_eq found] at reported
      cases reported
      exact here.lost record found (Or.inr (Or.inr dropped))

/-! ## Every run -/

/-- A read that returns no batch changes nothing but the exclusion of other readers. -/
theorem events_rejected (id : Id)
    (rejected : (manager.events id).batches = manager.batches) :
    manager.events id = { manager with eventReads := (manager.events id).eventReads } := by
  unfold McpSubscriptionManager.events at rejected ⊢
  split at rejected
  · rfl
  · split at rejected
    · rfl
    · have longer := congrArg List.length rejected
      simp at longer

theorem beginEvents_eventReads (read : EventRead Id Reader) :
    manager.beginEvents read =
      { manager with eventReads := (manager.beginEvents read).eventReads } := by
  unfold McpSubscriptionManager.beginEvents
  split_ifs <;> rfl

/-- In every run a reader that passes the last sequence it has received gets the accepted events
once and in order, a rejected read consumes nothing, and an overflow costs one event and the
stream. A terminal status stays while its record is retained exactly when no stop finishes for a
stream that has a terminal record but no durable row `lost`. -/
theorem subscription_events_delivered [DecidableEq Reader] (policy : McpSubscriptionPolicy)
    (durableStore : Bool) (fence : McpConnectionFence)
    (events : List (SubscriptionEvent Id Reader Payload)) :
    let first : McpSubscriptionManager Id Reader Payload := start policy durableStore fence
    let last := run step first events
    (∀ reader id, PassesLast reader id last.batches →
      received reader id last.batches <+: (last.subscriptions id).accepted ∧
      (received reader id last.batches).map (·.sequence) =
        List.range' 1 (received reader id last.batches).length) ∧
    (∀ id, (step last (.events id)).batches = last.batches →
      step last (.events id) = { last with eventReads := (step last (.events id)).eventReads }) ∧
    (∀ read, step last (.beginEvents read) =
      { last with eventReads := (step last (.beginEvents read)).eventReads }) ∧
    (∀ id, (last.subscriptions id).dropped ≠ 0 → (last.subscriptions id).dropped = 1 ∧
      ((last.subscriptions id).live = true → (last.subscriptions id).failing = true ∧
        ∀ answer, (step last (.connectionLost id answer)).status? id = .ok .lost) ∧
      ((last.subscriptions id).live = false → ∀ status, last.status? id = .ok status →
        status = .lost)) ∧
    (StatusSettled first events ↔
      Meets step (fun manager event => ¬ LateStop manager event) first events) := by
  intro first last
  have begun : Sound first := start_sound policy durableStore fence
  have sound : Sound last := run_sound begun events
  refine ⟨fun reader id passes => ?_, fun id => events_rejected id, beginEvents_eventReads,
    fun id dropped => sound.overflow dropped, begun.statusSettled_iff events⟩
  have sequences := (sound.each id).sequences
  have front : received reader id last.batches <+: (last.subscriptions id).accepted := by
    refine received_prefix sequences (fun delivered member mine => ?_) passes
    obtain ⟨-, next⟩ := sound.batches delivered member
    rwa [mine] at next
  refine ⟨front, ?_⟩
  rw [List.prefix_iff_eq_take.mp front]
  exact sequences_take sequences _

/-! ## A stop that outlives an invalidation -/

def streamFence : McpConnectionFence := ⟨"server", "spec", 1, "pid:1", none, none, 0⟩

def streamStart : McpSubscriptionManager Nat Unit Unit := start ⟨4, 8, 16, by decide⟩ false streamFence

/-- A subscription without a store is stopped, and while the stop drains its tasks the server is
invalidated. -/
def invalidatedStop : List (SubscriptionEvent Nat Unit Unit) :=
  [.reserveOpening 0 streamFence, .prepared 0, .commitPreparedStart 0 true,
    .finalizePreparedStart 0 true true, .claimStop 0 true true,
    .invalidateNowait (.server "server") (fun _ => .lost) (fun _ => true)]

theorem lost_then_closed : ¬ StatusSettled streamStart (invalidatedStop ++ [.finishStop 0 true]) := by
  intro settled
  have lost : (run step streamStart invalidatedStop).status? 0 = .ok .lost := rfl
  have again := settled invalidatedStop [.finishStop 0 true] 0 .lost (List.prefix_refl _) lost
    (Or.inl rfl) ⟨Option.some_ne_none _, trivial⟩
  have closed : (run step streamStart (invalidatedStop ++ [.finishStop 0 true])).status? 0 =
      .ok .closed := rfl
  rw [closed] at again
  cases again

end McpSubscriptionManager
end AgentLibOS.Mcp
