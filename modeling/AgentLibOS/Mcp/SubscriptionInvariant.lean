import AgentLibOS.Mcp.Subscriptions

namespace AgentLibOS.Mcp
open Library Library.Run

variable {Id Reader Payload : Type}

/-! ## One subscription -/

/-- What holds of a subscription and of its terminal record, if it has one. -/
structure SoundAt (selected : Subscription Payload)
    (record : Option (TerminalSubscription Payload)) : Prop where
  known : selected.reserved = false → record = none ∧ selected.live = false ∧
    selected.opening = false ∧ selected.stopping = false ∧ selected.preparing = false ∧
      selected.stopCall = none
  unused : selected.reserved = false → selected.prepared = false
  apart : record ≠ none → selected.live = false ∧ selected.opening = false ∧
    selected.stopping = false
  live : selected.live = true → selected.opening = false ∧ selected.stopping = false ∧
    selected.stopCall = none
  opening : selected.opening = true → selected.stopping = false ∧ selected.stopCall = none ∧
    selected.accepted = [] ∧ selected.dropped = 0
  preparing : selected.preparing = true → selected.prepared = false
  unprepared : selected.prepared = false → selected.live = false ∧ selected.stopping = false ∧
    selected.stopCall = none ∧ selected.accepted = [] ∧ selected.dropped = 0
  stopCall : selected.stopCall ≠ none → selected.dropped = 0
  stopping : selected.stopping = true → selected.dropped = 0
  overflow : selected.dropped ≠ 0 → selected.dropped = 1 ∧
    (selected.live = true → selected.failing = true)
  lost : ∀ terminal, record = some terminal → selected.preparing = true ∨
    selected.stopCall ≠ none ∨ selected.dropped ≠ 0 → terminal.status = .lost
  queue : selected.queue = selected.accepted.drop selected.eventCursor
  cursor : selected.eventCursor ≤ selected.accepted.length
  sequences : selected.accepted.map (·.sequence) = List.range' 1 selected.accepted.length
  next : selected.nextSequence = selected.accepted.length + selected.dropped + 1
  remembered : ∀ terminal, record = some terminal →
    terminal.events = selected.accepted.drop terminal.eventCursor ∧
      terminal.eventCursor ≤ selected.accepted.length ∧
        (terminal.status = .lost ∨ terminal.status = .closed)

/-- The events after a cursor carry the sequences after it. -/
theorem sequences_drop {accepted : List (McpSubscriptionEvent Payload)}
    (sequences : accepted.map (·.sequence) = List.range' 1 accepted.length) (cursor : Nat) :
    (accepted.drop cursor).map (·.sequence) =
      List.range' (cursor + 1) (accepted.drop cursor).length := by
  rw [List.map_drop, sequences, List.drop_range', List.length_drop, Nat.mul_one, Nat.add_comm]

theorem sequences_take {events : List (McpSubscriptionEvent Payload)} {start : Nat}
    (sequences : events.map (·.sequence) = List.range' start events.length) (limit : Nat) :
    (events.take limit).map (·.sequence) = List.range' start (events.take limit).length := by
  rw [List.map_take, sequences, List.length_take]
  rcases Nat.le_total limit events.length with short | long
  · rw [List.take_range'_of_length_ge short, Nat.min_eq_left short]
  · rw [List.take_range'_of_length_le long, Nat.min_eq_right long]

/-- The events of a window that starts at the cursor are the next ones that were accepted. -/
theorem window_eq {accepted : List (McpSubscriptionEvent Payload)} {cursor : Nat}
    (sequences : accepted.map (·.sequence) = List.range' 1 accepted.length) (limit : Nat) :
    McpSubscriptionManager.window (accepted.drop cursor) cursor limit =
      (accepted.drop cursor).take limit := by
  have later : ∀ event ∈ accepted.drop cursor, cursor < event.sequence := by
    intro event member
    have listed := List.mem_map_of_mem (f := fun event => event.sequence) member
    rw [sequences_drop sequences, List.mem_range'_1] at listed
    exact listed.1
  unfold McpSubscriptionManager.window
  rw [List.filter_eq_self.mpr fun event member => decide_eq_true (later event member)]

theorem window_prefix {accepted events : List (McpSubscriptionEvent Payload)} {cursor : Nat}
    (sequences : accepted.map (·.sequence) = List.range' 1 accepted.length)
    (rest : events = accepted.drop cursor) (limit : Nat) :
    McpSubscriptionManager.window events cursor limit <+: accepted.drop cursor := by
  rw [rest, window_eq sequences]
  exact List.take_prefix _ _

/-- The cursor after a batch counts the events that have been read. -/
theorem lastSequence_eq {batch : List (McpSubscriptionEvent Payload)} {cursor : Nat}
    (sequences : batch.map (·.sequence) = List.range' (cursor + 1) batch.length) :
    McpSubscriptionManager.lastSequence cursor batch = cursor + batch.length := by
  unfold McpSubscriptionManager.lastSequence
  rw [← List.getLast?_map, sequences, List.getLast?_range']
  split_ifs with none
  · rw [none]
    rfl
  · change cursor + 1 + batch.length - 1 = _
    omega

namespace SoundAt
variable {selected : Subscription Payload} {record : Option (TerminalSubscription Payload)}

theorem ofUnused (fence : McpConnectionFence) :
    SoundAt (Subscription.unused fence : Subscription Payload) none := by
  constructor <;> simp [Subscription.unused]

/-- The terminal record is no longer retained. -/
theorem forget (sound : SoundAt selected record) : SoundAt selected none :=
  { sound with
    known := fun fresh => ⟨rfl, (sound.known fresh).2⟩
    apart := fun some => absurd rfl some
    lost := nofun
    remembered := nofun }

theorem reserve (sound : SoundAt selected record) (fresh : selected.reserved = false)
    (fence : McpConnectionFence) :
    SoundAt { (Subscription.unused fence : Subscription Payload) with
      reserved := true, opening := true, preparing := true } record := by
  obtain ⟨rfl, -⟩ := sound.known fresh
  constructor <;> simp [Subscription.unused]

/-- Settlement flags and the durable row play no part. -/
theorem settle (sound : SoundAt selected record) (closed committed stop : Bool)
    (durable : DurableStatus) :
    SoundAt { selected with
      closed := closed, committed := committed, stop := stop, durable := durable } record :=
  { sound with }

/-- A live stream has no terminal record. -/
theorem live_absent (sound : SoundAt selected record) (live : selected.live = true) :
    record = none := by
  by_contra some
  exact absurd live (by simp [(sound.apart some).1])

theorem opening_absent (sound : SoundAt selected record) (opening : selected.opening = true) :
    record = none := by
  by_contra some
  exact absurd opening (by simp [(sound.apart some).2.1])

theorem opening_notLive (sound : SoundAt selected record) (opening : selected.opening = true) :
    selected.live = false := by
  by_contra live
  rw [(sound.live (Bool.not_eq_false _ ▸ live)).1] at opening
  cases opening

/-- A live stream whose consumer has not failed has lost nothing. -/
theorem live_undropped (sound : SoundAt selected record) (live : selected.live = true)
    (calm : selected.failing = false) : selected.dropped = 0 := by
  by_contra dropped
  exact absurd ((sound.overflow dropped).2 live) (by simp [calm])

/-- A subscription in one of the tables is reserved. -/
theorem reserved_of_table (sound : SoundAt selected record)
    (held : selected.live = true ∨ selected.opening = true ∨ selected.stopping = true) :
    selected.reserved = true := by
  by_contra fresh
  obtain ⟨-, notLive, notOpening, notStopping, -⟩ := sound.known (Bool.not_eq_true _ ▸ fresh)
  simp [notLive, notOpening, notStopping] at held

theorem latch (sound : SoundAt selected record) : SoundAt { selected with closed := true } record :=
  sound.settle true selected.committed selected.stop selected.durable

/-- An opening leaves its table, and `prepare_start` may end with it. -/
theorem leave (sound : SoundAt selected record) (closed preparing : Bool)
    (ended : preparing = true → selected.preparing = true) :
    SoundAt { selected with preparing := preparing, opening := false, closed := closed }
      record :=
  { sound with
    known := by
      intro fresh
      obtain ⟨none, notLive, -, notStopping, notPreparing, noStop⟩ := sound.known fresh
      have stays : preparing = false := by
        by_contra running
        rw [ended (Bool.not_eq_false _ ▸ running)] at notPreparing
        cases notPreparing
      exact ⟨none, notLive, rfl, notStopping, stays, noStop⟩
    apart := fun some => ⟨(sound.apart some).1, rfl, (sound.apart some).2.2⟩
    live := fun isLive => ⟨rfl, (sound.live isLive).2⟩
    opening := nofun
    preparing := fun running => sound.preparing (ended running)
    lost := fun terminal here why => sound.lost terminal here (why.imp_left ended) }

/-- `prepare_start` ends for a subscription that is still opening. -/
theorem prepare (sound : SoundAt selected record) (opening : selected.opening = true) :
    SoundAt { selected with preparing := false, prepared := true } record := by
  obtain rfl := sound.opening_absent opening
  exact
    { sound with
      known := fun fresh => absurd opening (by simp [(sound.known fresh).2.2.1])
      unused := fun fresh => absurd opening (by simp [(sound.known fresh).2.2.1])
      preparing := nofun
      unprepared := nofun
      lost := nofun }

/-- An opening becomes live. -/
theorem publish (sound : SoundAt selected record) (opening : selected.opening = true)
    (prepared : selected.prepared = true) (closed : Bool) :
    SoundAt { selected with opening := false, live := true, closed := closed } record := by
  obtain rfl := sound.opening_absent opening
  obtain ⟨notStopping, noStop, -, noDrop⟩ := sound.opening opening
  exact
    { sound with
      known := fun fresh => absurd opening (by simp [(sound.known fresh).2.2.1])
      apart := fun some => absurd rfl some
      live := fun _ => ⟨rfl, notStopping, noStop⟩
      opening := nofun
      unprepared := fun unprepared => by
        have unprepared : selected.prepared = false := unprepared
        rw [prepared] at unprepared
        cases unprepared
      overflow := fun dropped => absurd noDrop dropped }

/-- A stop ends, and the stream may leave `_stopping` with it. -/
theorem endStop (sound : SoundAt selected record) (stopping : Bool)
    (left : stopping = true → selected.stopping = true) (durable : DurableStatus) :
    SoundAt { selected with stopCall := none, stopping := stopping, durable := durable }
      record := by
  have settled : selected.stopping = false → stopping = false := by
    intro notStopping
    by_contra still
    rw [left (Bool.not_eq_false _ ▸ still)] at notStopping
    cases notStopping
  exact
    { sound with
      known := fun fresh =>
        have ⟨absent, notLive, notOpening, notStopping, notPreparing, _⟩ := sound.known fresh
        ⟨absent, notLive, notOpening, settled notStopping, notPreparing, rfl⟩
      apart := fun some =>
        have ⟨notLive, notOpening, notStopping⟩ := sound.apart some
        ⟨notLive, notOpening, settled notStopping⟩
      live := fun isLive =>
        ⟨(sound.live isLive).1, settled (sound.live isLive).2.1, rfl⟩
      opening := fun isOpening =>
        ⟨settled (sound.opening isOpening).1, rfl, (sound.opening isOpening).2.2⟩
      unprepared := fun unprepared =>
        have ⟨notLive, notStopping, _, rest⟩ := sound.unprepared unprepared
        ⟨notLive, settled notStopping, rfl, rest⟩
      stopCall := fun running => absurd rfl running
      stopping := fun isStopping => sound.stopping (left isStopping)
      lost := fun terminal here why =>
        sound.lost terminal here (why.imp_right fun later =>
          later.elim (fun running => absurd rfl running) Or.inr) }

/-- A stop claims a live stream that loses nothing. -/
theorem claim (sound : SoundAt selected record) (live : selected.live = true)
    (calm : selected.failing = false) (durable : DurableStatus) (persist : Bool) :
    SoundAt { selected with
      live := false
      stopping := true
      stop := true
      durable := durable
      stopCall := some persist } record := by
  obtain rfl := sound.live_absent live
  have noDrop := sound.live_undropped live calm
  have prepared : selected.prepared ≠ false := by
    intro unprepared
    exact absurd live (by simp [(sound.unprepared unprepared).1])
  exact
    { sound with
      known := fun fresh => absurd live (by simp [(sound.known fresh).2.1])
      apart := fun some => absurd rfl some
      live := nofun
      opening := fun opening => absurd opening (by simp [(sound.live live).1])
      unprepared := fun unprepared => absurd unprepared prepared
      stopCall := fun _ => noDrop
      stopping := fun _ => noDrop
      overflow := fun dropped => absurd noDrop dropped
      lost := nofun }

/-- A batch is taken from the queue of a live stream. -/
theorem read (sound : SoundAt selected record) (limit : Nat) :
    let batch := McpSubscriptionManager.window selected.queue selected.eventCursor limit
    SoundAt { selected with
      queue := selected.queue.drop batch.length
      eventCursor := McpSubscriptionManager.lastSequence selected.eventCursor batch } record := by
  intro batch
  have taken : batch = (selected.accepted.drop selected.eventCursor).take limit := by
    change McpSubscriptionManager.window selected.queue _ _ = _
    rw [sound.queue, window_eq sound.sequences]
  have cursor : McpSubscriptionManager.lastSequence selected.eventCursor batch =
      selected.eventCursor + batch.length := by
    rw [taken]
    exact lastSequence_eq (sequences_take (sequences_drop sound.sequences _) limit)
  have within : selected.eventCursor + batch.length ≤ selected.accepted.length := by
    have := sound.cursor
    rw [taken, List.length_take, List.length_drop]
    omega
  exact
    { sound with
      queue := by
        change selected.queue.drop batch.length = selected.accepted.drop _
        rw [cursor, ← List.drop_drop, ← sound.queue]
      cursor := cursor ▸ within }

/-- A batch is taken from a terminal record. -/
theorem readTerminal {terminal : TerminalSubscription Payload}
    (sound : SoundAt selected (some terminal)) (limit : Nat) :
    let batch := McpSubscriptionManager.window terminal.events terminal.eventCursor limit
    SoundAt selected (some { terminal with
      events := terminal.events.drop batch.length
      eventCursor := McpSubscriptionManager.lastSequence terminal.eventCursor batch }) := by
  intro batch
  obtain ⟨queue, within, status⟩ := sound.remembered terminal rfl
  have taken : batch = (selected.accepted.drop terminal.eventCursor).take limit := by
    change McpSubscriptionManager.window terminal.events _ _ = _
    rw [queue, window_eq sound.sequences]
  have cursor : McpSubscriptionManager.lastSequence terminal.eventCursor batch =
      terminal.eventCursor + batch.length := by
    rw [taken]
    exact lastSequence_eq (sequences_take (sequences_drop sound.sequences _) limit)
  exact
    { sound with
      known := fun fresh => absurd (sound.known fresh).1 (by simp)
      apart := fun _ => sound.apart (by simp)
      lost := by
        rintro _ ⟨⟩ why
        exact sound.lost terminal rfl why
      remembered := by
        rintro _ ⟨⟩
        refine ⟨?_, ?_, status⟩
        · change terminal.events.drop batch.length = selected.accepted.drop _
          rw [cursor, ← List.drop_drop, ← queue]
        · change McpSubscriptionManager.lastSequence terminal.eventCursor batch ≤ _
          rw [cursor, taken, List.length_take, List.length_drop]
          omega }

/-- An event overflows the queue. -/
theorem drop (sound : SoundAt selected record) (live : selected.live = true)
    (calm : selected.failing = false) :
    SoundAt { selected with
      nextSequence := selected.nextSequence + 1
      failing := true
      dropped := selected.dropped + 1 } record := by
  obtain rfl := sound.live_absent live
  have noDrop := sound.live_undropped live calm
  obtain ⟨notOpening, notStopping, noStop⟩ := sound.live live
  exact
    { sound with
      opening := fun opening => absurd opening (by simp [notOpening])
      unprepared := fun unprepared => absurd live (by simp [(sound.unprepared unprepared).1])
      stopCall := fun running => absurd noStop running
      stopping := fun stopping => absurd stopping (by simp [notStopping])
      overflow := fun _ => ⟨by rw [noDrop], fun _ => rfl⟩
      lost := nofun
      next := by
        change selected.nextSequence + 1 = selected.accepted.length + (selected.dropped + 1) + 1
        rw [sound.next]
        omega }

/-- An event is put into the queue. -/
theorem accept (sound : SoundAt selected record) (live : selected.live = true)
    (calm : selected.failing = false) (failing : Bool) (payload : Payload) :
    SoundAt { selected with
      nextSequence := selected.nextSequence + 1
      queue := selected.queue ++ [⟨payload, selected.nextSequence⟩]
      failing := failing
      accepted := selected.accepted ++ [⟨payload, selected.nextSequence⟩] } record := by
  obtain rfl := sound.live_absent live
  have noDrop := sound.live_undropped live calm
  obtain ⟨notOpening, notStopping, noStop⟩ := sound.live live
  have next : selected.nextSequence = selected.accepted.length + 1 := by
    rw [sound.next, noDrop]
  exact
    { sound with
      opening := fun opening => absurd opening (by simp [notOpening])
      unprepared := fun unprepared => absurd live (by simp [(sound.unprepared unprepared).1])
      overflow := fun dropped => absurd noDrop dropped
      queue := by
        change selected.queue ++ _ = (selected.accepted ++ _).drop _
        rw [List.drop_append_of_le_length sound.cursor, ← sound.queue]
      cursor := by
        change _ ≤ (selected.accepted ++ _).length
        exact (sound.cursor.trans (by simp))
      sequences := by
        change (selected.accepted ++ [_]).map _ = List.range' 1 (selected.accepted ++ [_]).length
        rw [List.map_append, sound.sequences, List.length_append, List.length_singleton,
          ← List.range'_append_1, next, Nat.add_comm]
        rfl
      next := by
        change selected.nextSequence + 1 = (selected.accepted ++ [_]).length + selected.dropped + 1
        rw [List.length_append, noDrop, next]
        rfl
      remembered := nofun }

/-- The consumer of a stream that has left `_live` has nothing to report. -/
theorem calm (sound : SoundAt selected record) (notLive : selected.live = false) :
    SoundAt { selected with failing := false } record :=
  { sound with
    overflow := fun dropped =>
      ⟨(sound.overflow dropped).1, fun live => absurd live (by simp [notLive])⟩ }

/-- A stream is lost and its queue is kept as it is. -/
theorem lose (sound : SoundAt selected record) (used : selected.reserved = true)
    {live opening stopping : Bool} (gone : live = false ∧ opening = false ∧ stopping = false)
    (closed stop failing : Bool) (durable : DurableStatus) :
    SoundAt { selected with
      live := live
      opening := opening
      stopping := stopping
      closed := closed
      stop := stop
      durable := durable
      failing := failing } (some ⟨.lost, selected.queue, selected.eventCursor⟩) := by
  obtain ⟨rfl, rfl, rfl⟩ := gone
  exact
    { sound with
      known := fun fresh => absurd used (by
        have fresh : selected.reserved = false := fresh
        simp [fresh])
      apart := fun _ => ⟨rfl, rfl, rfl⟩
      live := nofun
      opening := nofun
      unprepared := fun unprepared => ⟨rfl, rfl, (sound.unprepared unprepared).2.2⟩
      stopping := nofun
      overflow := fun dropped => ⟨(sound.overflow dropped).1, nofun⟩
      lost := by
        rintro _ ⟨⟩ -
        rfl
      remembered := by
        rintro _ ⟨⟩
        exact ⟨sound.queue, sound.cursor, Or.inl rfl⟩ }

/-- A stop ends with the stream `CLOSED`. -/
theorem close (sound : SoundAt selected record) (running : selected.stopCall ≠ none)
    (durable : DurableStatus) :
    SoundAt { selected with stopCall := none, stopping := false, durable := durable }
      (some ⟨.closed, selected.queue, selected.eventCursor⟩) := by
  have notLive : selected.live = false := by
    by_contra live
    exact running (sound.live (Bool.not_eq_false _ ▸ live)).2.2
  have notOpening : selected.opening = false := by
    by_contra opening
    exact running (sound.opening (Bool.not_eq_false _ ▸ opening)).2.1
  have notPreparing : selected.preparing = false := by
    by_contra preparing
    exact running (sound.unprepared (sound.preparing (Bool.not_eq_false _ ▸ preparing))).2.2.1
  have noDrop := sound.stopCall running
  have ended := sound.endStop false nofun durable
  exact
    { ended with
      known := fun fresh => absurd (sound.known fresh).2.2.2.2.2 running
      apart := fun _ => ⟨notLive, notOpening, rfl⟩
      lost := by
        rintro _ ⟨⟩ why
        rcases why with preparing | running' | dropped
        · exact absurd preparing (by simp [notPreparing])
        · exact absurd rfl running'
        · exact absurd noDrop dropped
      remembered := by
        rintro _ ⟨⟩
        exact ⟨sound.queue, sound.cursor, Or.inr rfl⟩ }

end SoundAt
end AgentLibOS.Mcp
