import AgentLibOS.Mcp.SubscriptionInvariant

namespace AgentLibOS.Mcp
open Library Library.Run

variable {Id Reader Payload : Type}

namespace McpSubscriptionManager

/-- Batches stay runs of the accepted events while these only grow. -/
theorem batches_grow {subscriptions subscriptions' : Id → Subscription Payload}
    (grows : ∀ id, (subscriptions id).accepted <+: (subscriptions' id).accepted)
    {delivered : EventBatch Id Reader Payload}
    (sound : delivered.read.after ≤ (subscriptions delivered.read.subscriptionId).accepted.length ∧
      delivered.batch <+:
        (subscriptions delivered.read.subscriptionId).accepted.drop delivered.read.after) :
    delivered.read.after ≤ (subscriptions' delivered.read.subscriptionId).accepted.length ∧
      delivered.batch <+:
        (subscriptions' delivered.read.subscriptionId).accepted.drop delivered.read.after := by
  obtain ⟨later, shape⟩ := grows delivered.read.subscriptionId
  rw [← shape]
  refine ⟨sound.1.trans (by simp), sound.2.trans ?_⟩
  rw [List.drop_append_of_le_length sound.1]
  exact List.prefix_append _ _

variable [DecidableEq Id]

/-- What holds of the manager: every subscription is sound, and every batch that has been returned
is a run of accepted events after the cursor that was passed. -/
structure Sound (manager : McpSubscriptionManager Id Reader Payload) : Prop where
  each : ∀ id, SoundAt (manager.subscriptions id) (manager.terminal.get id)
  batches : ∀ delivered ∈ manager.batches,
    delivered.read.after ≤
      (manager.subscriptions delivered.read.subscriptionId).accepted.length ∧
    delivered.batch <+:
      (manager.subscriptions delivered.read.subscriptionId).accepted.drop delivered.read.after

/-! ## Changes of one subscription -/

section Tables
variable (manager : McpSubscriptionManager Id Reader Payload) (id : Id)
  (selected : Subscription Payload)

@[simp] theorem set_subscriptions_self : (manager.set id selected).subscriptions id = selected :=
  if_pos rfl

@[simp] theorem set_subscriptions_of_ne {other : Id} (apart : other ≠ id) :
    (manager.set id selected).subscriptions other = manager.subscriptions other :=
  if_neg apart

@[simp] theorem set_terminal : (manager.set id selected).terminal = manager.terminal := rfl

@[simp] theorem set_batches : (manager.set id selected).batches = manager.batches := rfl

@[simp] theorem remember_subscriptions (status : McpSubscriptionStatus) :
    (manager.rememberTerminal id status selected).subscriptions = manager.subscriptions := rfl

@[simp] theorem remember_batches (status : McpSubscriptionStatus) :
    (manager.rememberTerminal id status selected).batches = manager.batches := rfl

@[simp] theorem remember_self (status : McpSubscriptionStatus) :
    (manager.rememberTerminal id status selected).terminal.get id =
      some ⟨status, selected.queue, selected.eventCursor⟩ :=
  Retention.get_put_evict _ _ _ manager.policy.retains

/-- The other terminal records stay or are evicted. -/
theorem remember_of_ne (status : McpSubscriptionStatus) {other : Id} (apart : other ≠ id)
    {record : TerminalSubscription Payload}
    (found : (manager.rememberTerminal id status selected).terminal.get other = some record) :
    manager.terminal.get other = some record := by
  have before := Retention.get_evict found
  rwa [Retention.get_put, if_neg apart] at before

end Tables

variable {manager : McpSubscriptionManager Id Reader Payload} {id : Id}

theorem set_grows {selected : Subscription Payload}
    (grows : (manager.subscriptions id).accepted <+: selected.accepted) (other : Id) :
    (manager.subscriptions other).accepted <+:
      ((manager.set id selected).subscriptions other).accepted := by
  by_cases same : other = id
  · subst same
    simpa using grows
  · simp [same]

theorem Sound.set (sound : Sound manager) {selected : Subscription Payload}
    (grows : (manager.subscriptions id).accepted <+: selected.accepted)
    (here : SoundAt selected (manager.terminal.get id)) : Sound (manager.set id selected) := by
  refine ⟨fun other => ?_, fun delivered member => batches_grow (set_grows grows)
    (sound.batches delivered member)⟩
  by_cases same : other = id
  · subst same
    rw [set_subscriptions_self]
    exact here
  · rw [set_subscriptions_of_ne manager id selected same]
    exact sound.each other

/-- The stream of `selected` is remembered, and the subscription changes to `after`. -/
theorem Sound.remember (sound : Sound manager) {after selected : Subscription Payload}
    {status : McpSubscriptionStatus}
    (same : (manager.subscriptions id).accepted = after.accepted)
    (here : SoundAt after (some ⟨status, selected.queue, selected.eventCursor⟩)) :
    Sound ((manager.set id after).rememberTerminal id status selected) := by
  have grows : (manager.subscriptions id).accepted <+: after.accepted :=
    same ▸ List.prefix_refl _
  refine ⟨fun other => ?_, fun delivered member => batches_grow (set_grows grows)
    (sound.batches delivered member)⟩
  by_cases same : other = id
  · subst same
    rw [remember_self, remember_subscriptions, set_subscriptions_self]
    exact here
  · rw [remember_subscriptions, set_subscriptions_of_ne manager id after same]
    rcases found : ((manager.set id after).rememberTerminal id status selected).terminal.get
      other with _ | record
    · exact (sound.each other).forget
    · have before := remember_of_ne _ _ _ status same found
      rw [set_terminal] at before
      rw [← before]
      exact sound.each other

theorem Sound.enter (sound : Sound manager) : Sound (manager.enter id) :=
  ⟨sound.each, sound.batches⟩

/-! ## Operations -/

/-- A change that leaves the events, the tables and the terminal record as they are. -/
theorem Sound.keep (sound : Sound manager) {selected : Subscription Payload}
    (same : (manager.subscriptions id).accepted = selected.accepted)
    (here : SoundAt (manager.subscriptions id) (manager.terminal.get id) →
      SoundAt selected (manager.terminal.get id)) : Sound (manager.set id selected) :=
  sound.set (same ▸ List.prefix_refl _) (here (sound.each id))

/-- A use of a terminal record. -/
theorem Sound.touch (sound : Sound manager) (id : Id) :
    Sound { manager with terminal := manager.terminal.touch id } := by
  refine ⟨fun other => ?_, sound.batches⟩
  rw [Retention.get_touch]
  exact sound.each other

theorem Sound.reserveOpening (sound : Sound manager) (id : Id) (fence : McpConnectionFence) :
    Sound (manager.reserveOpening id fence) := by
  unfold McpSubscriptionManager.reserveOpening
  split_ifs with refused
  · exact sound
  · have fresh : (manager.subscriptions id).reserved = false := by
      simpa using fun reserved => refused (Or.inl reserved)
    have unread : (manager.subscriptions id).accepted = [] :=
      ((sound.each id).unprepared ((sound.each id).unused fresh)).2.2.2.1
    exact Sound.enter (sound.keep unread fun here => here.reserve fresh fence)

theorem Sound.insertFailed (sound : Sound manager) (id : Id) :
    Sound (manager.insertFailed id) := by
  unfold McpSubscriptionManager.insertFailed
  dsimp only
  split_ifs with preparing
  · exact sound.keep rfl fun here => here.leave _ _ nofun
  · exact sound

theorem Sound.prepared (sound : Sound manager) (id : Id) : Sound (manager.prepared id) := by
  unfold McpSubscriptionManager.prepared
  dsimp only
  split_ifs with able
  · exact sound.keep rfl fun here => here.prepare able.2.2.2
  · exact sound

theorem Sound.commitPreparedStart (sound : Sound manager) (id : Id) (swapped : Bool) :
    Sound (manager.commitPreparedStart id swapped) := by
  unfold McpSubscriptionManager.commitPreparedStart
  dsimp only
  split_ifs with able
  · split
    · exact sound
    · exact sound.keep rfl fun here => here.settle _ _ _ _
  · exact sound

theorem Sound.finalizePreparedStart (sound : Sound manager) (id : Id) (current started : Bool) :
    Sound (manager.finalizePreparedStart id current started) := by
  unfold McpSubscriptionManager.finalizePreparedStart
  dsimp only
  split_ifs with able
  · exact Sound.enter (sound.keep rfl fun here => here.publish able.1 able.2.2.2.2.2.1 _)
  · exact sound.enter
  · exact sound

theorem Sound.stopFailed (sound : Sound manager) (id : Id) : Sound (manager.stopFailed id) :=
  sound.keep rfl fun here => here.endStop _ (fun stopping => stopping) _

theorem Sound.claimStop (sound : Sound manager) (id : Id) (persist swapped : Bool) :
    Sound (manager.claimStop id persist swapped) := by
  unfold McpSubscriptionManager.claimStop
  dsimp only
  split
  · exact sound
  · rename_i failing
    split
    · rename_i live
      have calm : (manager.subscriptions id).failing = false := by
        simpa using fun failed => failing ⟨live, failed⟩
      split
      · exact Sound.enter (sound.keep rfl fun here => here.settle _ _ _ _)
      · exact Sound.enter (sound.keep rfl fun here => here.claim live calm _ _)
    · exact sound.touch id

theorem Sound.enqueueEvent (sound : Sound manager) (id : Id) (payload : Payload)
    (recorded : Bool) : Sound (manager.enqueueEvent id payload recorded) := by
  unfold McpSubscriptionManager.enqueueEvent
  dsimp only
  split_ifs with able full
  · exact sound.keep rfl fun here => here.drop able.1 able.2.1
  · exact sound.set (List.prefix_append _ _)
      ((sound.each id).accept able.1 able.2.1 _ payload)
  · exact sound

theorem Sound.prepareFailed (sound : Sound manager) (id : Id) (answer : LostAnswer) :
    Sound (manager.prepareFailed id answer) := by
  unfold McpSubscriptionManager.prepareFailed
  dsimp only
  split_ifs with preparing raised
  · exact sound.keep rfl fun here => here.leave _ _ nofun
  · have here := sound.each id
    obtain ⟨notLive, notStopping, -⟩ := here.unprepared (here.preparing preparing)
    have used : (manager.subscriptions id).reserved = true := by
      by_contra fresh
      have := (here.known (Bool.not_eq_true _ ▸ fresh)).2.2.2.2.1
      rw [preparing] at this
      cases this
    have left := here.leave (manager.subscriptions id).closed false nofun
    exact sound.remember rfl (left.lose used ⟨notLive, rfl, notStopping⟩ _ _ _ _)
  · exact sound

theorem Sound.abortPreparedStart (sound : Sound manager) (id : Id) (persist : Bool)
    (answer : LostAnswer) : Sound (manager.abortPreparedStart id persist answer) := by
  unfold McpSubscriptionManager.abortPreparedStart
  dsimp only
  split
  · rename_i able
    have here := sound.each id
    have notStopping : (manager.subscriptions id).stopping = false :=
      able.2.elim (fun opening => (here.opening opening).1) fun live => (here.live live).2.1
    have used := here.reserved_of_table (able.2.elim (Or.inr ∘ Or.inl) Or.inl)
    exact sound.remember rfl (here.lose used ⟨rfl, rfl, notStopping⟩ _ _ _ _)
  · exact sound

theorem Sound.finishStop (sound : Sound manager) (id : Id) (swapped : Bool) :
    Sound (manager.finishStop id swapped) := by
  unfold McpSubscriptionManager.finishStop
  dsimp only
  cases running : (manager.subscriptions id).stopCall with
  | none => exact sound
  | some persist =>
      dsimp only
      by_cases lost : (manager.subscriptions id).durable = .lost ∧
          (manager.terminal.get id).isSome = true
      · rw [if_pos lost]
        exact sound.keep rfl fun here => here.endStop false nofun _
      · rw [if_neg lost]
        cases (if persist = true then
          manager.casRecord swapped (manager.subscriptions id).durable .stopped
          else some (manager.subscriptions id).durable) with
        | none =>
            exact sound.keep rfl fun here =>
              here.endStop _ (fun still => (Bool.and_eq_true_iff.mp still).1) _
        | some durable =>
            exact sound.remember rfl ((sound.each id).close (by simp [running]) _)

theorem Sound.connectionLost (sound : Sound manager) (id : Id) (answer : LostAnswer) :
    Sound (manager.connectionLost id answer) := by
  unfold McpSubscriptionManager.connectionLost
  dsimp only
  have here := sound.each id
  split
  · rename_i able
    have gone : ((manager.subscriptions id).live && (manager.subscriptions id).opening) = false ∧
        (manager.subscriptions id).stopping = false := by
      rcases able with live | ⟨opening, -⟩
      · simp [here.live live]
      · simp [here.opening_notLive opening, (here.opening opening).1]
    have used := here.reserved_of_table (able.imp_right fun opening => Or.inl opening.1)
    exact sound.remember rfl (here.lose used ⟨rfl, gone⟩ _ _ _ _)
  · rename_i unable
    have notLive : (manager.subscriptions id).live = false := by
      simpa using fun live => unable (Or.inl live)
    exact sound.keep rfl fun here => here.calm notLive

theorem Sound.loseSelected (sound : Sound manager) {id : Id}
    (held : (manager.subscriptions id).live = true ∨ (manager.subscriptions id).stopping = true)
    (answer : LostAnswer) : Sound (manager.loseSelected id answer) := by
  have here := sound.each id
  have notOpening : (manager.subscriptions id).opening = false := by
    by_contra opening
    have opening := Bool.not_eq_false _ ▸ opening
    rcases held with live | stopping
    · rw [(here.live live).1] at opening
      cases opening
    · rw [(here.opening opening).1] at stopping
      cases stopping
  have used := here.reserved_of_table (held.imp_right Or.inr)
  exact sound.remember rfl (here.lose used ⟨rfl, notOpening, rfl⟩ _ _ _ _)

theorem Sound.loseOpening (sound : Sound manager) {id : Id}
    (opening : (manager.subscriptions id).opening = true) : Sound (manager.loseOpening id) := by
  have here := sound.each id
  have used := here.reserved_of_table (Or.inr (Or.inl opening))
  exact sound.remember rfl
    (here.lose used ⟨here.opening_notLive opening, rfl, (here.opening opening).1⟩ _ _ _ _)

theorem Sound.latchOwner (sound : Sound manager) (owner : String) :
    Sound (manager.latchOwner owner) := by
  unfold McpSubscriptionManager.latchOwner
  refine ⟨fun id => ?_, fun delivered member => batches_grow (fun id => ?_)
    (sound.batches delivered member)⟩
  all_goals
    dsimp only
    split_ifs
  · exact (sound.each id).latch
  · exact sound.each id
  all_goals exact List.prefix_refl _

theorem Sound.invalidateTable (sound : Sound manager) {table : Subscription Payload → Bool}
    (tables : ∀ selected, table selected = true →
      selected.live = true ∨ selected.stopping = true)
    (change : SubscriptionInvalidation) (answers : Id → LostAnswer) (id : Id) :
    Sound (manager.invalidateTable change table answers id) := by
  unfold McpSubscriptionManager.invalidateTable
  dsimp only
  split_ifs with found
  · exact sound.loseSelected (tables _ found.1) _
  · exact sound

theorem Sound.invalidateOpenings (sound : Sound manager) (change : SubscriptionInvalidation)
    (readable : Id → Bool) (ids : List Id) :
    Sound (invalidateOpenings change readable ids manager) := by
  induction ids generalizing manager with
  | nil => exact sound
  | cons id ids ih =>
      unfold McpSubscriptionManager.invalidateOpenings
      dsimp only
      split_ifs with found failed
      · exact sound.keep rfl fun here => here.leave _ _ fun preparing => preparing
      · exact ih (sound.loseOpening found.1)
      · exact ih sound

theorem Sound.invalidateNowait (sound : Sound manager) (change : SubscriptionInvalidation)
    (answers : Id → LostAnswer) (readable : Id → Bool) :
    Sound (manager.invalidateNowait change answers readable) := by
  have live : Sound (run (McpSubscriptionManager.invalidateTable change (·.live) answers) manager
      manager.identifiers) :=
    stable_run (fun _ id sound => sound.invalidateTable (fun _ => Or.inl) change answers id) _ sound
  have stopping : Sound (run (McpSubscriptionManager.invalidateTable change (·.stopping) answers)
      _ manager.identifiers) :=
    stable_run (fun _ id sound => sound.invalidateTable (fun _ => Or.inr) change answers id) _ live
  exact stopping.invalidateOpenings change readable _

/-! ## Reads -/

theorem Sound.status (sound : Sound manager) (id : Id) : Sound (manager.status id) := by
  unfold McpSubscriptionManager.status
  dsimp only
  split
  · exact sound
  · exact sound.touch id

theorem Sound.beginEvents (sound : Sound manager) (read : EventRead Id Reader) :
    Sound (manager.beginEvents read) := by
  unfold McpSubscriptionManager.beginEvents
  split
  · exact ⟨sound.each, sound.batches⟩
  · exact sound

/-- A read returns the next events of the stream, and the manager stays sound without them. -/
theorem Sound.readEvents (sound : Sound manager) {read : EventRead Id Reader}
    {batch : List (McpSubscriptionEvent Payload)}
    {after : McpSubscriptionManager Id Reader Payload}
    (done : manager.readEvents read = .ok (batch, after)) :
    Sound after ∧ after.batches = manager.batches ∧
      read.after ≤ (after.subscriptions read.subscriptionId).accepted.length ∧
      batch <+: (after.subscriptions read.subscriptionId).accepted.drop read.after := by
  have here := sound.each read.subscriptionId
  unfold McpSubscriptionManager.readEvents at done
  dsimp only at done
  split at done
  · split at done
    · cases done
    · split at done
      · cases done
      · rename_i current
        obtain ⟨rfl, rfl⟩ := Prod.mk.inj (Except.ok.inj done)
        have cursor := not_not.mp current
        rw [cursor, set_subscriptions_self]
        exact ⟨sound.set (List.prefix_refl _) (here.read read.limit), rfl, here.cursor,
          window_prefix here.sequences here.queue _⟩
  · split at done
    · cases done
    · rename_i terminal found
      split at done
      · cases done
      · rename_i current
        obtain ⟨rfl, rfl⟩ := Prod.mk.inj (Except.ok.inj done)
        have cursor := not_not.mp current
        rw [found] at here
        obtain ⟨rest, within, -⟩ := here.remembered terminal rfl
        rw [cursor]
        refine ⟨⟨fun id => ?_, sound.batches⟩, rfl, within,
          window_prefix here.sequences rest _⟩
        rw [Retention.get_put]
        split_ifs with same
        · rw [same]
          exact here.readTerminal read.limit
        · exact sound.each id

theorem Sound.events (sound : Sound manager) (id : Id) : Sound (manager.events id) := by
  unfold McpSubscriptionManager.events
  split
  · exact sound
  · split
    · exact ⟨sound.each, sound.batches⟩
    · rename_i done
      obtain ⟨after, same, within, next⟩ := sound.readEvents done
      refine ⟨after.each, fun delivered member => ?_⟩
      rcases List.mem_cons.mp member with rfl | member
      · exact ⟨within, next⟩
      · exact after.batches delivered (same ▸ member)

/-! ## Runs -/

theorem start_sound (policy : McpSubscriptionPolicy) (durableStore : Bool)
    (fence : McpConnectionFence) :
    Sound (start policy durableStore fence : McpSubscriptionManager Id Reader Payload) :=
  ⟨fun _ => .ofUnused fence, nofun⟩

theorem step_sound (sound : Sound manager) (event : SubscriptionEvent Id Reader Payload) :
    Sound (step manager event) := by
  cases event with
  | reserveOpening id fence => exact sound.reserveOpening id fence
  | insertFailed id => exact sound.insertFailed id
  | prepared id => exact sound.prepared id
  | prepareFailed id answer => exact sound.prepareFailed id answer
  | commitPreparedStart id swapped => exact sound.commitPreparedStart id swapped
  | finalizePreparedStart id current started =>
      exact sound.finalizePreparedStart id current started
  | abortPreparedStart id persist answer => exact sound.abortPreparedStart id persist answer
  | status id => exact sound.status id
  | beginEvents read => exact sound.beginEvents read
  | events id => exact sound.events id
  | endEvents id => exact ⟨sound.each, sound.batches⟩
  | claimStop id persist swapped => exact sound.claimStop id persist swapped
  | finishStop id swapped => exact sound.finishStop id swapped
  | stopFailed id => exact sound.stopFailed id
  | enqueueEvent id payload recorded => exact sound.enqueueEvent id payload recorded
  | connectionLost id answer => exact sound.connectionLost id answer
  | latchOwner owner => exact sound.latchOwner owner
  | invalidateNowait change answers readable =>
      exact sound.invalidateNowait change answers readable
  | beginClose => exact ⟨sound.each, sound.batches⟩

theorem run_sound (sound : Sound manager) (events : List (SubscriptionEvent Id Reader Payload)) :
    Sound (run step manager events) :=
  stable_run (I := Sound) (fun _ event sound => step_sound sound event) events sound

end McpSubscriptionManager
end AgentLibOS.Mcp
