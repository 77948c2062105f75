import AgentLibOS.Mcp.LeaseHistory
import Mathlib.Data.List.Nodup

namespace AgentLibOS.Mcp
open Library Library.Run

namespace McpConnectionSupervisor
variable {Token Session Time : Type} {supervisor : McpConnectionSupervisor Token Session Time}

/-! ## The catalog -/

theorem mem_of_connection {connectionId : Nat} {selected : ConnectionState Token Session Time}
    (found : supervisor.connection? connectionId = some selected) :
    selected ∈ supervisor.connections ∧ selected.connectionId = connectionId :=
  ⟨List.mem_of_find?_eq_some found, by simpa using List.find?_some found⟩

theorem update_ids (selected : ConnectionState Token Session Time) :
    (supervisor.update selected).connections.map (·.connectionId) =
      supervisor.connections.map (·.connectionId) := by
  change (supervisor.connections.map _).map _ = _
  rw [List.map_map]
  refine List.map_congr_left fun other _ => ?_
  change (if other.connectionId = selected.connectionId then selected else other).connectionId = _
  split_ifs with same
  · exact same.symm
  · rfl

theorem mem_update {selected other : ConnectionState Token Session Time}
    (member : other ∈ (supervisor.update selected).connections) :
    other = selected ∨
      (other ∈ supervisor.connections ∧ other.connectionId ≠ selected.connectionId) := by
  obtain ⟨before, listed, rfl⟩ := List.mem_map.mp member
  by_cases same : before.connectionId = selected.connectionId
  · exact Or.inl (if_pos same)
  · rw [if_neg same]
    exact Or.inr ⟨listed, same⟩

variable [LinearOrder Time] {limits : Limits Time} {tokens : TokenSource Token}

theorem eq_of_id (sound : Sound limits tokens supervisor)
    {left right : ConnectionState Token Session Time} (inLeft : left ∈ supervisor.connections)
    (inRight : right ∈ supervisor.connections) (same : left.connectionId = right.connectionId) :
    left = right :=
  List.inj_on_of_nodup_map sound.distinct inLeft inRight same

/-- A token that a live connection holds has not been released on any connection. -/
theorem unreleased (sound : Sound limits tokens supervisor)
    {selected : ConnectionState Token Session Time} (member : selected ∈ supervisor.connections)
    {leaseToken : Token} (held : leaseToken ∈ selected.leases) (other : Nat) :
    .released other leaseToken ∉ supervisor.history := by
  intro released
  obtain ⟨⟨grant, listed, here, token⟩, open_⟩ := (sound.live selected member).held leaseToken held
  obtain ⟨grant', listed', there, token'⟩ := sound.chronicle.granted_of_released released
  have same : grant = grant' :=
    sound.chronicle.grant_unique listed listed' (token.trans token'.symm)
  have id : other = selected.connectionId := by rw [← there, ← same, here]
  exact open_ (id ▸ released)

/-! ## Each operation keeps the supervisor sound -/

theorem note_sound (sound : Sound limits tokens supervisor)
    {seen : Observation Token Session Time} (lawful : Lawful supervisor.history seen)
    (quiet : seen.concerns = none) (unopened : ∀ openingId fence, seen ≠ .opened openingId fence)
    (spared : ∀ change, seen ≠ .invalidated change) (open_ : seen ≠ .shut)
    (unclosed : ∀ connectionId, seen ≠ .closing connectionId)
    (kept : ∀ connectionId ownerLoop, seen ≠ .abandoned connectionId ownerLoop) :
    Sound limits tokens (supervisor.note seen) where
  chronicle := ⟨lawful, sound.chronicle⟩
  bounded := sound.bounded
  distinct := sound.distinct
  live := fun selected member => (sound.live selected member).note (by simp [quiet])
  waiting := fun opening member => (sound.waiting opening member).note (unopened _)
    fun change now => absurd now (spared change)
  numbered := sound.numbered.note (by simp [quiet]) (by rintro grant rfl; cases quiet)
    fun openingId fence now => absurd now (unopened openingId fence)
  shut := by
    intro member
    rcases List.mem_cons.mp member with now | before
    · exact absurd now.symm open_
    · exact sound.shut before
  closings := sound.closings.note (by rintro connectionId state rfl; cases quiet) unclosed kept

theorem dropOpening_sound [DecidableEq Token] (sound : Sound limits tokens supervisor)
    (openingId : Token) : Sound limits tokens (supervisor.dropOpening openingId) where
  chronicle := sound.chronicle
  bounded := by
    have fewer := List.length_filter_le (fun opening : OpeningState Token =>
      decide (opening.openingId ≠ openingId)) supervisor.openings
    have bounded := sound.bounded
    change supervisor.connections.length + (supervisor.openings.filter _).length ≤ _
    omega
  distinct := sound.distinct
  live := sound.live
  waiting := fun opening member => sound.waiting opening (List.mem_of_mem_filter member)
  numbered := sound.numbered
  shut := sound.shut
  closings := sound.closings

/-- A connection is written back with the same leases. -/
theorem update_sound (sound : Sound limits tokens supervisor)
    {selected : ConnectionState Token Session Time}
    (live : Live supervisor.history supervisor.sequence selected) :
    Sound limits tokens (supervisor.update selected) where
  chronicle := sound.chronicle
  bounded := by
    have same : (supervisor.update selected).connections.length =
        supervisor.connections.length := List.length_map ..
    change (supervisor.update selected).connections.length + _ ≤ _
    rw [same]
    exact sound.bounded
  distinct := by
    rw [update_ids]
    exact sound.distinct
  live := by
    intro other member
    rcases mem_update member with rfl | ⟨before, _⟩
    · exact live
    · exact sound.live other before
  waiting := sound.waiting
  numbered := sound.numbered
  shut := sound.shut
  closings := sound.closings

/-- A connection is written back together with an observation about its leases. -/
theorem record_sound (sound : Sound limits tokens supervisor) {drawn : Nat}
    (more : supervisor.drawn ≤ drawn) {selected : ConnectionState Token Session Time}
    {seen : Observation Token Session Time} (lawful : Lawful supervisor.history seen)
    (about : seen.concerns = some selected.connectionId)
    (attached : ∀ connectionId state, seen ≠ .detached connectionId state)
    (drew : ∀ grant, seen = .granted grant → ∃ n < drawn, tokens.draw n = grant.lease.leaseToken)
    (live : Live (seen :: supervisor.history) supervisor.sequence selected) :
    Sound limits tokens { (supervisor.update selected).note seen with drawn := drawn } where
  chronicle := ⟨lawful, sound.chronicle⟩
  bounded := by
    have same : (supervisor.update selected).connections.length =
        supervisor.connections.length := List.length_map ..
    change (supervisor.update selected).connections.length + _ ≤ _
    rw [same]
    exact sound.bounded
  distinct := by
    change ((supervisor.update selected).connections.map _).Nodup
    rw [update_ids]
    exact sound.distinct
  live := by
    intro other member
    rcases mem_update member with rfl | ⟨before, apart⟩
    · exact live
    · refine (sound.live other before).note ?_
      rw [about]
      exact fun same => apart (Option.some.inj same).symm
  waiting := by
    intro opening member
    refine (sound.waiting opening member).note ?_ ?_
    · rintro fence rfl
      cases about
    · rintro change rfl
      cases about
  numbered := by
    refine (sound.numbered.later more (Nat.le_refl _)).note ?_ drew ?_
    · intro connectionId same
      rw [about] at same
      cases same
      exact live.numbered
    · rintro openingId fence rfl
      cases about
  shut := by
    intro member
    rcases List.mem_cons.mp member with now | before
    · subst now
      cases about
    · exact sound.shut before
  closings := by
    refine sound.closings.note attached ?_ ?_
    · rintro connectionId rfl
      cases about
    · rintro connectionId ownerLoop rfl
      cases about

theorem detach_sound (sound : Sound limits tokens supervisor)
    {selected : ConnectionState Token Session Time} {state : ConnectionStatus}
    (reason : Option String) (numbered : selected.connectionId ≤ supervisor.sequence)
    (attached : ∀ before, .detached selected.connectionId before ∉ supervisor.history)
    (unused : state = .closed → ∀ leaseToken,
      GrantedOn supervisor.history selected.connectionId leaseToken →
        .released selected.connectionId leaseToken ∈ supervisor.history) :
    Sound limits tokens (supervisor.detach selected state reason) where
  chronicle := ⟨⟨attached, unused⟩, sound.chronicle⟩
  bounded := by
    have fewer := List.length_filter_le (fun other : ConnectionState Token Session Time =>
      decide (other.connectionId ≠ selected.connectionId)) supervisor.connections
    have bounded := sound.bounded
    change (supervisor.connections.filter _).length + supervisor.openings.length ≤ _
    omega
  distinct := sound.distinct.sublist (List.filter_sublist.map _)
  live := by
    intro other member
    obtain ⟨before, apart⟩ := List.mem_filter.mp member
    refine (sound.live other before).note fun same => ?_
    exact (of_decide_eq_true apart) (Option.some.inj same).symm
  waiting := fun opening member => (sound.waiting opening member).note (by simp) (by simp)
  numbered := by
    refine sound.numbered.note ?_ (by simp) (by simp)
    intro connectionId same
    cases same
    exact numbered
  shut := by
    intro member
    rcases List.mem_cons.mp member with now | before
    · cases now
    · exact sound.shut before
  closings := by
    constructor
    · refine List.nodup_cons.mpr ⟨fun member => ?_, sound.closings.distinct⟩
      obtain ⟨other, listed, same⟩ := List.mem_map.mp member
      have same : other.connectionId = selected.connectionId := same
      obtain ⟨⟨before, detached⟩, _⟩ := sound.closings.waiting other listed
      exact attached before (same ▸ detached)
    · intro other member
      rcases List.mem_cons.mp member with rfl | before
      · refine ⟨⟨state, List.mem_cons_self⟩, fun closing => ?_, fun ownerLoop gone => ?_⟩
        · obtain ⟨before, detached⟩ :=
            sound.chronicle.detached_of_ended (Or.inl (by simpa [detach] using closing))
          exact attached before detached
        · obtain ⟨before, detached⟩ :=
            sound.chronicle.detached_of_ended (Or.inr ⟨ownerLoop, by simpa [detach] using gone⟩)
          exact attached before detached
      · obtain ⟨⟨earlier, detached⟩, open_, held⟩ := sound.closings.waiting other before
        exact ⟨⟨earlier, List.mem_cons_of_mem _ detached⟩, by simpa [detach] using open_,
          by simpa [detach] using held⟩
    · intro connectionId earlier member
      rcases List.mem_cons.mp member with now | before
      · cases now
        exact Or.inl ⟨_, List.mem_cons_self, rfl⟩
      · rcases sound.closings.accounted connectionId earlier before with
          ⟨other, listed, same⟩ | closed | ⟨ownerLoop, ended, gone⟩
        · exact Or.inl ⟨other, List.mem_cons_of_mem _ listed, same⟩
        · exact Or.inr (Or.inl (List.mem_cons_of_mem _ closed))
        · exact Or.inr (Or.inr ⟨ownerLoop, ended, List.mem_cons_of_mem _ gone⟩)

theorem detachEach_sound
    {verdict : ConnectionState Token Session Time → Option (ConnectionStatus × Option String)}
    {catalog : List (ConnectionState Token Session Time)}
    (sound : Sound limits tokens supervisor)
    (unlisted : (catalog.map (·.connectionId)).Nodup)
    (listed : ∀ selected ∈ catalog, selected ∈ supervisor.connections)
    (unused : ∀ selected ∈ catalog, ∀ reason, verdict selected = some (.closed, reason) →
      selected.leases = []) : Sound limits tokens (supervisor.detachEach verdict catalog) := by
  induction catalog generalizing supervisor with
  | nil => exact sound
  | cons selected rest ih =>
      obtain ⟨apart, restUnlisted⟩ := List.nodup_cons.mp unlisted
      have here := listed selected List.mem_cons_self
      have live := sound.live selected here
      have later : ∀ other ∈ rest, other ∈ supervisor.connections := fun other member =>
        listed other (List.mem_cons_of_mem _ member)
      have idle : ∀ other ∈ rest, ∀ reason, verdict other = some (.closed, reason) →
          other.leases = [] := fun other member => unused other (List.mem_cons_of_mem _ member)
      change Sound limits tokens
        (detachEach verdict (supervisor.detachBy selected (verdict selected)) rest)
      cases decided : verdict selected with
      | none => exact ih sound restUnlisted later idle
      | some outcome =>
          obtain ⟨state, reason⟩ := outcome
          refine ih (detach_sound sound reason live.numbered live.attached ?_) restUnlisted ?_ idle
          · rintro rfl leaseToken ⟨grant, granted, same, rfl⟩
            rcases (live.granted grant granted same).2.2.2 with held | released
            · rw [unused selected List.mem_cons_self reason decided] at held
              cases held
            · exact released
          · intro other member
            refine List.mem_filter.mpr ⟨later other member, decide_eq_true fun same => apart ?_⟩
            exact List.mem_map.mpr ⟨other, member, same⟩

/-- The next token names nothing in the history. -/
theorem drawn_fresh (sound : Sound limits tokens supervisor) :
    (∀ grant, .granted grant ∈ supervisor.history →
      grant.lease.leaseToken ≠ tokens.draw supervisor.drawn) ∧
    ∀ fence, .opened (tokens.draw supervisor.drawn) fence ∉ supervisor.history := by
  constructor
  · intro grant member same
    obtain ⟨_, n, below, draws⟩ := sound.numbered.leases grant member
    exact Nat.ne_of_lt below (tokens.fresh (draws.trans same))
  · intro fence member
    obtain ⟨n, below, draws⟩ := sound.numbered.openings _ fence member
    exact Nat.ne_of_lt below (tokens.fresh draws)

variable {fence : McpConnectionFence} {purpose : Purpose}

theorem reserve_sound (sound : Sound limits tokens supervisor)
    (room : supervisor.connections.length + supervisor.openings.length < limits.maxConnections)
    (ownerLoop : Nat) :
    Sound limits tokens (reserve tokens supervisor fence purpose ownerLoop) := by
  obtain ⟨_, newOpening⟩ := drawn_fresh sound
  constructor
  · exact ⟨trivial, sound.chronicle⟩
  · change supervisor.connections.length + (supervisor.openings ++ [_]).length ≤ _
    rw [List.length_append, List.length_singleton]
    omega
  · exact sound.distinct
  · exact fun selected member => (sound.live selected member).note (by simp [Observation.concerns])
  · intro opening member
    rcases List.mem_append.mp member with before | new
    · refine (sound.waiting opening before).note ?_ (by simp)
      intro other same
      obtain ⟨token, _⟩ := Observation.opened.inj same
      exact newOpening _ (token ▸ (sound.waiting opening before).opened)
    · rw [List.mem_singleton.mp new]
      refine ⟨List.mem_cons_self, ?_, ?_⟩
      · intro other listed
        rcases List.mem_cons.mp listed with now | before
        · cases now
          rfl
        · exact absurd before (newOpening other)
      · intro _ change pair
        rcases List.sublist_cons_iff.mp pair with before | ⟨rest, now, _⟩
        · exact absurd (before.subset (by simp)) (newOpening fence)
        · cases now
  · refine (sound.numbered.later (Nat.le_succ _) (Nat.le_refl _)).note ?_ (by simp) ?_
    · simp [Observation.concerns]
    intro openingId other same
    cases same
    exact ⟨supervisor.drawn, Nat.lt_succ_self _, rfl⟩
  · intro member
    rcases List.mem_cons.mp member with now | before
    · cases now
    · exact sound.shut before
  · exact sound.closings.note (by simp) (by simp) (by simp)

/-- One lease is taken off a connection. -/
theorem withdraw_sound [DecidableEq Token] (sound : Sound limits tokens supervisor)
    {selected : ConnectionState Token Session Time} (member : selected ∈ supervisor.connections)
    {leaseToken : Token} (held : leaseToken ∈ selected.leases) (used : Time) :
    let withdrawn := (supervisor.update (selected.without leaseToken used)).note
      (.released selected.connectionId leaseToken)
    Sound limits tokens withdrawn ∧
      Live withdrawn.history withdrawn.sequence (selected.without leaseToken used) := by
  intro withdrawn
  have live := sound.live selected member
  have remaining : Live withdrawn.history withdrawn.sequence
      (selected.without leaseToken used) := by
    constructor
    · exact live.numbered
    · intro state seen
      rcases List.mem_cons.mp seen with now | before
      · cases now
      · exact live.attached state before
    · exact live.nodup.erase leaseToken
    · intro other kept
      obtain ⟨apart, before⟩ := live.nodup.mem_erase_iff.mp kept
      obtain ⟨granted, unreleased⟩ := live.held other before
      refine ⟨granted.later, fun released => ?_⟩
      rcases List.mem_cons.mp released with now | earlier
      · exact apart (Observation.released.inj now).2
      · exact unreleased earlier
    · intro grant listed same
      rcases List.mem_cons.mp listed with now | before
      · cases now
      · obtain ⟨fence, purpose, expires, kept⟩ := live.granted grant before same
        refine ⟨fence, purpose, expires, ?_⟩
        by_cases here : grant.lease.leaseToken = leaseToken
        · rw [here]
          exact Or.inr List.mem_cons_self
        · exact kept.imp (fun inside => (List.mem_erase_of_ne here).mpr inside)
            (List.mem_cons_of_mem _)
  refine ⟨?_, remaining⟩
  exact record_sound sound (Nat.le_refl _) ⟨(live.held leaseToken held).1,
    unreleased sound member held⟩ rfl (by simp) (by simp) remaining

theorem detachExpired_sound (sound : Sound limits tokens supervisor) (now : Time) :
    Sound limits tokens (supervisor.detachExpired now) := by
  refine detachEach_sound sound sound.distinct (fun _ member => member) ?_
  intro selected _ reason decided
  split_ifs at decided with expired idle
  · cases decided
  · exact idle.1

theorem closeIdle_sound (sound : Sound limits tokens supervisor) (connectionId : Nat) (now : Time) :
    Sound limits tokens (supervisor.closeIdle connectionId now) := by
  unfold closeIdle
  split
  · exact sound
  · rename_i selected found
    have live := sound.live selected (mem_of_connection found).1
    split_ifs with idle
    · refine detach_sound sound none live.numbered live.attached ?_
      rintro _ token ⟨grant, granted, here, rfl⟩
      rcases (live.granted grant granted here).2.2.2 with held | released
      · rw [idle.1] at held
        cases held
      · exact released
    · exact sound

section Clock
variable [Add Time]

theorem share_sound (sound : Sound limits tokens supervisor) (open_ : supervisor.closed = false)
    {selected : ConnectionState Token Session Time} (member : selected ∈ supervisor.connections)
    {now used : Time} (sameFence : selected.fence = fence)
    (samePurpose : selected.purpose = purpose) (shareable : purpose ≠ .mutation)
    (alive : now < selected.absoluteExpiresMonotonic) :
    Sound limits tokens (share limits tokens supervisor fence purpose selected now used) := by
  obtain ⟨newToken, _⟩ := drawn_fresh sound
  have live := sound.live selected member
  refine record_sound sound (Nat.le_succ _) ?_ rfl (by simp) ?_ ?_
  · refine ⟨?_, sameFence, samePurpose, live.attached, newToken, ?_, by simp⟩
    · intro shut
      rw [sound.shut shut] at open_
      cases open_
    · intro other listed same
      obtain ⟨otherFence, otherPurpose, expires, _⟩ := live.granted other listed same
      exact ⟨sameFence.symm.trans otherFence.symm, samePurpose.symm.trans otherPurpose.symm,
        shareable, now, rfl, by rwa [expires]⟩
  · rintro grant now
    cases now
    exact ⟨supervisor.drawn, Nat.lt_succ_self _, rfl⟩
  · constructor
    · exact live.numbered
    · intro state seen
      rcases List.mem_cons.mp seen with now | before
      · cases now
      · exact live.attached state before
    · refine List.nodup_append.mpr ⟨live.nodup, List.nodup_singleton _, ?_⟩
      rintro leaseToken held _ new rfl
      obtain ⟨⟨grant, listed, _, rfl⟩, _⟩ := live.held leaseToken held
      exact newToken grant listed (List.mem_singleton.mp new)
    · intro leaseToken held
      rcases List.mem_append.mp held with before | new
      · obtain ⟨granted, unreleased⟩ := live.held leaseToken before
        exact ⟨granted.later, by simpa using unreleased⟩
      · rw [List.mem_singleton.mp new]
        refine ⟨⟨_, List.mem_cons_self, rfl, rfl⟩, fun released => ?_⟩
        obtain ⟨grant, listed, _, token⟩ :=
          sound.chronicle.granted_of_released (by simpa using released)
        exact newToken grant listed token
    · intro grant listed same
      rcases List.mem_cons.mp listed with now | before
      · cases now
        refine ⟨sameFence.symm, samePurpose.symm, rfl, Or.inl ?_⟩
        exact List.mem_append_right _ (List.mem_singleton.mpr rfl)
      · obtain ⟨otherFence, otherPurpose, expires, kept⟩ := live.granted grant before same
        exact ⟨otherFence, otherPurpose, expires,
          kept.imp (List.mem_append_left _) (List.mem_cons_of_mem _)⟩

theorem acquire_sound (sound : Sound limits tokens supervisor) {reusable : Bool} {ownerLoop : Nat}
    {now used : Time} {supervisor' : McpConnectionSupervisor Token Session Time}
    (done : acquire limits tokens supervisor fence purpose reusable ownerLoop now used =
      .ok supervisor') : Sound limits tokens supervisor' := by
  simp only [acquire, bind_eq_ok, ensure_ok, exists_const] at done
  obtain ⟨open_, _, _, done⟩ := done
  split at done
  · rename_i selected found
    cases done
    split_ifs at found with shareable
    have checked := List.find?_some found
    obtain ⟨_, sameFence, samePurpose, alive⟩ := of_decide_eq_true checked
    exact share_sound sound open_ (List.mem_of_find?_eq_some found) sameFence samePurpose
      shareable.2 alive
  · simp only [bind_eq_ok, ensure_ok, exists_const] at done
    obtain ⟨room, done⟩ := done
    cases done
    exact reserve_sound sound room ownerLoop

theorem connect_sound (sound : Sound limits tokens supervisor)
    {opening : OpeningState Token} (waiting : Waiting supervisor.history opening)
    (valid : opening.invalidatedReason = none) (open_ : supervisor.closed = false)
    (room : supervisor.connections.length + supervisor.openings.length < limits.maxConnections)
    (session : Session) (now : Time) :
    Sound limits tokens (connect limits tokens supervisor opening session now) := by
  obtain ⟨newToken, _⟩ := drawn_fresh sound
  have newId : ∀ grant, .granted grant ∈ supervisor.history →
      grant.lease.connectionId ≠ supervisor.sequence + 1 := by
    intro grant member same
    have bound := (sound.numbered.leases grant member).1
    omega
  constructor
  · refine ⟨⟨?_, rfl, rfl, ?_, newToken, fun other member same => absurd same (newId other member),
      ?_⟩, sound.chronicle⟩
    · intro shut
      rw [sound.shut shut] at open_
      cases open_
    · intro state member
      have bound := sound.numbered.detached _ state member
      exact Nat.not_succ_le_self _ bound
    · intro openingId same
      cases same
      exact ⟨waiting.opened, waiting.valid valid⟩
  · change (supervisor.connections ++ [_]).length + supervisor.openings.length ≤ _
    rw [List.length_append, List.length_singleton]
    omega
  · change ((supervisor.connections ++ [_]).map _).Nodup
    rw [List.map_append, List.nodup_append]
    refine ⟨sound.distinct, List.nodup_singleton _, ?_⟩
    intro connectionId member other new same
    obtain ⟨selected, listed, rfl⟩ := List.mem_map.mp member
    have bound := (sound.live selected listed).numbered
    rw [List.mem_singleton.mp new] at same
    change selected.connectionId = supervisor.sequence + 1 at same
    omega
  · intro selected member
    rcases List.mem_append.mp member with before | new
    · have live := sound.live selected before
      have bound := live.numbered
      refine Live.note ⟨Nat.le_succ_of_le bound, live.attached, live.nodup, live.held,
        live.granted⟩ ?_
      intro same
      have same : supervisor.sequence + 1 = selected.connectionId := Option.some.inj same
      omega
    · rw [List.mem_singleton.mp new]
      constructor
      · exact Nat.le_refl _
      · intro state member
        rcases List.mem_cons.mp member with now | before
        · cases now
        · exact Nat.not_succ_le_self _ (sound.numbered.detached _ state before)
      · exact List.nodup_singleton _
      · intro leaseToken held
        rw [List.mem_singleton.mp held]
        refine ⟨⟨_, List.mem_cons_self, rfl, rfl⟩, fun released => ?_⟩
        rcases List.mem_cons.mp released with now | before
        · cases now
        · obtain ⟨grant, listed, _, token⟩ := sound.chronicle.granted_of_released before
          exact newToken grant listed token
      · intro grant listed same
        rcases List.mem_cons.mp listed with now | before
        · cases now
          exact ⟨rfl, rfl, rfl, Or.inl (List.mem_singleton.mpr rfl)⟩
        · exact absurd same (newId grant before)
  · exact fun other member => (sound.waiting other member).note (by simp) (by simp)
  · refine (sound.numbered.later (Nat.le_succ _) (Nat.le_succ _)).note ?_ ?_ (by simp)
    · intro connectionId same
      cases same
      exact Nat.le_refl _
    · intro grant same
      cases same
      exact ⟨supervisor.drawn, Nat.lt_succ_self _, rfl⟩
  · intro member
    rcases List.mem_cons.mp member with now | before
    · cases now
    · exact sound.shut before
  · exact sound.closings.note (by simp) (by simp) (by simp)

theorem publish_sound [DecidableEq Token] (sound : Sound limits tokens supervisor)
    (openingId : Token) (session : Session) (now : Time) :
    Sound limits tokens (publish limits tokens supervisor openingId session now) := by
  unfold publish
  split
  · exact sound
  · rename_i opening found
    have dropped := dropOpening_sound sound openingId
    have listed := List.mem_of_find?_eq_some found
    have same : opening.openingId = openingId := by simpa using List.find?_some found
    split_ifs with ready
    · refine connect_sound dropped (sound.waiting opening listed) ready.1 ready.2 ?_ session now
      have fewer : (supervisor.dropOpening openingId).openings.length <
          supervisor.openings.length :=
        List.length_filter_lt_length_iff_exists.mpr ⟨opening, listed, by simp [same]⟩
      have bounded := sound.bounded
      change supervisor.connections.length + _ < _
      omega
    · exact note_sound dropped trivial rfl (by simp) (by simp) (by simp) (by simp) (by simp)

theorem release_sound [DecidableEq Token] (sound : Sound limits tokens supervisor)
    {target : ReleaseTarget Token} {keepAlive : Bool} {used now later : Time}
    {supervisor' : McpConnectionSupervisor Token Session Time}
    (done : release limits supervisor target keepAlive used now later = .ok supervisor') :
    Sound limits tokens supervisor' := by
  simp only [release, bind_eq_ok] at done
  obtain ⟨⟨connectionId, requested⟩, _, done⟩ := done
  split at done
  · cases done
    exact sound
  · rename_i selected found
    obtain ⟨member, same⟩ := mem_of_connection found
    subst same
    obtain ⟨leaseToken, _, done⟩ := bind_eq_ok.mp done
    by_cases foreign : leaseToken ∉ selected.leases
    · rw [if_pos foreign] at done
      cases done
      exact sound
    · rw [if_neg foreign] at done
      obtain ⟨withdrawn, remaining⟩ := withdraw_sound sound member (not_not.mp foreign) used
      dsimp only at done
      split_ifs at done with others kept
      · cases done
        exact withdrawn
      · cases done
        exact update_sound withdrawn ⟨remaining.numbered, remaining.attached, remaining.nodup,
          remaining.held, remaining.granted⟩
      · cases done
        refine detach_sound withdrawn none remaining.numbered remaining.attached ?_
        rintro _ token ⟨grant, granted, here, rfl⟩
        rcases (remaining.granted grant granted here).2.2.2 with held | released
        · rw [not_not.mp others] at held
          cases held
        · exact released

end Clock

theorem markLost_sound (sound : Sound limits tokens supervisor) (connectionId : Nat)
    (reason : String) : Sound limits tokens (supervisor.markLost connectionId reason) := by
  unfold markLost
  split
  · exact sound
  · rename_i selected found
    have live := sound.live selected (mem_of_connection found).1
    exact detach_sound sound _ live.numbered live.attached (fun closed => by cases closed)

/-- Openings that `predicate` selects are marked, with the observation that spares the others. -/
theorem mark_sound (sound : Sound limits tokens supervisor)
    {predicate : McpConnectionFence → Bool} {reason : String}
    {seen : Observation Token Session Time} {closed : Bool}
    (lawful : Lawful supervisor.history seen) (quiet : seen.concerns = none)
    (unopened : ∀ openingId fence, seen ≠ .opened openingId fence)
    (spared : ∀ change, seen = .invalidated change → predicate = change.matchesFence)
    (unclosed : ∀ connectionId, seen ≠ .closing connectionId)
    (kept : ∀ connectionId ownerLoop, seen ≠ .abandoned connectionId ownerLoop)
    (shut : .shut ∈ seen :: supervisor.history → closed = true) :
    Sound limits tokens { (supervisor.invalidateOpenings predicate reason).note seen with
      closed := closed } where
  chronicle := ⟨lawful, sound.chronicle⟩
  bounded := by
    change supervisor.connections.length + (supervisor.openings.map _).length ≤ _
    rw [List.length_map]
    exact sound.bounded
  distinct := sound.distinct
  live := fun selected member => (sound.live selected member).note (by simp [quiet])
  waiting := by
    intro opening member
    obtain ⟨before, listed, rfl⟩ := List.mem_map.mp member
    have waiting := sound.waiting before listed
    by_cases hit : predicate before.fence = true
    · rw [if_pos hit]
      have marked : Waiting supervisor.history { before with invalidatedReason := some reason } :=
        ⟨waiting.opened, waiting.only, by simp⟩
      exact marked.note (unopened _) (by simp)
    · rw [if_neg hit]
      refine waiting.note (unopened _) ?_
      intro change now _
      rw [spared change now] at hit
      simpa using hit
  numbered := sound.numbered.note (by simp [quiet]) (by rintro grant rfl; cases quiet)
    fun openingId fence now => absurd now (unopened openingId fence)
  shut := shut
  closings := sound.closings.note (by rintro connectionId state rfl; cases quiet) unclosed kept

theorem invalidate_sound (sound : Sound limits tokens supervisor) (change : Invalidation) :
    Sound limits tokens (supervisor.invalidate change) := by
  have marked : Sound limits tokens
      ((supervisor.invalidateOpenings change.matchesFence change.reason).note
        (.invalidated change)) :=
    mark_sound sound trivial rfl (by simp) (by rintro other same; cases same; rfl) (by simp)
      (by simp) (fun member => sound.shut (by simpa using member))
  refine detachEach_sound marked sound.distinct (fun _ member => member) ?_
  intro selected _ reason decided
  split_ifs at decided
  cases decided

theorem latch_sound (sound : Sound limits tokens supervisor) (owner : String) :
    Sound limits tokens (supervisor.latchOwnerRevocation owner) := by
  unfold latchOwnerRevocation
  split_ifs with empty
  · exact sound
  · have noted : Sound limits tokens (supervisor.note (.revoked owner)) :=
      note_sound sound trivial rfl (by simp) (by simp) (by simp) (by simp) (by simp)
    exact ⟨noted.chronicle, noted.bounded, noted.distinct, noted.live, noted.waiting,
      noted.numbered, noted.shut, noted.closings⟩

theorem close_sound (sound : Sound limits tokens supervisor) :
    Sound limits tokens supervisor.close := by
  have marked : Sound limits tokens
      { (supervisor.invalidateOpenings (fun _ => true) "supervisor_closed").note .shut with
        closed := true } :=
    mark_sound sound trivial rfl (by simp) (by simp) (by simp) (by simp) (fun _ => rfl)
  unfold close
  refine detachEach_sound marked sound.distinct (fun _ member => member) ?_
  intro selected _ reason decided
  cases decided

/-- A detached connection is done with, closed or left to a loop that has ended. -/
theorem finish_sound (sound : Sound limits tokens supervisor)
    {selected : ConnectionState Token Session Time} (member : selected ∈ supervisor.pending)
    {seen : Observation Token Session Time}
    (finished : seen = .closing selected.connectionId ∨ ∃ ownerLoop ∈ supervisor.closedLoops,
      seen = .abandoned selected.connectionId ownerLoop) :
    Sound limits tokens { supervisor.note seen with
      pending := supervisor.pending.filter (·.connectionId ≠ selected.connectionId) } := by
  have waiting := sound.closings.waiting selected member
  have quiet : seen.concerns = none ∧ (∀ openingId fence, seen ≠ .opened openingId fence) ∧
      (∀ change, seen ≠ .invalidated change) ∧ seen ≠ .shut := by
    rcases finished with rfl | ⟨ownerLoop, _, rfl⟩ <;> simp [Observation.concerns]
  obtain ⟨unconcerned, unopened, spared, open_⟩ := quiet
  constructor
  · refine ⟨?_, sound.chronicle⟩
    rcases finished with rfl | ⟨ownerLoop, _, rfl⟩
    · exact waiting
    · exact waiting
  · exact sound.bounded
  · exact sound.distinct
  · exact fun other member => (sound.live other member).note (by simp [unconcerned])
  · exact fun opening member => (sound.waiting opening member).note (unopened _)
      fun change now => absurd now (spared change)
  · exact sound.numbered.note (by simp [unconcerned]) (by rintro grant rfl; cases unconcerned)
      fun openingId fence now => absurd now (unopened openingId fence)
  · intro shut
    rcases List.mem_cons.mp shut with now | before
    · exact absurd now.symm open_
    · exact sound.shut before
  · constructor
    · exact sound.closings.distinct.sublist (List.filter_sublist.map _)
    · intro other kept
      obtain ⟨before, apart⟩ := List.mem_filter.mp kept
      have apart := of_decide_eq_true apart
      obtain ⟨⟨state, detached⟩, unclosed, held⟩ := sound.closings.waiting other before
      refine ⟨⟨state, List.mem_cons_of_mem _ detached⟩, fun closing => ?_, fun ownerLoop gone => ?_⟩
      · rcases List.mem_cons.mp closing with now | earlier
        · rcases finished with rfl | ⟨_, _, rfl⟩
          · exact apart (Observation.closing.inj now)
          · cases now
        · exact unclosed earlier
      · rcases List.mem_cons.mp gone with now | earlier
        · rcases finished with rfl | ⟨_, _, rfl⟩
          · cases now
          · exact apart (Observation.abandoned.inj now).1
        · exact held ownerLoop earlier
    · intro connectionId state detached
      have before : .detached connectionId state ∈ supervisor.history := by
        rcases List.mem_cons.mp detached with now | before
        · subst now
          cases unconcerned
        · exact before
      by_cases here : connectionId = selected.connectionId
      · subst here
        rcases finished with rfl | ⟨ownerLoop, ended, rfl⟩
        · exact Or.inr (Or.inl List.mem_cons_self)
        · exact Or.inr (Or.inr ⟨ownerLoop, ended, List.mem_cons_self⟩)
      · rcases sound.closings.accounted connectionId state before with
          ⟨other, listed, rfl⟩ | closed | ⟨ownerLoop, ended, gone⟩
        · exact Or.inl ⟨other, List.mem_filter.mpr ⟨listed, decide_eq_true here⟩, rfl⟩
        · exact Or.inr (Or.inl (List.mem_cons_of_mem _ closed))
        · exact Or.inr (Or.inr ⟨ownerLoop, ended, List.mem_cons_of_mem _ gone⟩)

theorem closeDetached_sound (sound : Sound limits tokens supervisor) (connectionId : Nat) :
    Sound limits tokens (supervisor.closeDetached connectionId) := by
  unfold closeDetached
  split
  · exact sound
  · rename_i selected found
    have same : selected.connectionId = connectionId := by simpa using List.find?_some found
    subst same
    refine finish_sound sound (List.mem_of_find?_eq_some found) ?_
    split_ifs with ended
    · exact Or.inr ⟨selected.ownerLoop, ended, rfl⟩
    · exact Or.inl rfl

/-- A detached connection whose loop is open is closed when its turn comes. -/
theorem closeDetached_closes (sound : Sound limits tokens supervisor)
    {selected : ConnectionState Token Session Time} (member : selected ∈ supervisor.pending)
    (open_ : selected.ownerLoop ∉ supervisor.closedLoops) :
    .closing selected.connectionId ∈ (supervisor.closeDetached selected.connectionId).history := by
  unfold closeDetached
  cases found : supervisor.pending.find? (·.connectionId = selected.connectionId) with
  | none =>
      have absent := List.find?_eq_none.mp found selected member
      simp at absent
  | some other =>
      have id : other.connectionId = selected.connectionId := by simpa using List.find?_some found
      have same : other = selected := List.inj_on_of_nodup_map sound.closings.distinct
        (List.mem_of_find?_eq_some found) member id
      subst same
      dsimp only
      rw [if_neg open_]
      exact List.mem_cons_self

theorem closeLoop_sound (sound : Sound limits tokens supervisor) (ownerLoop : Nat) :
    Sound limits tokens
      { supervisor with closedLoops := ownerLoop :: supervisor.closedLoops } where
  chronicle := sound.chronicle
  bounded := sound.bounded
  distinct := sound.distinct
  live := sound.live
  waiting := sound.waiting
  numbered := sound.numbered
  shut := sound.shut
  closings :=
    { distinct := sound.closings.distinct
      waiting := sound.closings.waiting
      accounted := fun connectionId state detached =>
        (sound.closings.accounted connectionId state detached).imp_right
          (Or.imp_right fun ⟨loop, ended, gone⟩ => ⟨loop, List.mem_cons_of_mem _ ended, gone⟩) }

theorem initial_sound :
    Sound limits tokens (initial : McpConnectionSupervisor Token Session Time) where
  chronicle := trivial
  bounded := Nat.zero_le _
  distinct := List.nodup_nil
  live := by simp [initial]
  waiting := by simp [initial]
  numbered := ⟨by simp [initial], by simp [initial], by simp [initial]⟩
  shut := by simp [initial]
  closings := ⟨List.nodup_nil, by simp [initial], by simp [initial]⟩

variable [DecidableEq Token] [Add Time]

theorem step_sound (sound : Sound limits tokens supervisor)
    (event : SupervisorEvent Token Session Time) :
    Sound limits tokens (step limits tokens supervisor event) := by
  rcases transact_cases (exec limits tokens) supervisor event with done | same
  · change exec limits tokens supervisor event = .ok (step limits tokens supervisor event) at done
    generalize step limits tokens supervisor event = supervisor' at done ⊢
    cases event with
    | acquire fence purpose reusable ownerLoop now used => exact acquire_sound sound done
    | publish openingId session now =>
        cases done
        exact publish_sound sound openingId session now
    | failOpening openingId =>
        cases done
        exact dropOpening_sound sound openingId
    | release target keepAlive used now later => exact release_sound sound done
    | markLost connectionId reason =>
        cases done
        exact markLost_sound sound connectionId reason
    | invalidate change =>
        cases done
        exact invalidate_sound sound change
    | latchOwnerRevocation owner =>
        cases done
        exact latch_sound sound owner
    | close =>
        cases done
        exact close_sound sound
    | detachExpired now =>
        cases done
        exact detachExpired_sound sound now
    | closeIdle connectionId now =>
        cases done
        exact closeIdle_sound sound connectionId now
    | closeDetached connectionId =>
        cases done
        exact closeDetached_sound sound connectionId
    | closeLoop ownerLoop =>
        cases done
        exact closeLoop_sound sound ownerLoop
  · change step limits tokens supervisor event = supervisor at same
    rw [same]
    exact sound

theorem run_sound (events : List (SupervisorEvent Token Session Time)) :
    Sound limits tokens (run (step limits tokens) initial events) :=
  stable_run (I := Sound limits tokens) (fun _ event sound => step_sound sound event) events
    initial_sound

end McpConnectionSupervisor
end AgentLibOS.Mcp
