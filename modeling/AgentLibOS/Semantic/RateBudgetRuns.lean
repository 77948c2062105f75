import AgentLibOS.Semantic.RateBudget

namespace AgentLibOS.Semantic
open Library Library.Run Library.Windows Processes

variable {hashes : BudgetHashes}

/-! ## One attempt -/

/-- A window of the record: its width, where it is kept and the limit an epoch sets to it. -/
structure BudgetWindow (hashes : BudgetHashes) where
  width : Int
  startedAt : SemanticRateBudgetRecord hashes → Instant
  count : SemanticRateBudgetRecord hashes → Nat
  limit : SemanticPolicyEpoch → Nat

def minuteWindow (hashes : BudgetHashes) : BudgetWindow hashes :=
  ⟨minute, (·.minuteWindowStartedAt), (·.minuteCount), (·.perRulePerMinuteLimit)⟩

def dayWindow (hashes : BudgetHashes) : BudgetWindow hashes :=
  ⟨day, (·.dayWindowStartedAt), (·.dayCount), (·.perRulePerDayLimit)⟩

namespace BudgetWindow
variable (window : BudgetWindow hashes)

def charge (reservation : BudgetReservation) (now : Instant)
    (record : SemanticRateBudgetRecord hashes) : Charge :=
  ⟨window.startedAt record, now, window.count record, window.limit reservation.epoch⟩

/-- What the record says of the window. -/
def state (record : SemanticRateBudgetRecord hashes) : ℤ × ℕ :=
  (window.startedAt record, window.count record)

/-- Every reservation charges the window, and a release leaves it. -/
structure Counted : Prop where
  positive : 0 < window.width
  reserve : ∀ {reservation bucketId now} {current : Option (SemanticRateBudgetRecord hashes)}
    {target}, reserveTarget reservation bucketId now current = .ok target →
      (window.startedAt target ≤ now ∧ now < window.startedAt target + window.width) ∧
        window.count target ≤ window.limit reservation.epoch ∧
        ChargeFollows window.width (window.charge reservation now target) (current.map window.state)
  release : ∀ {now current} {target : SemanticRateBudgetRecord hashes},
    releaseTarget now current = .ok target → current.map window.state = some (window.state target)

end BudgetWindow

/-- Rolling keeps the window, or starts one at least a width later. -/
theorem rolled_follows {width now start : Int} (positive : 0 < width) (passed : start ≤ now)
    (count limit : Nat) :
    ((rolled width now start count).1 ≤ now ∧ now < (rolled width now start count).1 + width) ∧
      ChargeFollows width ⟨(rolled width now start count).1, now, (rolled width now start count).2 + 1,
        limit⟩ (some (start, count)) := by
  unfold rolled
  split_ifs with late
  · exact ⟨⟨le_rfl, by omega⟩, .inr ⟨by dsimp only; omega, rfl⟩⟩
  · exact ⟨⟨passed, by omega⟩, .inl ⟨rfl, rfl⟩⟩

theorem firstRecord_ok {reservation : BudgetReservation} {now : Instant}
    {target : SemanticRateBudgetRecord hashes}
    (done : firstRecord hashes reservation now = .ok target) :
    target.bucketId = semanticRateBudgetBucketId hashes reservation.binding.tenantBucketSha256
        reservation.ruleId ∧
      target.minuteWindowStartedAt = now ∧ target.dayWindowStartedAt = now ∧
      target.minuteCount = 1 ∧ target.dayCount = 1 ∧ target.inflightCount = 1 ∧
      target.revision = 0 := by
  unfold firstRecord at done
  split_ifs at done
  cases done
  exact ⟨rfl, rfl, rfl, rfl, rfl, rfl, rfl⟩

theorem reserveTarget_ok {reservation : BudgetReservation} {bucketId : String} {now : Instant}
    {current target : SemanticRateBudgetRecord hashes}
    (done : reserveTarget reservation bucketId now (some current) = .ok target) :
    current.bucketId = bucketId ∧ current.minuteWindowStartedAt ≤ now ∧
      current.dayWindowStartedAt ≤ now ∧
      (rolled minute now current.minuteWindowStartedAt current.minuteCount).2 <
        reservation.epoch.perRulePerMinuteLimit ∧
      (rolled day now current.dayWindowStartedAt current.dayCount).2 <
        reservation.epoch.perRulePerDayLimit ∧
      current.inflightCount < reservation.epoch.maxInflight ∧
      target = { current with
        minuteWindowStartedAt :=
          (rolled minute now current.minuteWindowStartedAt current.minuteCount).1
        dayWindowStartedAt := (rolled day now current.dayWindowStartedAt current.dayCount).1
        minuteCount := (rolled minute now current.minuteWindowStartedAt current.minuteCount).2 + 1
        dayCount := (rolled day now current.dayWindowStartedAt current.dayCount).2 + 1
        inflightCount := current.inflightCount + 1
        revision := current.revision + 1
        updatedAt := now } := by
  obtain ⟨_, scope, later⟩ := bind_eq_ok.mp done
  obtain ⟨_, clock, later⟩ := bind_eq_ok.mp later
  obtain ⟨_, limits, last⟩ := bind_eq_ok.mp later
  have inScope := ensure_ok.mp scope
  have passed := ensure_ok.mp clock
  have free := ensure_ok.mp limits
  exact ⟨inScope.1, passed.1, passed.2, free.1, free.2.1, free.2.2, (Except.ok.inj last).symm⟩

theorem releaseTarget_ok {now : Instant} {current : Option (SemanticRateBudgetRecord hashes)}
    {target : SemanticRateBudgetRecord hashes} (done : releaseTarget now current = .ok target) :
    ∃ stored, current = some stored ∧ 0 < stored.inflightCount ∧
      target = { stored with
        inflightCount := stored.inflightCount - 1
        revision := stored.revision + 1
        updatedAt := now } := by
  cases current with
  | none => cases done
  | some stored =>
      simp only [releaseTarget] at done
      split_ifs at done with empty
      exact ⟨stored, rfl, by omega, (Except.ok.inj done).symm⟩

theorem minuteWindow_counted : (minuteWindow hashes).Counted where
  positive := (by decide : 0 < minute)
  reserve := by
    intro reservation bucketId now current target done
    cases current with
    | none =>
        obtain ⟨_, started, _, count, _⟩ := firstRecord_ok done
        refine ⟨?_, ?_, count⟩
        · show target.minuteWindowStartedAt ≤ now ∧ now < target.minuteWindowStartedAt + minute
          rw [started]
          exact ⟨le_rfl, Int.lt_add_of_pos_right now (by decide)⟩
        · show target.minuteCount ≤ _
          rw [count]
          exact reservation.epoch.minute_bounded.1
    | some current =>
        obtain ⟨_, passed, _, free, _, _, rfl⟩ := reserveTarget_ok done
        have spec := rolled_follows (by decide : 0 < minute) passed current.minuteCount
          reservation.epoch.perRulePerMinuteLimit
        exact ⟨spec.1, free, spec.2⟩
  release := by
    intro now current target done
    obtain ⟨stored, rfl, _, rfl⟩ := releaseTarget_ok done
    rfl

theorem dayWindow_counted : (dayWindow hashes).Counted where
  positive := (by decide : 0 < day)
  reserve := by
    intro reservation bucketId now current target done
    cases current with
    | none =>
        obtain ⟨_, _, started, _, count, _⟩ := firstRecord_ok done
        refine ⟨?_, ?_, count⟩
        · show target.dayWindowStartedAt ≤ now ∧ now < target.dayWindowStartedAt + day
          rw [started]
          exact ⟨le_rfl, Int.lt_add_of_pos_right now (by decide)⟩
        · show target.dayCount ≤ _
          rw [count]
          exact reservation.epoch.day_bounded.1
    | some current =>
        obtain ⟨_, _, passed, _, free, _, rfl⟩ := reserveTarget_ok done
        have spec := rolled_follows (by decide : 0 < day) passed current.dayCount
          reservation.epoch.perRulePerDayLimit
        exact ⟨spec.1, free, spec.2⟩
  release := by
    intro now current target done
    obtain ⟨stored, rfl, _, rfl⟩ := releaseTarget_ok done
    rfl

/-! ## The record of a bucket and its successful calls -/

/-- The entry is a call that succeeded on the record. -/
def Made (current : Option (SemanticRateBudgetRecord hashes)) : BudgetEntry hashes → Prop
  | .reserved reservation now record =>
      record.bucketId = semanticRateBudgetBucketId hashes reservation.binding.tenantBucketSha256
          reservation.ruleId ∧
        reserveTarget reservation record.bucketId now current = .ok record
  | .released record => ∃ now, releaseTarget now current = .ok record

/-- The entries of a bucket, newest first, led to its record. -/
inductive Explained : Option (SemanticRateBudgetRecord hashes) → List (BudgetEntry hashes) → Prop
  | nil : Explained none []
  | cons {current : Option (SemanticRateBudgetRecord hashes)} {entries : List (BudgetEntry hashes)}
      {entry : BudgetEntry hashes} (made : Made current entry) (earlier : Explained current entries) :
      Explained (some entry.record) (entry :: entries)

def BudgetEntry.isReserve : BudgetEntry hashes → Bool
  | .reserved .. => true
  | .released _ => false

/-- The charges of the entries to the window. -/
def BudgetWindow.log (window : BudgetWindow hashes) (entries : List (BudgetEntry hashes)) :
    List Charge :=
  entries.filterMap fun
    | .reserved reservation now record => some (window.charge reservation now record)
    | .released _ => none

def maxInflights (entries : List (BudgetEntry hashes)) : List Nat :=
  entries.filterMap fun
    | .reserved reservation _ _ => some reservation.epoch.maxInflight
    | .released _ => none

def inflight (record : Option (SemanticRateBudgetRecord hashes)) : Nat :=
  record.elim 0 (·.inflightCount)

theorem reserveTarget_inflight {reservation : BudgetReservation} {bucketId : String}
    {now : Instant} {current : Option (SemanticRateBudgetRecord hashes)}
    {target : SemanticRateBudgetRecord hashes}
    (done : reserveTarget reservation bucketId now current = .ok target) :
    target.inflightCount = inflight current + 1 ∧
      target.inflightCount ≤ reservation.epoch.maxInflight := by
  cases current with
  | none =>
      obtain ⟨_, _, _, _, _, count, _⟩ := firstRecord_ok done
      rw [count]
      exact ⟨rfl, reservation.epoch.inflight_bounded.1⟩
  | some current =>
      obtain ⟨_, _, _, _, _, free, rfl⟩ := reserveTarget_ok done
      exact ⟨rfl, free⟩

namespace Explained
variable {record : Option (SemanticRateBudgetRecord hashes)} {entries : List (BudgetEntry hashes)}

/-- Successful reserves are in flight or were released. -/
theorem inflight_eq (explained : Explained record entries) :
    inflight record + entries.countP (!·.isReserve) = entries.countP (·.isReserve) := by
  induction explained with
  | nil => rfl
  | @cons current entries entry made _ ih =>
      cases entry with
      | reserved reservation now record =>
          have step := (reserveTarget_inflight made.2).1
          rw [List.countP_cons_of_neg (by simp [BudgetEntry.isReserve]),
            List.countP_cons_of_pos (by rfl), ← ih]
          show record.inflightCount + _ = _
          omega
      | released record =>
          obtain ⟨now, done⟩ := made
          obtain ⟨stored, rfl, busy, rfl⟩ := releaseTarget_ok done
          rw [List.countP_cons_of_pos (by rfl),
            List.countP_cons_of_neg (by simp [BudgetEntry.isReserve]), ← ih]
          show stored.inflightCount - 1 + _ = stored.inflightCount + _
          omega

theorem inflight_le (explained : Explained record entries) :
    inflight record ≤ (maxInflights entries).foldr max 0 := by
  induction explained with
  | nil => exact le_rfl
  | @cons current entries entry made _ ih =>
      cases entry with
      | reserved reservation now record =>
          exact (reserveTarget_inflight made.2).2.trans (le_max_left _ _)
      | released record =>
          obtain ⟨now, done⟩ := made
          obtain ⟨stored, rfl, _, rfl⟩ := releaseTarget_ok done
          exact (Nat.sub_le _ 1).trans ih

/-- The record has the newest charge of each of its windows. -/
theorem current_eq {window : BudgetWindow hashes} (counted : window.Counted)
    (explained : Explained record entries) :
    current (window.log entries) = record.map window.state := by
  induction explained with
  | nil => rfl
  | @cons current entries entry made _ ih =>
      cases entry with
      | reserved reservation now record => rfl
      | released record =>
          obtain ⟨now, done⟩ := made
          exact ih.trans (counted.release done)

theorem tumbling {window : BudgetWindow hashes} (counted : window.Counted)
    (explained : Explained record entries) : Tumbling window.width (window.log entries) := by
  induction explained with
  | nil => exact .nil
  | @cons current entries entry made earlier ih =>
      cases entry with
      | reserved reservation now record =>
          obtain ⟨timely, limited, follows⟩ := counted.reserve made.2
          rw [← earlier.current_eq counted] at follows
          exact .cons timely limited follows ih
      | released record => exact ih

end Explained

/-! ## Compare and set -/

/-- A record that was read from the bucket: it is the stored one, or an older one. -/
def Seen (table : RateBudgetTable hashes) (bucketId : String)
    (expected : Option (SemanticRateBudgetRecord hashes)) : Prop :=
  ∀ read ∈ expected, ∃ stored ∈ table.get bucketId,
    read.revision ≤ stored.revision ∧ (read.revision = stored.revision → read = stored)

theorem update_eq {stored target : SemanticRateBudgetRecord hashes}
    (bucket : target.bucketId = stored.bucketId) (scope : target.sameScope stored) :
    stored.update target = target := by
  obtain ⟨epoch, tenant, rule⟩ := scope
  cases stored
  cases target
  dsimp only at bucket epoch tenant rule
  subst bucket epoch tenant rule
  rfl

/-- A write that succeeds replaces the record that was read. -/
theorem compareAndSetBudget_ok {table table' : RateBudgetTable hashes}
    {expected : Option (SemanticRateBudgetRecord hashes)}
    {target : SemanticRateBudgetRecord hashes} (seen : Seen table target.bucketId expected)
    (written : compareAndSetSemanticRateBudget table expected target = .ok (some table')) :
    table.get target.bucketId = expected ∧ table' = table.set target.bucketId target := by
  cases expected with
  | none =>
      simp only [compareAndSetSemanticRateBudget] at written
      split_ifs at written with initial
      have outcome := Except.ok.inj written
      cases found : table.get target.bucketId with
      | none =>
          rw [found] at outcome
          exact ⟨rfl, (Option.some.inj outcome).symm⟩
      | some stored =>
          rw [found] at outcome
          cases outcome
  | some read =>
      simp only [compareAndSetSemanticRateBudget] at written
      split_ifs at written with identity scope
      rw [not_or, not_not, not_not] at identity
      have outcome := Except.ok.inj written
      obtain ⟨stored, found, _, same⟩ := seen read rfl
      rw [← identity.1, Option.mem_def.mp found] at outcome
      dsimp only at outcome
      split_ifs at outcome with match_
      obtain rfl := same match_.1.symm
      refine ⟨found, ?_⟩
      rw [← Option.some.inj outcome, update_eq identity.1 scope]

/-! ## Runs -/

def BudgetCall.Named (call : BudgetCall hashes) : Prop :=
  match call.request with
  | .reserve reservation =>
      call.bucketId = semanticRateBudgetBucketId hashes reservation.binding.tenantBucketSha256
        reservation.ruleId
  | .release => True

/-- A write that is pending has its target from a record that was read. -/
def BudgetCall.Sound (table : RateBudgetTable hashes) (call : BudgetCall hashes) : Prop :=
  call.Named ∧ ∀ expected target, call.phase = .writing expected target →
    call.target expected = .ok target ∧ target.bucketId = call.bucketId ∧
      Seen table call.bucketId expected

namespace BudgetWorld
variable {κ : Type} [DecidableEq κ]

def entries (world : BudgetWorld hashes κ) (bucketId : String) : List (BudgetEntry hashes) :=
  world.history.filter (·.record.bucketId == bucketId)

structure Sound (world : BudgetWorld hashes κ) : Prop where
  explained : ∀ bucketId, Explained (world.table.get bucketId) (world.entries bucketId)
  keyed : ∀ bucketId, ∀ record ∈ world.table.get bucketId, record.bucketId = bucketId
  calls : ∀ caller, ∀ call ∈ world.calls caller, call.Sound world.table

end BudgetWorld

theorem admitReserve_ok {binding : SemanticApprovalBindingV2} {ruleId : String}
    {assessment : SemanticAssessment} {view : SemanticAuthorityControlView} {fenced : Bool}
    {bucketId : String}
    (done : admitReserve hashes binding ruleId assessment view fenced = .ok bucketId) :
    bucketId = semanticRateBudgetBucketId hashes binding.tenantBucketSha256 ruleId := by
  obtain ⟨_, _, later⟩ := bind_eq_ok.mp done
  obtain ⟨_, _, later⟩ := bind_eq_ok.mp later
  obtain ⟨_, _, later⟩ := bind_eq_ok.mp later
  obtain ⟨_, _, last⟩ := bind_eq_ok.mp later
  obtain ⟨_, _, last⟩ := bind_eq_ok.mp last
  obtain ⟨_, _, last⟩ := bind_eq_ok.mp last
  exact (Except.ok.inj last).symm

/-- A target is of the bucket of the call. -/
theorem target_bucketId {call : BudgetCall hashes}
    {current : Option (SemanticRateBudgetRecord hashes)}
    {target : SemanticRateBudgetRecord hashes} (named : call.Named)
    (keyed : ∀ record ∈ current, record.bucketId = call.bucketId)
    (done : call.target current = .ok target) : target.bucketId = call.bucketId := by
  unfold BudgetCall.target BudgetCall.Named at *
  cases request : call.request with
  | reserve reservation =>
      rw [request] at done named
      cases current with
      | none => exact (firstRecord_ok done).1.trans named.symm
      | some current =>
          obtain ⟨same, _, _, _, _, _, rfl⟩ := reserveTarget_ok done
          exact same
  | release =>
      rw [request] at done
      obtain ⟨stored, rfl, _, rfl⟩ := releaseTarget_ok done
      exact keyed stored rfl

/-- A pending write makes an entry. -/
theorem entry_made {call : BudgetCall hashes}
    {current : Option (SemanticRateBudgetRecord hashes)}
    {target : SemanticRateBudgetRecord hashes} (named : call.Named)
    (bucket : target.bucketId = call.bucketId) (done : call.target current = .ok target) :
    Made current (call.entry target) ∧ (call.entry target).record = target := by
  unfold BudgetCall.target BudgetCall.Named BudgetCall.entry at *
  cases request : call.request with
  | reserve reservation =>
      rw [request] at done named
      refine ⟨⟨bucket.trans named, ?_⟩, rfl⟩
      rw [bucket]
      exact done
  | release =>
      rw [request] at done
      exact ⟨⟨call.now, done⟩, rfl⟩

namespace BudgetWorld
variable {κ : Type} [DecidableEq κ] {world : BudgetWorld hashes κ}

/-- The world after a call has written. -/
def commit (world : BudgetWorld hashes κ) (caller : κ) (entry : BudgetEntry hashes) :
    BudgetWorld hashes κ :=
  { world with
    table := world.table.set entry.record.bucketId entry.record
    history := entry :: world.history }.setCall caller none

/-- A step starts, advances or ends a call, or commits one. -/
theorem step_cases (sound : world.Sound) (event : BudgetEvent κ) :
    (∃ caller call, (∀ next ∈ call, BudgetCall.Sound world.table next) ∧
        world.step event = world.setCall caller call) ∨
      world.step event = world ∨
      ∃ caller entry, Made (world.table.get entry.record.bucketId) entry ∧
        world.step event = world.commit caller entry := by
  cases event with
  | reserve caller budget binding ruleId assessment view fenced now =>
      simp only [step]
      cases busy : world.calls caller with
      | some call => exact .inr (.inl rfl)
      | none =>
          cases admitted : admitReserve hashes binding ruleId assessment view fenced with
          | error fault => exact .inr (.inl rfl)
          | ok bucketId =>
              refine .inl ⟨caller, _, ?_, rfl⟩
              intro next same
              obtain rfl := Option.some.inj same
              exact ⟨admitReserve_ok admitted, fun expected target phase => by cases phase⟩
  | release caller budget bucketId now =>
      simp only [step]
      cases busy : world.calls caller with
      | some call => exact .inr (.inl rfl)
      | none =>
          dsimp only
          split_ifs with blank
          · exact .inr (.inl rfl)
          · refine .inl ⟨caller, _, ?_, rfl⟩
            intro next same
            obtain rfl := Option.some.inj same
            exact ⟨trivial, fun expected target phase => by cases phase⟩
  | read caller =>
      simp only [step]
      cases busy : world.calls caller with
      | none => exact .inr (.inl rfl)
      | some call =>
          have own := sound.calls caller call busy
          cases phase : call.phase with
          | writing expected target => exact .inr (.inl (by simp only [phase]))
          | reading =>
              simp only [phase, readStep]
              cases done : call.target (world.table.get call.bucketId) with
              | error fault => exact .inl ⟨caller, none, by simp, rfl⟩
              | ok target =>
                  refine .inl ⟨caller, _, ?_, rfl⟩
                  intro next same
                  obtain rfl := Option.some.inj same
                  refine ⟨own.1, fun expected target' writing => ?_⟩
                  obtain ⟨rfl, rfl⟩ := BudgetPhase.writing.inj writing
                  exact ⟨done, target_bucketId own.1 (sound.keyed _) done,
                    fun read found => ⟨read, found, le_rfl, fun _ => rfl⟩⟩
  | write caller =>
      simp only [step]
      cases busy : world.calls caller with
      | none => exact .inr (.inl rfl)
      | some call =>
          have own := sound.calls caller call busy
          cases phase : call.phase with
          | reading => exact .inr (.inl (by simp only [phase]))
          | writing expected target =>
              obtain ⟨done, bucket, seen⟩ := own.2 expected target phase
              simp only [phase, writeStep]
              cases outcome : compareAndSetSemanticRateBudget world.table expected target with
              | error fault => exact .inl ⟨caller, none, by simp, rfl⟩
              | ok result =>
                  cases result with
                  | some table =>
                      rw [← bucket] at seen
                      obtain ⟨found, rfl⟩ := compareAndSetBudget_ok seen outcome
                      obtain ⟨made, record⟩ := entry_made own.1 bucket done
                      refine .inr (.inr ⟨caller, call.entry target, ?_, ?_⟩)
                      · rw [record, found]
                        exact made
                      · rw [commit, record]
                  | none =>
                      dsimp only
                      split_ifs with last
                      · exact .inl ⟨caller, none, by simp, rfl⟩
                      · refine .inl ⟨caller, _, ?_, rfl⟩
                        intro next same
                        obtain rfl := Option.some.inj same
                        exact ⟨own.1, fun expected target phase => by cases phase⟩
  | abort caller => exact .inl ⟨caller, none, by simp, rfl⟩

@[simp] theorem setCall_table (caller : κ) (call : Option (BudgetCall hashes)) :
    (world.setCall caller call).table = world.table := rfl

@[simp] theorem setCall_entries (caller : κ) (call : Option (BudgetCall hashes))
    (bucketId : String) : (world.setCall caller call).entries bucketId = world.entries bucketId :=
  rfl

theorem setCall_calls (caller other : κ) (call : Option (BudgetCall hashes)) :
    (world.setCall caller call).calls other = if other = caller then call else world.calls other := by
  show Function.update world.calls caller call other = _
  rw [Function.update_apply]

theorem commit_get (caller : κ) (entry : BudgetEntry hashes) (bucketId : String) :
    (world.commit caller entry).table.get bucketId =
      if bucketId = entry.record.bucketId then some entry.record else world.table.get bucketId := rfl

theorem commit_entries (caller : κ) (entry : BudgetEntry hashes) (bucketId : String) :
    (world.commit caller entry).entries bucketId =
      if bucketId = entry.record.bucketId then entry :: world.entries bucketId
      else world.entries bucketId := by
  show (entry :: world.history).filter (·.record.bucketId == bucketId) = _
  rw [List.filter_cons]
  by_cases same : bucketId = entry.record.bucketId
  · rw [if_pos same, if_pos (beq_iff_eq.mpr same.symm)]
    rfl
  · rw [if_neg same, if_neg fun equal => same (beq_iff_eq.mp equal).symm]
    rfl

/-- The revision grows with every entry. -/
theorem made_revision {current : Option (SemanticRateBudgetRecord hashes)}
    {entry : BudgetEntry hashes} (made : Made current entry) :
    ∀ stored ∈ current, stored.revision < entry.record.revision := by
  intro stored found
  obtain rfl := Option.mem_def.mp found
  cases entry with
  | reserved reservation now record =>
      obtain ⟨_, _, _, _, _, _, same⟩ := reserveTarget_ok made.2
      show stored.revision < record.revision
      rw [same]
      exact Nat.lt_succ_self _
  | released record =>
      obtain ⟨now, done⟩ := made
      obtain ⟨_, same, _, rfl⟩ := releaseTarget_ok done
      obtain rfl := Option.some.inj same
      exact Nat.lt_succ_self _

/-- What was read before a commit is older after it. -/
theorem seen_commit {bucketId : String} {expected : Option (SemanticRateBudgetRecord hashes)}
    (caller : κ) {entry : BudgetEntry hashes}
    (made : Made (world.table.get entry.record.bucketId) entry)
    (seen : Seen world.table bucketId expected) :
    Seen (world.commit caller entry).table bucketId expected := by
  intro read found
  obtain ⟨stored, inside, older, same⟩ := seen read found
  rw [commit_get]
  split_ifs with own
  · rw [own] at inside
    have newer := made_revision made stored inside
    exact ⟨entry.record, rfl, by omega, by omega⟩
  · exact ⟨stored, inside, older, same⟩

theorem initial_sound : (initial : BudgetWorld hashes κ).Sound where
  explained := fun _ => .nil
  keyed := fun _ _ found => by cases found
  calls := fun _ _ found => by cases found

theorem setCall_sound (sound : world.Sound) (caller : κ) {call : Option (BudgetCall hashes)}
    (next : ∀ c ∈ call, c.Sound world.table) : (world.setCall caller call).Sound where
  explained := sound.explained
  keyed := sound.keyed
  calls := by
    intro other pending found
    rw [setCall_calls] at found
    split_ifs at found
    · exact next pending found
    · exact sound.calls other pending found

theorem commit_sound (sound : world.Sound) (caller : κ) {entry : BudgetEntry hashes}
    (made : Made (world.table.get entry.record.bucketId) entry) :
    (world.commit caller entry).Sound where
  explained := by
    intro bucketId
    rw [commit_get, commit_entries]
    split_ifs with own
    · rw [own]
      exact .cons made (sound.explained _)
    · exact sound.explained bucketId
  keyed := by
    intro bucketId record found
    rw [commit_get] at found
    split_ifs at found with own
    · obtain rfl := Option.some.inj found
      exact own.symm
    · exact sound.keyed bucketId record found
  calls := by
    intro other pending found
    rw [commit, setCall_calls] at found
    split_ifs at found
    · cases found
    · obtain ⟨named, writes⟩ := sound.calls other pending found
      refine ⟨named, fun expected target phase => ?_⟩
      obtain ⟨done, bucket, seen⟩ := writes expected target phase
      exact ⟨done, bucket, seen_commit caller made seen⟩

theorem step_sound (world : BudgetWorld hashes κ) (event : BudgetEvent κ) (sound : world.Sound) :
    (world.step event).Sound := by
  rcases step_cases sound event with
    ⟨caller, call, next, same⟩ | same | ⟨caller, entry, made, same⟩
  · rw [same]
    exact setCall_sound sound caller next
  · rw [same]
    exact sound
  · rw [same]
    exact commit_sound sound caller made

theorem run_sound (events : List (BudgetEvent κ)) :
    (run step (initial : BudgetWorld hashes κ) events).Sound :=
  stable_run step_sound events initial_sound

end BudgetWorld

/-! ## Counters are not reset -/

/-- The bucket stays, and its window keeps its start and does not lose charges, or starts again at
least a width later. -/
def Continues (window : BudgetWindow hashes)
    (before after : Option (SemanticRateBudgetRecord hashes)) : Prop :=
  ∀ stored ∈ before, ∃ later ∈ after,
    (window.startedAt later = window.startedAt stored ∧
        window.count stored ≤ window.count later) ∨
      window.startedAt stored + window.width ≤ window.startedAt later

theorem Continues.refl (window : BudgetWindow hashes)
    (record : Option (SemanticRateBudgetRecord hashes)) : Continues window record record :=
  fun stored found => ⟨stored, found, .inl ⟨rfl, le_rfl⟩⟩

theorem Continues.trans {window : BudgetWindow hashes} (counted : window.Counted)
    {first second third : Option (SemanticRateBudgetRecord hashes)}
    (before : Continues window first second) (after : Continues window second third) :
    Continues window first third := by
  intro stored found
  obtain ⟨middle, inside, step⟩ := before stored found
  obtain ⟨later, last, step'⟩ := after middle inside
  have positive := counted.positive
  refine ⟨later, last, ?_⟩
  rcases step with ⟨same, more⟩ | late <;> rcases step' with ⟨same', more'⟩ | late'
  · exact .inl ⟨same'.trans same, more.trans more'⟩
  · rw [← same]
    exact .inr late'
  · rw [same']
    exact .inr late
  · refine .inr ?_
    linarith only [late, late', positive]

theorem made_continues {window : BudgetWindow hashes} (counted : window.Counted)
    {current : Option (SemanticRateBudgetRecord hashes)} {entry : BudgetEntry hashes}
    (made : Made current entry) : Continues window current (some entry.record) := by
  intro stored found
  obtain rfl := Option.mem_def.mp found
  refine ⟨entry.record, rfl, ?_⟩
  cases entry with
  | reserved reservation now record =>
      obtain ⟨_, _, ⟨same, next⟩ | ⟨late, _⟩⟩ := counted.reserve made.2
      · exact .inl ⟨same, (Nat.le_succ _).trans next.symm.le⟩
      · exact .inr late
  | released record =>
      obtain ⟨now, done⟩ := made
      have same := Option.some.inj (counted.release done)
      exact .inl ⟨(congrArg Prod.fst same).symm, (congrArg Prod.snd same).le⟩

namespace BudgetWorld
variable {κ : Type} [DecidableEq κ] {world : BudgetWorld hashes κ}

theorem step_continues {window : BudgetWindow hashes} (counted : window.Counted)
    (sound : world.Sound) (event : BudgetEvent κ) (bucketId : String) :
    Continues window (world.table.get bucketId) ((world.step event).table.get bucketId) := by
  rcases step_cases sound event with
    ⟨caller, call, _, same⟩ | same | ⟨caller, entry, made, same⟩
  · rw [same]
    exact .refl window _
  · rw [same]
    exact .refl window _
  · rw [same, commit_get]
    split_ifs with own
    · rw [own]
      exact made_continues counted made
    · exact .refl window _

theorem run_continues {window : BudgetWindow hashes} (counted : window.Counted)
    (sound : world.Sound) (events : List (BudgetEvent κ)) (bucketId : String) :
    Continues window (world.table.get bucketId) ((run step world events).table.get bucketId) := by
  induction events generalizing world with
  | nil => exact .refl window _
  | cons event events ih =>
      exact (step_continues counted sound event bucketId).trans counted
        (ih (step_sound world event sound))

/-! ## The canary budget -/

/-- The window is charged as a tumbling window of its width, within the limit in force at its last
charge, and an interval as long as it has at most two limits of charges. -/
structure WindowKept (window : BudgetWindow hashes) (world : BudgetWorld hashes κ)
    (bucketId : String) : Prop where
  apart : Tumbling window.width (window.log (world.entries bucketId))
  stored : current (window.log (world.entries bucketId)) =
    (world.table.get bucketId).map window.state
  last_limit : ∀ newer charge older, window.log (world.entries bucketId) = newer ++ charge :: older →
    (∀ later ∈ newer, later.window ≠ charge.window) →
      ((window.log (world.entries bucketId)).filter fun other =>
        other.window == charge.window).length ≤ charge.limit
  interval : ∀ start bound, (∀ charge ∈ window.log (world.entries bucketId),
      start ≤ charge.reading → charge.reading ≤ start + window.width → charge.limit ≤ bound) →
    ((window.log (world.entries bucketId)).filter fun charge =>
      decide (start ≤ charge.reading ∧ charge.reading ≤ start + window.width)).length ≤ 2 * bound

omit [DecidableEq κ] in
theorem window_kept {window : BudgetWindow hashes} (counted : window.Counted)
    (sound : world.Sound) (bucketId : String) : WindowKept window world bucketId where
  apart := (sound.explained bucketId).tumbling counted
  stored := (sound.explained bucketId).current_eq counted
  last_limit := fun _ _ _ shape last =>
    ((sound.explained bucketId).tumbling counted).last_limit counted.positive shape last
  interval := fun start _ limits =>
    ((sound.explained bucketId).tumbling counted).interval_le counted.positive start limits

/-- A reservation is charged to the bucket of its tenant and rule, whatever its epoch. -/
theorem reserved_bucket {record : Option (SemanticRateBudgetRecord hashes)}
    {entries : List (BudgetEntry hashes)} (explained : Explained record entries) :
    ∀ reservation now target, .reserved reservation now target ∈ entries →
      target.bucketId = semanticRateBudgetBucketId hashes reservation.binding.tenantBucketSha256
        reservation.ruleId := by
  induction explained with
  | nil => exact fun _ _ _ member => absurd member List.not_mem_nil
  | cons made _ ih =>
      intro reservation now target member
      rcases List.mem_cons.mp member with rfl | older
      · exact made.1
      · exact ih reservation now target older

theorem rate_budget_conserved (front back : List (BudgetEvent κ)) (bucketId : String) :
    let before : BudgetWorld hashes κ := run step .initial front
    let world : BudgetWorld hashes κ := run step .initial (front ++ back)
    inflight (world.table.get bucketId) +
        (world.entries bucketId).countP (!·.isReserve) =
          (world.entries bucketId).countP (·.isReserve) ∧
      inflight (world.table.get bucketId) ≤ (maxInflights (world.entries bucketId)).foldr max 0 ∧
      WindowKept (minuteWindow hashes) world bucketId ∧
      WindowKept (dayWindow hashes) world bucketId ∧
      (∀ reservation now target, .reserved reservation now target ∈ world.entries bucketId →
        bucketId = semanticRateBudgetBucketId hashes reservation.binding.tenantBucketSha256
          reservation.ruleId) ∧
      Continues (minuteWindow hashes) (before.table.get bucketId) (world.table.get bucketId) ∧
      Continues (dayWindow hashes) (before.table.get bucketId) (world.table.get bucketId) := by
  intro before world
  have sound : world.Sound := run_sound (front ++ back)
  have later : world = run step before back := run_append step .initial front back
  refine ⟨(sound.explained bucketId).inflight_eq, (sound.explained bucketId).inflight_le,
    window_kept minuteWindow_counted sound bucketId, window_kept dayWindow_counted sound bucketId,
    ?_, ?_, ?_⟩
  · intro reservation now target member
    have own := beq_iff_eq.mp (List.mem_filter.mp member).2
    rw [← reserved_bucket (sound.explained bucketId) reservation now target member]
    exact own.symm
  · rw [later]
    exact run_continues minuteWindow_counted (run_sound front) back bucketId
  · rw [later]
    exact run_continues dayWindow_counted (run_sound front) back bucketId

end BudgetWorld

end AgentLibOS.Semantic
