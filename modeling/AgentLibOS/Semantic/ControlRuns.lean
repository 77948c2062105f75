import AgentLibOS.Semantic.Control

namespace AgentLibOS.Semantic
open Library.Run Processes

/-! ## Changes of the record -/

/-- The record gives machine authority to its active epoch. -/
def SemanticControlState.Armed (state : SemanticControlState) : Prop :=
  state.mode.authority = true ∧ state.tripped = false

/-- A change of the record that the control plane may make. -/
def Follows : Option SemanticControlState → SemanticControlState → Prop
  | none, next => next.revision = 0 ∧ (next.Armed → next.generation = 1)
  | some previous, next => next.revision = previous.revision + 1 ∧
      previous.generation ≤ next.generation ∧
        (next.Armed → next.generation = previous.generation + 1)

/-- The two states point at the same active epoch. -/
def SameEpoch (left right : SemanticControlState) : Prop :=
  left.activeEpochId = right.activeEpochId ∧ left.activePolicySha256 = right.activePolicySha256 ∧
    left.generation = right.generation

/-- The state points at the epoch of a policy row. -/
def PointsAt (state : SemanticControlState) (record : SemanticPolicyEpochRecord) : Prop :=
  state.activeEpochId = some record.epochId ∧ state.activePolicySha256 = some record.policySha256 ∧
    state.generation = record.generation

theorem SameEpoch.pointsAt {left right : SemanticControlState} {record : SemanticPolicyEpochRecord}
    (same : SameEpoch left right) (points : PointsAt right record) : PointsAt left record :=
  ⟨same.1.trans points.1, same.2.1.trans points.2.1, same.2.2.trans points.2.2⟩

theorem tripWith_not_armed {state : SemanticControlState} {authority : state.mode.authority = true}
    {revision : Nat} {code : SemanticTripCode} {now : Instant} :
    ¬ (state.tripWith authority revision code now).Armed := by
  rintro ⟨-, untripped⟩
  cases untripped

theorem inactive_not_armed {state : SemanticControlState} (inactive : state.mode.authority = false) :
    ¬ state.Armed := by
  rintro ⟨authority, -⟩
  rw [inactive] at authority
  cases authority

/-! ## Targets -/

section Targets
variable {repository : SemanticRepository} {evidence : HostEvidence} {mode : SemanticRuntimeMode}
  {expected : Option SemanticControlState} {target : SemanticControlState}

theorem inactiveTarget_follows {inactive : mode.authority = false}
    (done : inactiveTarget evidence mode inactive expected = some target) :
    Follows expected target ∧ target.mode.authority = false := by
  cases expected with
  | none =>
      cases done
      exact ⟨⟨rfl, fun armed => absurd armed (inactive_not_armed inactive)⟩, inactive⟩
  | some current =>
      simp only [inactiveTarget] at done
      split at done
      · cases done
      · cases done
        exact ⟨⟨rfl, le_rfl, fun armed => absurd armed (inactive_not_armed inactive)⟩, inactive⟩

theorem firstActiveTarget_ok {authority : mode.authority = true} {epoch : SemanticPolicyEpoch}
    {policySha256 : Digest} {revision : Nat}
    (done : firstActiveTarget evidence mode authority epoch policySha256 revision = .ok target) :
    epoch.generation = 1 ∧
      target = activeState mode authority epoch policySha256 revision evidence.now := by
  unfold firstActiveTarget at done
  split at done
  · cases done
  · rename_i first
    push Not at first
    exact ⟨first.1, (Except.ok.inj done).symm⟩

theorem rotationTarget_ok {authority : mode.authority = true} {current : SemanticControlState}
    {epoch : SemanticPolicyEpoch} {policySha256 : Digest}
    (done : rotationTarget repository evidence mode authority current epoch policySha256 = .ok target) :
    epoch.generation = current.generation + 1 ∧ target =
      activeState mode authority epoch policySha256 (current.revision + 1) evidence.now := by
  unfold rotationTarget at done
  split at done
  · cases done
  · rename_i next
    push Not at next
    obtain ⟨previousRecord, -, done⟩ := bind_eq_ok.mp done
    split at done
    · split at done
      · cases done
      · obtain ⟨_, -, done⟩ := bind_eq_ok.mp done
        exact ⟨next, (Except.ok.inj done).symm⟩
    · cases done

/-- Every activation is of the coordinator's own epoch, one generation above the record. -/
theorem activeTarget_follows {authority : mode.authority = true} {epoch : SemanticPolicyEpoch}
    {policySha256 : Digest}
    (done : activeTarget repository evidence mode authority epoch policySha256 expected =
      .ok (some target)) :
    Follows expected target ∧
      ∃ revision, target = activeState mode authority epoch policySha256 revision evidence.now := by
  cases expected with
  | none =>
      obtain ⟨first, here, wrapped⟩ := map_eq_ok.mp done
      cases wrapped
      obtain ⟨generation, rfl⟩ := firstActiveTarget_ok here
      exact ⟨⟨rfl, fun _ => generation⟩, _, rfl⟩
  | some current =>
      simp only [activeTarget] at done
      split at done
      · obtain ⟨_, -, done⟩ := bind_eq_ok.mp done
        cases done
      · split at done
        · cases done
        · split at done
          · rename_i initial
            obtain ⟨first, here, wrapped⟩ := map_eq_ok.mp done
            cases wrapped
            obtain ⟨generation, rfl⟩ := firstActiveTarget_ok here
            refine ⟨⟨rfl, ?_, fun _ => ?_⟩, _, rfl⟩
            · rw [initial.1]
              exact Nat.zero_le _
            · rw [initial.1]
              exact generation
          · obtain ⟨rotated, here, wrapped⟩ := map_eq_ok.mp done
            cases wrapped
            obtain ⟨generation, rfl⟩ := rotationTarget_ok here
            exact ⟨⟨rfl, by simp [activeState, generation], fun _ => generation⟩, _, rfl⟩

theorem startupTarget_follows {hashes : SemanticHashes} {policyEpoch : Option SemanticPolicyEpoch}
    (done : startupTarget repository evidence hashes mode policyEpoch expected = .ok (some target)) :
    Follows expected target ∧ (target.mode.authority = false ∨
      ∃ (authority : mode.authority = true) (epoch : SemanticPolicyEpoch) (revision : Nat),
        policyEpoch = some epoch ∧
          target = activeState mode authority epoch (hashes.policy epoch) revision evidence.now) := by
  unfold startupTarget at done
  split at done
  · rename_i authority
    split at done
    · cases done
    · rename_i epoch
      obtain ⟨follows, revision, active⟩ := activeTarget_follows done
      exact ⟨follows, Or.inr ⟨authority, epoch, revision, rfl, active⟩⟩
  · obtain ⟨follows, inactive⟩ := inactiveTarget_follows (Except.ok.inj done)
    exact ⟨follows, Or.inl inactive⟩

/-- The startup trip keeps the revision of a target and otherwise adds one to the record's. -/
theorem unsafeReviewStartupTarget_ok {proposed : Option SemanticControlState}
    (done : unsafeReviewStartupTarget evidence expected proposed = .ok (some target)) :
    proposed = some target ∨
      ∃ (selected : SemanticControlState) (authority : selected.mode.authority = true) (revision : Nat),
        target = selected.tripWith authority revision .unsafeReview evidence.now ∧
        (proposed = some selected ∧ revision = selected.revision ∨
          proposed = none ∧ expected = some selected ∧ revision = selected.revision + 1) := by
  unfold unsafeReviewStartupTarget at done
  split at done
  · exact Or.inl (Except.ok.inj done)
  · rename_i selected chosen
    split at done
    · rename_i authority
      split at done
      · exact Or.inl (Except.ok.inj done)
      · split at done
        · exact Or.inl (Except.ok.inj done)
        · obtain ⟨found, -, done⟩ := bind_eq_ok.mp done
          cases found with
          | false => exact Or.inl (Except.ok.inj done)
          | true =>
              refine Or.inr ⟨selected, authority, _, (Option.some.inj (Except.ok.inj done)).symm, ?_⟩
              cases proposed with
              | none => exact Or.inr ⟨rfl, chosen, rfl⟩
              | some proposed => exact Or.inl ⟨chosen, by simp⟩
    · exact Or.inl (Except.ok.inj done)

theorem tripTarget_ok {reason : SemanticTripCode}
    (done : tripTarget evidence reason expected = .ok (some target)) :
    ∃ (current : SemanticControlState) (authority : current.mode.authority = true),
      expected = some current ∧
        target = current.tripWith authority (current.revision + 1) reason evidence.now := by
  cases expected with
  | none => cases done
  | some current =>
      simp only [tripTarget] at done
      split at done
      · rename_i authority
        split_ifs at done with inactive tripped
        · cases done
        · exact ⟨current, authority, rfl, (Option.some.inj (Except.ok.inj done)).symm⟩
      · cases done

end Targets

/-! ## Plans -/

/-- What a coordinator may be about to write. -/
structure PlanSound (coordinator : SemanticCoordinator) (staged : Option SemanticPolicyEpochRecord)
    (expected : Option SemanticControlState) (target : SemanticControlState) : Prop where
  follows : Follows expected target
  /-- Machine authority comes only from the coordinator's own epoch. -/
  armed : target.Armed → ∃ epoch ∈ coordinator.policyEpoch, target.generation = epoch.generation
  /-- The epoch that the target points at is the staged one, or the record's. -/
  epoch : target.mode.authority = true → (∃ record ∈ staged, PointsAt target record) ∨
    ∃ current ∈ expected, SameEpoch target current ∧ current.mode.authority = true

section Plans
variable {hashes : SemanticHashes} {coordinator : SemanticCoordinator}
  {repository : SemanticRepository} {evidence : HostEvidence}

theorem appendSemanticPolicyEpoch_ok {repository' : SemanticRepository}
    {record : SemanticPolicyEpochRecord}
    (done : repository.appendSemanticPolicyEpoch record = .ok repository') :
    repository'.control = repository.control ∧ record ∈ repository'.epochs ∧
      repository.epochs ⊆ repository'.epochs := by
  unfold SemanticRepository.appendSemanticPolicyEpoch at done
  split at done
  · cases done
    exact ⟨rfl, List.mem_cons_self, List.subset_cons_self _ _⟩
  · rename_i existing collision
    split at done
    · rename_i same
      cases done
      refine ⟨rfl, ?_, List.Subset.refl _⟩
      have member : existing ∈ repository.epochs :=
        List.mem_of_mem_filter (collision ▸ List.mem_singleton_self existing)
      rwa [same] at member
    · cases done
  · cases done

theorem appendStaged_ok {repository' : SemanticRepository}
    {staged : Option SemanticPolicyEpochRecord}
    (done : repository.appendStaged staged = .ok repository') :
    repository'.control = repository.control ∧ (∀ record ∈ staged, record ∈ repository'.epochs) ∧
      repository.epochs ⊆ repository'.epochs := by
  cases staged with
  | none =>
      cases done
      exact ⟨rfl, by simp, List.Subset.refl _⟩
  | some record =>
      obtain ⟨control, member, kept⟩ := appendSemanticPolicyEpoch_ok done
      exact ⟨control, by simpa using member, kept⟩

theorem stagedEpoch_ok {staged : Option SemanticPolicyEpochRecord} {epoch : SemanticPolicyEpoch}
    (done : stagedEpoch hashes coordinator = .ok staged)
    (authority : coordinator.mode.authority = true) (own : coordinator.policyEpoch = some epoch) :
    ∃ record, staged = some record ∧ ∀ revision now,
      PointsAt (activeState coordinator.mode authority epoch (hashes.policy epoch) revision now)
        record := by
  rw [stagedEpoch, own] at done
  dsimp only at done
  rw [if_pos authority] at done
  obtain ⟨record, stored, rfl⟩ := map_eq_ok.mp done
  unfold policyEpochStorageRecord at stored
  split at stored
  · cases stored
  · cases stored
    exact ⟨_, rfl, fun _ _ => ⟨rfl, rfl, rfl⟩⟩

theorem follows_tripWith {expected : Option SemanticControlState} {selected : SemanticControlState}
    {authority : selected.mode.authority = true} {code : SemanticTripCode} {now : Instant}
    (follows : Follows expected selected) :
    Follows expected (selected.tripWith authority selected.revision code now) := by
  cases expected with
  | none => exact ⟨follows.1, fun armed => absurd armed tripWith_not_armed⟩
  | some current => exact ⟨follows.1, follows.2.1, fun armed => absurd armed tripWith_not_armed⟩

/-- A trip of the record's own epoch. -/
theorem trip_planSound {staged : Option SemanticPolicyEpochRecord} {current : SemanticControlState}
    (authority : current.mode.authority = true) (code : SemanticTripCode) (now : Instant) :
    PlanSound coordinator staged (some current)
      (current.tripWith authority (current.revision + 1) code now) where
  follows := ⟨rfl, le_rfl, fun armed => absurd armed tripWith_not_armed⟩
  armed armed := absurd armed tripWith_not_armed
  epoch _ := Or.inr ⟨current, rfl, ⟨rfl, rfl, rfl⟩, authority⟩

theorem startup_planSound {staged : Option SemanticPolicyEpochRecord}
    {expected : Option SemanticControlState} {target : SemanticControlState}
    {view : SemanticRepository} (append : stagedEpoch hashes coordinator = .ok staged)
    (done : startupTarget view evidence hashes coordinator.mode coordinator.policyEpoch expected =
      .ok (some target)) : PlanSound coordinator staged expected target := by
  obtain ⟨follows, inactive | ⟨authority, epoch, revision, own, rfl⟩⟩ := startupTarget_follows done
  · constructor
    · exact follows
    · exact fun armed => absurd armed (inactive_not_armed inactive)
    · intro authority
      rw [inactive] at authority
      cases authority
  · obtain ⟨record, stagedRecord, points⟩ := stagedEpoch_ok append authority own
    constructor
    · exact follows
    · exact fun _ => ⟨epoch, own, rfl⟩
    · exact fun _ => Or.inl ⟨record, stagedRecord, points _ _⟩

theorem PlanSound.tripped {staged : Option SemanticPolicyEpochRecord}
    {expected : Option SemanticControlState} {selected : SemanticControlState}
    (sound : PlanSound coordinator staged expected selected) (authority : selected.mode.authority = true)
    (code : SemanticTripCode) (now : Instant) :
    PlanSound coordinator staged expected (selected.tripWith authority selected.revision code now) where
  follows := follows_tripWith sound.follows
  armed armed := absurd armed tripWith_not_armed
  epoch _ := by
    obtain ⟨record, member, points⟩ | ⟨current, member, same⟩ := sound.epoch authority
    · exact Or.inl ⟨record, member, points⟩
    · exact Or.inr ⟨current, member, same⟩

theorem admitPlan_sound {plan : ControlPlan} {target : SemanticControlState}
    (done : admitPlan hashes coordinator repository evidence = .ok plan)
    (writes : plan.target = some target) :
    PlanSound coordinator plan.staged plan.expected target := by
  unfold admitPlan at done
  obtain ⟨staged, stagedDone, done⟩ := bind_eq_ok.mp done
  obtain ⟨view, -, done⟩ := bind_eq_ok.mp done
  obtain ⟨proposed, startup, done⟩ := bind_eq_ok.mp done
  obtain ⟨final, review, done⟩ := bind_eq_ok.mp done
  split at done
  · cases done
  · cases done
    cases writes
    rcases unsafeReviewStartupTarget_ok review with
      rfl | ⟨selected, authority, revision, rfl, ⟨rfl, rfl⟩ | ⟨rfl, expected, rfl⟩⟩
    · exact startup_planSound stagedDone startup
    · exact (startup_planSound stagedDone startup).tripped authority .unsafeReview evidence.now
    · rw [expected]
      exact trip_planSound authority .unsafeReview evidence.now

theorem controlPlan_sound {operation : ControlOperation} {plan : ControlPlan}
    {target : SemanticControlState}
    (done : controlPlan hashes coordinator repository evidence operation = .ok plan)
    (writes : plan.target = some target) :
    PlanSound coordinator plan.staged plan.expected target := by
  cases operation with
  | admission => exact admitPlan_sound done writes
  | disable mode inactive =>
      cases done
      obtain ⟨follows, narrow⟩ := inactiveTarget_follows writes
      constructor
      · exact follows
      · exact fun armed => absurd armed (inactive_not_armed narrow)
      · intro authority
        rw [narrow] at authority
        cases authority
  | trip reason =>
      obtain ⟨final, here, done⟩ := bind_eq_ok.mp done
      cases done
      cases writes
      obtain ⟨current, authority, expected, rfl⟩ := tripTarget_ok here
      rw [expected]
      exact trip_planSound authority reason evidence.now

end Plans

/-! ## Commits -/

/-- The record may change from one to the other in a step. -/
def Change (before after : Option SemanticControlState) : Prop :=
  after = before ∨ ∃ next, after = some next ∧ Follows before next

theorem sameControl_ok {stored expected : SemanticControlState}
    (same : SemanticRepository.sameControl stored expected = true) :
    stored.revision = expected.revision ∧ stored.mode = expected.mode ∧ SameEpoch stored expected := by
  simp only [SemanticRepository.sameControl, Bool.and_eq_true, beq_iff_eq] at same
  obtain ⟨⟨⟨⟨⟨⟨revision, generation⟩, mode⟩, epochId⟩, policy⟩, -⟩, -⟩ := same
  exact ⟨revision, mode, epochId, policy, generation⟩

/-- The stored record is the one that the writer expects. -/
def Expected : Option SemanticControlState → Option SemanticControlState → Prop
  | none, none => True
  | some stored, some expected => SemanticRepository.sameControl stored expected = true
  | _, _ => False

theorem Follows.of_expected {stored expected : Option SemanticControlState}
    {target : SemanticControlState} (same : Expected stored expected)
    (follows : Follows expected target) : Follows stored target := by
  cases stored with
  | none =>
      cases expected with
      | none => exact follows
      | some expected => exact same.elim
  | some stored =>
      cases expected with
      | none => exact same.elim
      | some expected =>
          obtain ⟨revision, -, -, -, generation⟩ := sameControl_ok same
          simp only [Follows] at follows ⊢
          rw [revision, generation]
          exact follows

theorem compareAndSet_ok {repository repository' : SemanticRepository}
    {expected : Option SemanticControlState} {target : SemanticControlState}
    (done : repository.compareAndSetSemanticControlState expected target = .ok (some repository')) :
    Expected repository.control expected ∧ repository' = repository.writeControl target := by
  unfold SemanticRepository.compareAndSetSemanticControlState at done
  cases expected with
  | none =>
      dsimp only at done
      split at done
      · cases done
      · cases control : repository.control with
        | none =>
            rw [control] at done
            cases done
            exact ⟨trivial, rfl⟩
        | some stored =>
            rw [control] at done
            cases done
  | some expected =>
      dsimp only at done
      split at done
      · cases done
      · cases control : repository.control with
        | none =>
            rw [control] at done
            cases done
        | some stored =>
            rw [control] at done
            dsimp only at done
            split at done
            · rename_i same
              cases done
              exact ⟨same, rfl⟩
            · cases done

theorem commit_ok {plan : ControlPlan} {repository repository' : SemanticRepository}
    (done : plan.commit repository = .ok (some repository')) :
    ((∀ record ∈ plan.staged, record ∈ repository'.epochs) ∧
      repository.epochs ⊆ repository'.epochs) ∧
    (plan.target = none ∧ repository'.control = repository.control ∨
      ∃ target, plan.target = some target ∧ repository'.control = some target ∧
        Expected repository.control plan.expected) := by
  obtain ⟨appended, append, done⟩ := bind_eq_ok.mp done
  obtain ⟨control, staged, kept⟩ := appendStaged_ok append
  split at done
  · rename_i unchanged
    cases done
    exact ⟨⟨staged, kept⟩, Or.inl ⟨unchanged, control⟩⟩
  · rename_i target writes
    obtain ⟨expected, rfl⟩ := compareAndSet_ok done
    rw [control] at expected
    exact ⟨⟨staged, kept⟩, Or.inr ⟨target, writes, rfl, expected⟩⟩

/-- The record of an authority mode points at a policy row. -/
def Recorded (repository : SemanticRepository) : Prop :=
  ∀ state, repository.control = some state → state.mode.authority = true →
    ∃ record ∈ repository.epochs, PointsAt state record

theorem commit_recorded {coordinator : SemanticCoordinator} {plan : ControlPlan}
    {repository repository' : SemanticRepository} (recorded : Recorded repository)
    (sound : ∀ target, plan.target = some target →
      PlanSound coordinator plan.staged plan.expected target)
    (done : plan.commit repository = .ok (some repository')) : Recorded repository' := by
  obtain ⟨⟨staged, kept⟩, ⟨-, control⟩ | ⟨target, writes, control, expected⟩⟩ := commit_ok done
  · intro state stored authority
    rw [control] at stored
    obtain ⟨record, member, points⟩ := recorded state stored authority
    exact ⟨record, kept member, points⟩
  · intro state stored authority
    rw [control] at stored
    cases stored
    obtain ⟨record, member, points⟩ | ⟨current, member, same, currentAuthority⟩ :=
      (sound target writes).epoch authority
    · exact ⟨record, staged record member, points⟩
    · rw [Option.mem_def.mp member] at expected
      cases stored : repository.control with
      | none =>
          rw [stored] at expected
          exact expected.elim
      | some before =>
          rw [stored] at expected
          obtain ⟨-, mode, same'⟩ := sameControl_ok expected
          rw [← mode] at currentAuthority
          obtain ⟨record, member, points⟩ := recorded before stored currentAuthority
          refine ⟨record, kept member, SameEpoch.pointsAt ?_ points⟩
          exact ⟨same.1.trans same'.1.symm, same.2.1.trans same'.2.1.symm,
            same.2.2.trans same'.2.2.symm⟩

/-! ## Runs -/

namespace ControlWorld
variable {κ ι : Type} {hashes : SemanticHashes} {world : ControlWorld κ ι}

/-- What holds of a plan of one of the calls. -/
def PlannedBy (world : ControlWorld κ ι) (call : ControlCall κ) (plan : ControlPlan) : Prop :=
  ∃ coordinator, world.coordinators call.coordinator = some coordinator ∧
    ∀ target, plan.target = some target → PlanSound coordinator plan.staged plan.expected target

structure Sound (world : ControlWorld κ ι) : Prop where
  planned : ∀ id call attempts plan, world.calls id = some call →
    call.phase = .writing attempts plan → world.PlannedBy call plan
  recorded : Recorded world.repository

/-- Every coordinator keeps its static epoch. -/
def Keeps (world world' : ControlWorld κ ι) : Prop :=
  ∀ key coordinator, world.coordinators key = some coordinator →
    ∃ coordinator', world'.coordinators key = some coordinator' ∧
      coordinator'.policyEpoch = coordinator.policyEpoch

theorem Keeps.of_eq {world' : ControlWorld κ ι} (same : world'.coordinators = world.coordinators) :
    world.Keeps world' := by
  intro key coordinator known
  exact ⟨coordinator, by rw [same]; exact known, rfl⟩

theorem PlannedBy.keeps {world' : ControlWorld κ ι} {call : ControlCall κ} {plan : ControlPlan}
    (keeps : world.Keeps world') (planned : world.PlannedBy call plan) :
    world'.PlannedBy call plan := by
  obtain ⟨coordinator, known, sound⟩ := planned
  obtain ⟨coordinator', known', same⟩ := keeps _ _ known
  refine ⟨coordinator', known', fun target writes => ?_⟩
  have here := sound target writes
  exact ⟨here.follows, by rw [same]; exact here.armed, here.epoch⟩

/-- Calls that are dropped or return to reading keep the other plans sound. -/
theorem Sound.of_calls {world' : ControlWorld κ ι} (sound : world.Sound) (keeps : world.Keeps world')
    (recorded : Recorded world'.repository)
    (calls : ∀ id call attempts plan, world'.calls id = some call →
      call.phase = .writing attempts plan →
        world.calls id = some call ∨ world.PlannedBy call plan) : world'.Sound := by
  refine ⟨fun id call attempts plan known phase => ?_, recorded⟩
  rcases calls id call attempts plan known phase with before | now
  · exact (sound.planned id call attempts plan before phase).keeps keeps
  · exact now.keeps keeps

theorem initial_sound : (initial : ControlWorld κ ι).Sound := by
  constructor
  · intro id call attempts plan known
    cases known
  · intro state stored
    cases stored

/-- A write of a sound plan changes the record as a plan may. -/
theorem planned_change {call : ControlCall κ} {plan : ControlPlan} {repository : SemanticRepository}
    (planned : world.PlannedBy call plan)
    (done : plan.commit world.repository = .ok (some repository)) :
    repository.control = world.repository.control ∨
      ∃ next coordinator, repository.control = some next ∧
        world.coordinators call.coordinator = some coordinator ∧
        Follows world.repository.control next ∧
        (next.Armed → ∃ epoch ∈ coordinator.policyEpoch, next.generation = epoch.generation) := by
  obtain ⟨-, ⟨-, same⟩ | ⟨target, writes, control, expected⟩⟩ := commit_ok done
  · exact Or.inl same
  · obtain ⟨coordinator, known, plans⟩ := planned
    have sound := plans target writes
    exact Or.inr ⟨target, coordinator, control, known, sound.follows.of_expected expected, sound.armed⟩

section Calls
variable [DecidableEq ι]

theorem update_calls {calls : ι → Option (ControlCall κ)} {id other : ι}
    {entry : Option (ControlCall κ)} {call : ControlCall κ}
    (known : Function.update calls id entry other = some call) :
    calls other = some call ∨ entry = some call := by
  by_cases here : other = id
  · subst here
    rw [Function.update_self] at known
    exact Or.inr known
  · rw [Function.update_of_ne here] at known
    exact Or.inl known

@[simp] theorem finish_repository (id : ι) : (world.finish id).repository = world.repository := rfl

@[simp] theorem setPhase_repository (id : ι) (call : ControlCall κ) (phase : CallPhase) :
    (world.setPhase id call phase).repository = world.repository := rfl

theorem finish_sound (sound : world.Sound) (id : ι) : (world.finish id).Sound := by
  refine sound.of_calls (Keeps.of_eq rfl) sound.recorded ?_
  intro other call attempts plan known phase
  rcases update_calls known with before | now
  · exact Or.inl before
  · cases now

theorem setPhase_sound (sound : world.Sound) {id : ι} {call : ControlCall κ} {phase : CallPhase}
    (planned : ∀ attempts plan, phase = .writing attempts plan → world.PlannedBy call plan) :
    (world.setPhase id call phase).Sound := by
  refine sound.of_calls (Keeps.of_eq rfl) sound.recorded ?_
  intro other call' attempts plan known here
  rcases update_calls known with before | now
  · exact Or.inl before
  · cases now
    exact Or.inr (planned attempts plan here)

end Calls

section Modes
variable [DecidableEq κ]

@[simp] theorem applyMode_repository (call : ControlCall κ) :
    (world.applyMode call).repository = world.repository := by
  unfold applyMode
  split <;> rfl

@[simp] theorem applyMode_calls (call : ControlCall κ) :
    (world.applyMode call).calls = world.calls := by
  unfold applyMode
  split <;> rfl

variable (world) in
theorem applyMode_keeps (call : ControlCall κ) : world.Keeps (world.applyMode call) := by
  unfold applyMode
  split
  · rename_i mode inactive operation
    intro key coordinator known
    by_cases here : key = call.coordinator
    · subst here
      exact ⟨coordinator.withMode mode inactive, by simp [known], rfl⟩
    · exact ⟨coordinator, by simp [Function.update_of_ne here, known], rfl⟩
  · exact Keeps.of_eq rfl

end Modes

section Steps
variable [DecidableEq ι]

theorem readStep_sound (sound : world.Sound) (id : ι) (call : ControlCall κ) (attempts : Nat)
    (evidence : HostEvidence) : (world.readStep hashes id call attempts evidence).Sound := by
  unfold readStep
  split
  · exact sound
  · rename_i coordinator known
    split
    · rename_i plan done
      apply setPhase_sound sound
      intro attempts' plan' here
      cases here
      exact ⟨coordinator, known, fun target writes => controlPlan_sound done writes⟩
    · exact finish_sound sound id

@[simp] theorem readStep_repository (id : ι) (call : ControlCall κ) (attempts : Nat)
    (evidence : HostEvidence) :
    (world.readStep hashes id call attempts evidence).repository = world.repository := by
  unfold readStep
  split
  · rfl
  · split <;> rfl

end Steps

variable [DecidableEq κ] [DecidableEq ι]

/-- A write leaves the tables alone or commits its plan. -/
theorem writeStep_cases (world : ControlWorld κ ι) (id : ι) (call : ControlCall κ) (attempts : Nat) (plan : ControlPlan) :
    (world.writeStep id call attempts plan).repository = world.repository ∨
      plan.commit world.repository =
        .ok (some (world.writeStep id call attempts plan).repository) := by
  unfold writeStep
  split
  · exact Or.inl rfl
  · rename_i repository done
    exact Or.inr (by simpa using done)
  · split <;> exact Or.inl rfl

theorem writeStep_sound (sound : world.Sound) {id : ι} {call : ControlCall κ} {attempts : Nat}
    {plan : ControlPlan} (planned : world.PlannedBy call plan) :
    (world.writeStep id call attempts plan).Sound := by
  obtain ⟨coordinator, known, plans⟩ := planned
  unfold writeStep
  split
  · exact finish_sound sound id
  · rename_i repository done
    apply finish_sound
    let written : ControlWorld κ ι := { world with repository := repository }
    have keeps : world.Keeps (written.applyMode call) := written.applyMode_keeps call
    apply sound.of_calls keeps
    · rw [applyMode_repository]
      exact commit_recorded sound.recorded plans done
    · intro other call' attempts' plan' here _
      rw [applyMode_calls] at here
      exact Or.inl here
  · split
    · exact finish_sound sound id
    · apply setPhase_sound sound
      intro attempts' plan' here
      cases here

variable (hashes) in
/-- What a step does to the tables: nothing, or the commit of a sound plan of a live coordinator. -/
theorem step_repository (sound : world.Sound) (event : ControlEvent κ ι) :
    (world.step hashes event).repository = world.repository ∨
      ∃ id call attempts plan, event = .write id ∧ world.calls id = some call ∧
        call.phase = .writing attempts plan ∧ world.PlannedBy call plan ∧
          plan.commit world.repository = .ok (some (world.step hashes event).repository) := by
  cases event with
  | construct key coordinator =>
      simp only [step]
      split <;> exact Or.inl rfl
  | call id key operation =>
      simp only [step]
      split <;> exact Or.inl rfl
  | read id evidence =>
      simp only [step]
      split
      · split
        · exact Or.inl (readStep_repository _ _ _ _)
        · exact Or.inl rfl
      · exact Or.inl rfl
  | write id =>
      simp only [step]
      split
      · rename_i call known
        split
        · rename_i attempts plan phase
          rcases writeStep_cases world id call attempts plan with same | done
          · exact Or.inl same
          · exact Or.inr ⟨id, call, attempts, plan, rfl, known, phase,
              sound.planned id call attempts plan known phase, done⟩
        · exact Or.inl rfl
      · exact Or.inl rfl

theorem step_sound (sound : world.Sound) (event : ControlEvent κ ι) :
    (world.step hashes event).Sound := by
  cases event with
  | construct key coordinator =>
      simp only [step]
      split
      · rename_i fresh
        refine sound.of_calls ?_ sound.recorded (fun _ _ _ _ known _ => Or.inl known)
        intro other coordinator' known
        refine ⟨coordinator', ?_, rfl⟩
        have different : other ≠ key := by
          rintro rfl
          rw [fresh] at known
          cases known
        simp [Function.update_of_ne different, known]
      · exact sound
  | call id key operation =>
      simp only [step]
      split
      · refine sound.of_calls (Keeps.of_eq rfl) sound.recorded ?_
        intro other call attempts plan known phase
        rcases update_calls known with before | now
        · exact Or.inl before
        · cases now
          cases phase
      · exact sound
  | read id evidence =>
      simp only [step]
      split
      · split
        · exact readStep_sound sound _ _ _ _
        · exact sound
      · exact sound
  | write id =>
      simp only [step]
      split
      · rename_i call known
        split
        · rename_i attempts plan phase
          exact writeStep_sound sound (sound.planned id call attempts plan known phase)
        · exact sound
      · exact sound

/-- The world after a run. -/
def reached (hashes : SemanticHashes) (events : List (ControlEvent κ ι)) : ControlWorld κ ι :=
  run (step hashes) initial events

theorem reached_sound (events : List (ControlEvent κ ι)) : (reached hashes events).Sound :=
  @stable_run _ _ (step hashes) Sound (fun _ event sound => step_sound sound event) _ events
    initial_sound

theorem reached_append (before after : List (ControlEvent κ ι)) :
    reached hashes (before ++ after) = run (step hashes) (reached hashes before) after :=
  run_append (step hashes) initial before after

theorem step_change (sound : world.Sound) (event : ControlEvent κ ι) :
    Change world.repository.control (world.step hashes event).repository.control := by
  rcases step_repository hashes sound event with
    same | ⟨id, call, attempts, plan, -, -, -, planned, done⟩
  · rw [same]
    exact Or.inl rfl
  · rcases planned_change planned done with same | ⟨next, _, control, -, follows, -⟩
    · exact Or.inl same
    · exact Or.inr ⟨next, control, follows⟩

/-- What holds of the record at any time after it was in the state. -/
def Since (state : SemanticControlState) (later : Option SemanticControlState) : Prop :=
  ∃ next, later = some next ∧ state.generation ≤ next.generation ∧
    (¬ state.Armed → next.Armed → state.generation < next.generation)

theorem Since.change {state : SemanticControlState} {before after : Option SemanticControlState}
    (since : Since state before) (change : Change before after) : Since state after := by
  obtain ⟨current, rfl, grown, fenced⟩ := since
  obtain rfl | ⟨next, rfl, follows⟩ := change
  · exact ⟨current, rfl, grown, fenced⟩
  · obtain ⟨-, more, activated⟩ := follows
    refine ⟨next, rfl, le_trans grown more, fun _ armed => ?_⟩
    rw [activated armed]
    exact Nat.lt_succ_of_le grown

theorem since_run (sound : world.Sound) {state : SemanticControlState}
    (since : Since state world.repository.control) (events : List (ControlEvent κ ι)) :
    Since state (run (step hashes) world events).repository.control := by
  induction events generalizing world with
  | nil => exact since
  | cons event events ih =>
      exact ih (step_sound sound event) (since.change (step_change sound event))

/-- No run undoes a trip or a kill switch. The record changes one revision at a time and its
generation never decreases; an activation is always of the next generation; after a trip or a
clearing at some generation every state with live authority has a larger one, and a coordinator
whose static epoch is not newer cannot bring authority back. -/
theorem trip_never_undone (hashes : SemanticHashes) (before after : List (ControlEvent κ ι)) :
    (∀ event : ControlEvent κ ι, Change (reached hashes before).repository.control
      ((reached hashes before).step hashes event).repository.control) ∧
    ∀ state, (reached hashes before).repository.control = some state →
      (state.mode.authority = true →
        ∃ record ∈ (reached hashes before).repository.epochs, PointsAt state record) ∧
      (∃ later, (reached hashes (before ++ after)).repository.control = some later ∧
        state.generation ≤ later.generation ∧
        (state.tripped = true ∨ state.mode.authority = false → later.mode.authority = true →
          later.tripped = false → state.generation < later.generation)) ∧
      ∀ id call coordinator, (reached hashes (before ++ after)).calls id = some call →
        (reached hashes (before ++ after)).coordinators call.coordinator = some coordinator →
        (∀ epoch ∈ coordinator.policyEpoch, epoch.generation ≤ state.generation) →
        let next := ((reached hashes (before ++ after)).step hashes (.write id)).repository.control
        next = (reached hashes (before ++ after)).repository.control ∨
          ∃ target, next = some target ∧ ¬ target.Armed := by
  have sound : (reached hashes before).Sound := reached_sound before
  refine ⟨fun event => step_change sound event, fun state stored => ?_⟩
  have since : Since state (reached hashes (before ++ after)).repository.control := by
    rw [reached_append]
    exact since_run sound ⟨state, stored, le_rfl, fun stopped armed => absurd armed stopped⟩ after
  obtain ⟨later, current, grown, fenced⟩ := since
  refine ⟨sound.recorded state stored, ⟨later, current, grown, ?_⟩, ?_⟩
  · intro stopped authority untripped
    apply fenced _ ⟨authority, untripped⟩
    rintro ⟨live, running⟩
    rcases stopped with tripped | cleared
    · rw [running] at tripped
      cases tripped
    · rw [live] at cleared
      cases cleared
  · intro id call coordinator calling known older next
    rcases step_repository hashes (reached_sound (before ++ after)) (.write id) with
      same | ⟨id', call', attempts, plan, here, calling', -, planned, done⟩
    · exact Or.inl (congrArg SemanticRepository.control same)
    · cases here
      rw [calling] at calling'
      cases calling'
      rcases planned_change planned done with same | ⟨target, by', control, known', follows, own⟩
      · exact Or.inl same
      · refine Or.inr ⟨target, control, fun armed => ?_⟩
        rw [known] at known'
        cases known'
        obtain ⟨epoch, member, generation⟩ := own armed
        rw [current] at follows
        have activated := follows.2.2 armed
        have bound := older epoch member
        omega

end ControlWorld

end AgentLibOS.Semantic
