import AgentLibOS.Semantic.Rollout
import Mathlib.Data.Prod.Lex
import Mathlib.Logic.Function.Basic

namespace AgentLibOS.Semantic
open Library.Text Library.Run Processes

/-! ## The durable control record -/

inductive SemanticRuntimeMode
  | off | shadow | enforceDeny | canaryAuto
  deriving DecidableEq, Repr

/-- `_AUTHORITY_MODES`; the other modes are `_INACTIVE_MODES`. -/
def SemanticRuntimeMode.authority : SemanticRuntimeMode → Bool
  | .off | .shadow => false
  | .enforceDeny | .canaryAuto => true

inductive SemanticTripCode
  | unsafeReview | criticalHighGrant | crossTenant | secretEgress | replayDetected | bindingMismatch
  | unauthorizedEffect | providerOutcomeUnknown
  deriving DecidableEq, Repr

/-- Microseconds since the epoch, in UTC. -/
abbrev Instant := Int

structure SemanticControlState where
  revision : Nat
  generation : Nat
  mode : SemanticRuntimeMode
  activeEpochId : Option String
  activePolicySha256 : Option Digest
  tripped : Bool
  tripCode : Option SemanticTripCode
  updatedAt : Instant
  epoch_complete : activeEpochId.isSome = activePolicySha256.isSome
  trip_code : tripped = tripCode.isSome
  authority_epoch : mode.authority = true → activeEpochId.isSome = true
  inactive_clear : mode.authority = false → activeEpochId = none ∧ tripped = false

/-- A row of `semantic_policy_epochs`. -/
structure SemanticPolicyEpochRecord where
  epochId : String
  generation : Nat
  catalogVersion : Nat
  policySha256 : Digest
  expectedPreviousSha256 : Option Digest
  rolloutScope : StoredScope
  createdAt : String
  deriving DecidableEq

/-- The tables of semantic control. Of the transition log only the recorded states matter here,
newest first. -/
structure SemanticRepository where
  epochs : List SemanticPolicyEpochRecord
  control : Option SemanticControlState
  transitions : List SemanticControlState

/-! ## The repository -/

/-- SHA-256 of a text and of the canonical JSON of an epoch. -/
structure SemanticHashes where
  text : String → Digest
  policy : SemanticPolicyEpoch → Digest

/-- The texts and sets that the storage bounds. -/
def storableRules (rules : List RolloutRule) : Bool :=
  decide (rules.length ≤ 1024) && rules.all fun rule =>
    boundedText rule.actionId 128 && decide (rule.coveringPrefixSha256s.length ≤ 256)

def storableScope (scope : RolloutScope) : Option SemanticControlConflict :=
  if 1024 < scope.tenantBucketSha256s.length then some ⟨"semantic rollout tenant scope is invalid"⟩
  else if !storableRules scope.autoApprovalRules then
    some ⟨"semantic rollout auto-approval rule scope is invalid"⟩
  else if !storableRules scope.hardDenyRules then
    some ⟨"semantic rollout hard-deny rule scope is invalid"⟩
  else if ¬ ((scope.autoApprovalRules ++ scope.hardDenyRules).map (·.ruleIdSha256)).Nodup then
    some ⟨"semantic rollout rule ids must be unique"⟩
  else none

def policyEpochStorageRecord (hashes : SemanticHashes) (epoch : SemanticPolicyEpoch) :
    Except SemanticControlConflict SemanticPolicyEpochRecord :=
  match storableScope (policyRolloutScope hashes.text epoch) with
  | some conflict => .error conflict
  | none => .ok
      { epochId := epoch.epochId
        generation := epoch.generation
        catalogVersion := epoch.catalogVersion
        policySha256 := hashes.policy epoch
        expectedPreviousSha256 := epoch.expectedPreviousSha256
        rolloutScope := .current (policyRolloutScope hashes.text epoch)
        createdAt := epoch.createdAt }

namespace SemanticRepository

def initial : SemanticRepository := ⟨[], none, []⟩

/-- A row with the same id, generation or digest has to be the same row. -/
def appendSemanticPolicyEpoch (repository : SemanticRepository) (record : SemanticPolicyEpochRecord) :
    Except SemanticControlConflict SemanticRepository :=
  match repository.epochs.filter fun existing => existing.epochId == record.epochId ||
      existing.generation == record.generation || existing.policySha256 == record.policySha256 with
  | [] => .ok { repository with epochs := record :: repository.epochs }
  | [existing] =>
      if existing = record then .ok repository
      else .error ⟨"semantic policy epoch conflicts with immutable evidence"⟩
  | _ => .error ⟨"semantic policy epoch identity is inconsistent"⟩

def getSemanticPolicyEpoch (repository : SemanticRepository) (epochId : String) :
    Option SemanticPolicyEpochRecord := repository.epochs.find? (·.epochId == epochId)

/-- The order in which `query_semantic_policy_epochs` pages through the rows. -/
def policyHistory (repository : SemanticRepository) : List SemanticPolicyEpochRecord :=
  repository.epochs.insertionSort fun a b =>
    toLex (a.createdAt, a.epochId) ≤ toLex (b.createdAt, b.epochId)

/-- The columns that the conditional update compares. -/
def sameControl (stored expected : SemanticControlState) : Bool :=
  stored.revision == expected.revision && stored.generation == expected.generation &&
    stored.mode == expected.mode && stored.activeEpochId == expected.activeEpochId &&
    stored.activePolicySha256 == expected.activePolicySha256 &&
    stored.tripped == expected.tripped && stored.tripCode == expected.tripCode

def writeControl (repository : SemanticRepository) (target : SemanticControlState) :
    SemanticRepository :=
  { repository with control := some target, transitions := target :: repository.transitions }

/-- The outcome `none` is the source's `False`: another writer came first. -/
def compareAndSetSemanticControlState (repository : SemanticRepository)
    (expected : Option SemanticControlState) (target : SemanticControlState) :
    Except SemanticControlConflict (Option SemanticRepository) :=
  match expected with
  | none =>
      if target.revision ≠ 0 then .error ⟨"initial semantic control revision must be zero"⟩
      else .ok (match repository.control with
        | none => some (repository.writeControl target)
        | some _ => none)
  | some expected =>
      if target.revision ≠ expected.revision + 1 ∨ target.generation < expected.generation then
        .error ⟨"semantic control CAS revision/generation is invalid"⟩
      else .ok (match repository.control with
        | none => none
        | some stored =>
            if sameControl stored expected then some (repository.writeControl target) else none)

end SemanticRepository

/-! ## Evidence of the host -/

structure RolloutReviewEvidence where
  activatedAt : Option Instant
  issuedCount : Nat
  requiredCount : Nat
  completelySafeCount : Nat
  unsafeCount : Nat

/-- What the clock and the review and health tables say during one attempt. An unsafe-review count
that cannot be read is absent. -/
structure HostEvidence where
  now : Instant
  unsafeReviewCount : Option String → Option Nat
  unsettledUnsafeReview : String → Bool
  rolloutReviewEvidence : String → String → RolloutReviewEvidence

def rolloutRequiredSafeReviews : Nat := 1000

/-- Seven days. -/
def rolloutMinimumAge : Int := 604800000000

def policyScanMaxRecords : Nat := 10000

def HostEvidence.readUnsafeReviewCount (evidence : HostEvidence) (epochId : Option String) :
    Except SemanticControlConflict Nat :=
  match evidence.unsafeReviewCount epochId with
  | some count => .ok count
  | none => .error ⟨"semantic unsafe-review evidence cannot be read"⟩

def HostEvidence.hasUnsafeReviewStartupEvidence (evidence : HostEvidence) (epochId : String) :
    Except SemanticControlConflict Bool := do
  let count ← evidence.readUnsafeReviewCount (some epochId)
  .ok (decide (0 < count) || evidence.unsettledUnsafeReview epochId)

def validateRolloutReviewEvidence (value : RolloutReviewEvidence) (actionId : String) (now : Instant) :
    Except SemanticControlConflict Unit :=
  match value.activatedAt with
  | none => .error ⟨"semantic rollout action " ++ actionId ++ " has no durable activation history"⟩
  | some activated =>
      if now < activated ∨ now - activated < rolloutMinimumAge then
        .error ⟨"semantic rollout action " ++ actionId ++ " has not completed seven days"⟩
      else if value.issuedCount < rolloutRequiredSafeReviews then
        .error ⟨"semantic rollout action " ++ actionId ++ " has fewer than 1000 issuances"⟩
      else if value.requiredCount ≠ rolloutRequiredSafeReviews ∨
          value.completelySafeCount ≠ rolloutRequiredSafeReviews then
        .error ⟨"semantic rollout action " ++ actionId ++ " lacks 1000 complete safe reviews"⟩
      else if value.unsafeCount ≠ 0 then
        .error ⟨"semantic rollout action " ++ actionId ++ " has unsafe review evidence"⟩
      else .ok ()

/-! ## Targets -/

section Targets
variable (repository : SemanticRepository) (evidence : HostEvidence)

def verifyCurrentEpochRecord (current : SemanticControlState) :
    Except SemanticControlConflict Unit :=
  match current.activeEpochId, current.activePolicySha256 with
  | some epochId, some policySha256 =>
      match repository.getSemanticPolicyEpoch epochId with
      | some record =>
          if record.generation ≠ current.generation ∨ record.policySha256 ≠ policySha256 then
            .error ⟨"semantic active policy evidence is absent or inconsistent"⟩
          else .ok ()
      | none => .error ⟨"semantic active policy evidence is absent or inconsistent"⟩
  | _, _ => .error ⟨"semantic active epoch identity is incomplete"⟩

def previousPolicyRecord (current : SemanticControlState) :
    Except SemanticControlConflict (Option SemanticPolicyEpochRecord) :=
  if current.generation = 0 then .ok none
  else match current.activePolicySha256 with
    | some _ => do
        verifyCurrentEpochRecord repository current
        .ok (current.activeEpochId.bind repository.getSemanticPolicyEpoch)
    | none =>
        -- Pages of 500 rows, until the bound of the scan.
        match (repository.policyHistory.take policyScanMaxRecords).find?
            (·.generation == current.generation) with
        | some record => .ok (some record)
        | none => .error
            ⟨"semantic previous policy is absent or outside the bounded history scan"⟩

def validateRolloutExpansion (epoch : SemanticPolicyEpoch)
    (previousRecord : SemanticPolicyEpochRecord) : Except SemanticControlConflict Unit :=
  match repository.getSemanticPolicyEpoch epoch.epochId with
  | none => .error ⟨"semantic rollout scope evidence is absent"⟩
  | some candidateRecord => do
      let affected ← expandedRolloutActions previousRecord.rolloutScope candidateRecord.rolloutScope
      if affected = [] then .ok ()
      else do
        let count ← evidence.readUnsafeReviewCount none
        if 0 < count then .error ⟨"semantic rollout has unsafe review evidence"⟩
        else do
          let _ ← affected.mapM fun actionId => validateRolloutReviewEvidence
            (evidence.rolloutReviewEvidence previousRecord.epochId actionId) actionId evidence.now
          .ok ()

/-- The state in which the epoch is active and untripped. -/
def activeState (mode : SemanticRuntimeMode) (authority : mode.authority = true)
    (epoch : SemanticPolicyEpoch) (policySha256 : Digest) (revision : Nat) (now : Instant) :
    SemanticControlState where
  revision := revision
  generation := epoch.generation
  mode := mode
  activeEpochId := some epoch.epochId
  activePolicySha256 := some policySha256
  tripped := false
  tripCode := none
  updatedAt := now
  epoch_complete := rfl
  trip_code := rfl
  authority_epoch _ := rfl
  inactive_clear inactive := by simp [authority] at inactive

theorem no_epoch_complete : (none : Option String).isSome = (none : Option Digest).isSome := rfl

def inactiveState (mode : SemanticRuntimeMode) (inactive : mode.authority = false)
    (revision generation : Nat) (now : Instant) : SemanticControlState where
  revision := revision
  generation := generation
  mode := mode
  activeEpochId := none
  activePolicySha256 := none
  tripped := false
  tripCode := none
  updatedAt := now
  epoch_complete := no_epoch_complete
  trip_code := rfl
  authority_epoch authority := absurd (inactive.symm.trans authority) Bool.false_ne_true
  inactive_clear _ := ⟨rfl, rfl⟩

/-- The state with its epoch tripped. -/
def SemanticControlState.tripWith (state : SemanticControlState) (authority : state.mode.authority = true)
    (revision : Nat) (code : SemanticTripCode) (now : Instant) : SemanticControlState :=
  { state with
    revision := revision
    tripped := true
    tripCode := some code
    updatedAt := now
    trip_code := rfl
    inactive_clear := fun inactive => by simp [authority] at inactive }

def firstActiveTarget (mode : SemanticRuntimeMode) (authority : mode.authority = true)
    (epoch : SemanticPolicyEpoch) (policySha256 : Digest) (revision : Nat) :
    Except SemanticControlConflict SemanticControlState :=
  if epoch.generation ≠ 1 ∨ epoch.expectedPreviousSha256 ≠ none then
    .error ⟨"the first active semantic epoch must be generation 1 with no predecessor"⟩
  else .ok (activeState mode authority epoch policySha256 revision evidence.now)

def rotationTarget (mode : SemanticRuntimeMode) (authority : mode.authority = true)
    (current : SemanticControlState) (epoch : SemanticPolicyEpoch) (policySha256 : Digest) :
    Except SemanticControlConflict SemanticControlState :=
  if epoch.generation ≠ current.generation + 1 then
    .error ⟨"semantic policy rotation must advance generation exactly once"⟩
  else do
    match ← previousPolicyRecord repository current with
    | some previousRecord =>
        if epoch.expectedPreviousSha256 ≠ some previousRecord.policySha256 then
          .error ⟨"semantic policy expected_previous_sha256 does not match durable history"⟩
        else do
          validateRolloutExpansion repository evidence epoch previousRecord
          .ok (activeState mode authority epoch policySha256 (current.revision + 1) evidence.now)
    | none =>
        .error ⟨"semantic policy expected_previous_sha256 does not match durable history"⟩

/-- A target of `none` leaves the record as it is. -/
def inactiveTarget (mode : SemanticRuntimeMode) (inactive : mode.authority = false) :
    Option SemanticControlState → Option SemanticControlState
  | none => some (inactiveState mode inactive 0 0 evidence.now)
  | some current =>
      if current.mode = mode ∧ current.activeEpochId = none ∧ current.activePolicySha256 = none ∧
          current.tripped = false then none
      else some (inactiveState mode inactive (current.revision + 1) current.generation evidence.now)

/-- `_startup_target` in an authority mode. -/
def activeTarget (mode : SemanticRuntimeMode) (authority : mode.authority = true)
    (epoch : SemanticPolicyEpoch) (policySha256 : Digest) :
    Option SemanticControlState → Except SemanticControlConflict (Option SemanticControlState)
  | none => (firstActiveTarget evidence mode authority epoch policySha256 0).map some
  | some current =>
      if current.mode = mode ∧ current.activeEpochId = some epoch.epochId ∧
          current.activePolicySha256 = some policySha256 ∧ current.generation = epoch.generation then do
        verifyCurrentEpochRecord repository current
        .ok none
      else if current.activeEpochId = some epoch.epochId ∨
          current.activePolicySha256 = some policySha256 ∨ current.generation = epoch.generation then
        .error ⟨"semantic active mode or epoch identity conflicts with durable state"⟩
      else if current.generation = 0 ∧ current.activeEpochId = none ∧
          current.activePolicySha256 = none then
        (firstActiveTarget evidence mode authority epoch policySha256 (current.revision + 1)).map some
      else (rotationTarget repository evidence mode authority current epoch policySha256).map some

/-- `_startup_target`. -/
def startupTarget (hashes : SemanticHashes) (mode : SemanticRuntimeMode)
    (policyEpoch : Option SemanticPolicyEpoch) (expected : Option SemanticControlState) :
    Except SemanticControlConflict (Option SemanticControlState) :=
  if authority : mode.authority = true then
    match policyEpoch with
    | none => .error ⟨"active semantic mode has no static policy epoch"⟩
    | some epoch => activeTarget repository evidence mode authority epoch (hashes.policy epoch) expected
  else .ok (inactiveTarget evidence mode (Bool.eq_false_iff.mpr authority) expected)

/-- `_unsafe_review_startup_target`. -/
def unsafeReviewStartupTarget (expected target : Option SemanticControlState) :
    Except SemanticControlConflict (Option SemanticControlState) :=
  match target.orElse fun _ => expected with
  | none => .ok target
  | some selected =>
      if authority : selected.mode.authority = true then
        match selected.activeEpochId with
        | none => .ok target
        | some epochId =>
            if selected.tripped then .ok target
            else do
              if ← evidence.hasUnsafeReviewStartupEvidence epochId then
                let revision := if target.isSome then selected.revision else selected.revision + 1
                .ok (some (selected.tripWith authority revision .unsafeReview evidence.now))
              else .ok target
      else .ok target

/-- The target of `trip`. -/
def tripTarget (reason : SemanticTripCode) :
    Option SemanticControlState → Except SemanticControlConflict (Option SemanticControlState)
  | none => .error ⟨"semantic control has not been admitted at startup"⟩
  | some current =>
      if authority : current.mode.authority = true then
        if current.activeEpochId = none then
          .error ⟨"semantic safety trip requires an active policy epoch"⟩
        else if current.tripped then .ok none
        else .ok (some (current.tripWith authority (current.revision + 1) reason evidence.now))
      else .error ⟨"semantic safety trip requires an active policy epoch"⟩

end Targets

/-! ## Coordinators and their calls -/

/-- A live `SemanticRuntimeControl`. -/
structure SemanticCoordinator where
  mode : SemanticRuntimeMode
  policyEpoch : Option SemanticPolicyEpoch
  maxCasAttempts : Nat
  epoch_required : mode.authority = true → policyEpoch.isSome = true
  attempts_bounded : 1 ≤ maxCasAttempts ∧ maxCasAttempts ≤ 32

/-- `_mode` after a successful `disable`. -/
def SemanticCoordinator.withMode (coordinator : SemanticCoordinator) (mode : SemanticRuntimeMode)
    (inactive : mode.authority = false) : SemanticCoordinator :=
  { coordinator with
    mode := mode
    epoch_required := fun authority => by simp [inactive] at authority }

inductive ControlOperation
  | admission
  | disable (mode : SemanticRuntimeMode) (inactive : mode.authority = false)
  | trip (reason : SemanticTripCode)

/-- What an attempt will write: the policy row it stages, and a target over the record it read. -/
structure ControlPlan where
  staged : Option SemanticPolicyEpochRecord
  expected : Option SemanticControlState
  target : Option SemanticControlState

inductive CallPhase
  | reading (attempts : Nat)
  | writing (attempts : Nat) (plan : ControlPlan)

structure ControlCall (κ : Type) where
  coordinator : κ
  operation : ControlOperation
  phase : CallPhase

/-- Inactive configuration stages no policy row. -/
def stagedEpoch (hashes : SemanticHashes) (coordinator : SemanticCoordinator) :
    Except SemanticControlConflict (Option SemanticPolicyEpochRecord) :=
  match coordinator.policyEpoch with
  | some epoch =>
      if coordinator.mode.authority then (policyEpochStorageRecord hashes epoch).map some else .ok none
  | none => .ok none

def SemanticRepository.appendStaged (repository : SemanticRepository)
    (staged : Option SemanticPolicyEpochRecord) : Except SemanticControlConflict SemanticRepository :=
  match staged with
  | some record => repository.appendSemanticPolicyEpoch record
  | none => .ok repository

/-- The reads of one attempt of `admit`. -/
def admitPlan (hashes : SemanticHashes) (coordinator : SemanticCoordinator)
    (repository : SemanticRepository) (evidence : HostEvidence) :
    Except SemanticControlConflict ControlPlan := do
  let staged ← stagedEpoch hashes coordinator
  let view ← repository.appendStaged staged
  let target ← startupTarget view evidence hashes coordinator.mode coordinator.policyEpoch view.control
  let target ← unsafeReviewStartupTarget evidence view.control target
  if target.isNone && view.control.isNone then
    .error ⟨"semantic control disappeared during startup"⟩
  else .ok ⟨staged, view.control, target⟩

/-- The reads of one attempt. -/
def controlPlan (hashes : SemanticHashes) (coordinator : SemanticCoordinator)
    (repository : SemanticRepository) (evidence : HostEvidence) :
    ControlOperation → Except SemanticControlConflict ControlPlan
  | .admission => admitPlan hashes coordinator repository evidence
  | .disable mode inactive =>
      .ok ⟨none, repository.control, inactiveTarget evidence mode inactive repository.control⟩
  | .trip reason => do
      let target ← tripTarget evidence reason repository.control
      .ok ⟨none, repository.control, target⟩

/-- The write of one attempt, with the staged row in the same transaction. -/
def ControlPlan.commit (plan : ControlPlan) (repository : SemanticRepository) :
    Except SemanticControlConflict (Option SemanticRepository) := do
  let repository ← repository.appendStaged plan.staged
  match plan.target with
  | none => .ok (some repository)
  | some target => repository.compareAndSetSemanticControlState plan.expected target

structure ControlWorld (κ ι : Type) where
  repository : SemanticRepository
  coordinators : κ → Option SemanticCoordinator
  calls : ι → Option (ControlCall κ)

inductive ControlEvent (κ ι : Type)
  | construct (key : κ) (coordinator : SemanticCoordinator)
  | call (id : ι) (key : κ) (operation : ControlOperation)
  | read (id : ι) (evidence : HostEvidence)
  | write (id : ι)

namespace ControlWorld
variable {κ ι : Type} [DecidableEq κ] [DecidableEq ι]

def initial : ControlWorld κ ι := ⟨.initial, fun _ => none, fun _ => none⟩

/-- The call has returned or raised. -/
def finish (world : ControlWorld κ ι) (id : ι) : ControlWorld κ ι :=
  { world with calls := Function.update world.calls id none }

def setPhase (world : ControlWorld κ ι) (id : ι) (call : ControlCall κ) (phase : CallPhase) :
    ControlWorld κ ι :=
  { world with calls := Function.update world.calls id (some { call with phase := phase }) }

/-- After a success, `disable` changes the mode of its own coordinator. -/
def applyMode (world : ControlWorld κ ι) (call : ControlCall κ) : ControlWorld κ ι :=
  match call.operation with
  | .disable mode inactive =>
      { world with
        coordinators := Function.update world.coordinators call.coordinator
          ((world.coordinators call.coordinator).map (·.withMode mode inactive)) }
  | _ => world

def readStep (hashes : SemanticHashes) (world : ControlWorld κ ι) (id : ι) (call : ControlCall κ)
    (attempts : Nat) (evidence : HostEvidence) : ControlWorld κ ι :=
  match world.coordinators call.coordinator with
  | none => world
  | some coordinator =>
      match controlPlan hashes coordinator world.repository evidence call.operation with
      | .ok plan => world.setPhase id call (.writing attempts plan)
      | .error _ => world.finish id

def writeStep (world : ControlWorld κ ι) (id : ι) (call : ControlCall κ) (attempts : Nat)
    (plan : ControlPlan) : ControlWorld κ ι :=
  match plan.commit world.repository with
  | .error _ => world.finish id
  | .ok (some repository) => ({ world with repository := repository }.applyMode call).finish id
  | .ok none =>
      if attempts ≤ 1 then world.finish id else world.setPhase id call (.reading (attempts - 1))

/-- One event of a run. A restart constructs a coordinator under a new key, and the calls of a
process that has died take no more steps. -/
def step (hashes : SemanticHashes) (world : ControlWorld κ ι) : ControlEvent κ ι → ControlWorld κ ι
  | .construct key coordinator =>
      match world.coordinators key with
      | none =>
          { world with coordinators := Function.update world.coordinators key (some coordinator) }
      | some _ => world
  | .call id key operation =>
      match world.calls id, world.coordinators key with
      | none, some coordinator =>
          { world with
            calls := Function.update world.calls id
              (some ⟨key, operation, .reading coordinator.maxCasAttempts⟩) }
      | _, _ => world
  | .read id evidence =>
      match world.calls id with
      | some call =>
          match call.phase with
          | .reading attempts => world.readStep hashes id call attempts evidence
          | .writing .. => world
      | none => world
  | .write id =>
      match world.calls id with
      | some call =>
          match call.phase with
          | .writing attempts plan => world.writeStep id call attempts plan
          | .reading _ => world
      | none => world

end ControlWorld

end AgentLibOS.Semantic
