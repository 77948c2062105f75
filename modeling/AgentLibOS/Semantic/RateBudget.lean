import AgentLibOS.Library.Table
import AgentLibOS.Library.Windows
import AgentLibOS.Semantic.Control

namespace AgentLibOS.Semantic
open Library Library.Run Processes

inductive RateBudgetFault
  | denied (message : String)
  | exceeded (message : String)
  | conflict (message : String)
  | invalid (message : String)
  deriving DecidableEq, Repr

/-! ## Admission -/

structure SemanticApprovalBindingV2 extends SemanticApprovalBinding where
  policyEpochId : String
  policyEpochSha256 : Digest
  controlGeneration : Nat

structure SemanticAssessment where
  confidenceBps : Nat
  calibrationBucket : SemanticCalibrationBucket

structure SemanticAuthorityControlView where
  control : SemanticControlState
  epoch : SemanticPolicyEpoch

/-- The JSON text of a text, which the identity of a bucket hashes. -/
structure BudgetHashes extends SemanticHashes where
  quote : String → String

variable (hashes : BudgetHashes)

/-- `HostSemanticControlFence.fence`; the repository says whether the control row is still this one. -/
def controlFence (expectedPolicySha256 : Digest) (allowedModes : List SemanticRuntimeMode)
    (view : SemanticAuthorityControlView) (fenced : Bool) : Except RateBudgetFault Unit := do
  ensure (view.control.mode ∈ allowedModes ∧ view.control.tripped = false)
    (.denied "semantic control no longer permits settlement")
  ensure (view.control.activePolicySha256 = some expectedPolicySha256 ∧
      hashes.policy view.epoch = expectedPolicySha256)
    (.denied "semantic policy epoch changed before settlement")
  ensure (fenced = true) (.denied "semantic control changed before settlement")

def requireActiveBudgetScope (view : SemanticAuthorityControlView)
    (binding : SemanticApprovalBindingV2) (ruleId : String) : Except RateBudgetFault Unit := do
  ensure (view.control.mode = .canaryAuto ∧ view.control.tripped = false)
    (.denied "semantic canary budget is not active")
  ensure (view.control.activeEpochId = some binding.policyEpochId ∧
      view.control.activePolicySha256 = some binding.policyEpochSha256 ∧
      view.control.generation = binding.controlGeneration ∧
      view.epoch.epochId = binding.policyEpochId ∧
      hashes.policy view.epoch = binding.policyEpochSha256 ∧
      view.epoch.generation = binding.controlGeneration ∧
      binding.tenantBucketSha256 ∈ view.epoch.tenantBucketSha256s)
    (.denied "semantic canary budget scope changed")
  match view.epoch.autoApprovalRules.find? (·.ruleId == ruleId) with
  | none => .error (.denied "semantic canary budget rule is not active")
  | some selected =>
      ensure (selected.authorityOperation = binding.authorityOperation ∧
          selected.rights = [binding.right] ∧
          ruleResourceMatches selected.resource binding.resource = true)
        (.denied "semantic canary budget rule binding changed")

def requireEpochAssessmentThreshold (epoch : SemanticPolicyEpoch)
    (assessment : SemanticAssessment) : Except RateBudgetFault Unit :=
  ensure (epoch.minimumConfidenceBps ≤ assessment.confidenceBps ∧
      assessment.calibrationBucket = epoch.requiredCalibrationBucket)
    (.denied "semantic classifier evidence is below the active epoch threshold")

/-! ## The durable bucket -/

/-- `_text` of the records: bounded and without control characters. -/
def recordText (value : String) : Bool :=
  boundedText value 512 && value.toList.all fun c => decide (32 ≤ c.toNat)

/-- The identity is of the tenant and the logical rule only. -/
def semanticRateBudgetBucketId (tenantBucketSha256 : Digest) (ruleId : String) : String :=
  "semantic-budget-v2:" ++ (hashes.text ("\x7b\"catalog_version\":1,\"logical_rule_id\":" ++
    hashes.quote ruleId ++ ",\"schema_version\":2,\"tenant_bucket_sha256\":" ++
    hashes.quote tenantBucketSha256.value ++ "\x7d")).value

/-- `_rate_bucket_id`: the epoch is checked, and left out. -/
def rateBucketId (epochId : String) (tenantBucketSha256 : Digest) (ruleId : String) :
    Except RateBudgetFault String := do
  ensure (epochId ≠ "") (.invalid "semantic rate budget epoch provenance is invalid")
  ensure (recordText ruleId = true)
    (.invalid "semantic rate bucket rule must be bounded canonical text")
  return semanticRateBudgetBucketId hashes tenantBucketSha256 ruleId

structure SemanticRateBudgetRecord where
  bucketId : String
  epochId : String
  tenantBucketSha256 : Digest
  ruleId : String
  minuteWindowStartedAt : Instant
  dayWindowStartedAt : Instant
  minuteCount : Nat
  dayCount : Nat
  inflightCount : Nat
  revision : Nat
  updatedAt : Instant
  epochId_text : recordText epochId = true
  ruleId_text : recordText ruleId = true
  bucketId_scope : bucketId = semanticRateBudgetBucketId hashes tenantBucketSha256 ruleId

variable {hashes}

namespace SemanticRateBudgetRecord

/-- The columns that an `UPDATE` writes. -/
def update (stored target : SemanticRateBudgetRecord hashes) : SemanticRateBudgetRecord hashes :=
  { stored with
    minuteWindowStartedAt := target.minuteWindowStartedAt
    dayWindowStartedAt := target.dayWindowStartedAt
    minuteCount := target.minuteCount
    dayCount := target.dayCount
    inflightCount := target.inflightCount
    revision := target.revision
    updatedAt := target.updatedAt }

def sameScope (left right : SemanticRateBudgetRecord hashes) : Prop :=
  left.epochId = right.epochId ∧ left.tenantBucketSha256 = right.tenantBucketSha256 ∧
    left.ruleId = right.ruleId

instance (left right : SemanticRateBudgetRecord hashes) : Decidable (left.sameScope right) :=
  inferInstanceAs (Decidable (_ ∧ _ ∧ _))

end SemanticRateBudgetRecord

abbrev RateBudgetTable (hashes : BudgetHashes) := Table String (SemanticRateBudgetRecord hashes)

/-- `none` is the source's `False`. The index of tenant and rule conflicts only where the primary
key does, since a bucket has the identity of its tenant and rule. -/
def compareAndSetSemanticRateBudget (table : RateBudgetTable hashes)
    (expected : Option (SemanticRateBudgetRecord hashes))
    (target : SemanticRateBudgetRecord hashes) :
    Except RateBudgetFault (Option (RateBudgetTable hashes)) :=
  match expected with
  | none =>
      if target.revision ≠ 0 then .error (.invalid "initial semantic rate budget revision must be zero")
      else .ok (match table.get target.bucketId with
        | none => some (table.set target.bucketId target)
        | some _ => none)
  | some expected =>
      if target.bucketId ≠ expected.bucketId ∨ target.revision ≠ expected.revision + 1 then
        .error (.invalid "semantic rate budget CAS identity/revision is invalid")
      else if ¬ target.sameScope expected then
        .error (.invalid "semantic rate budget scope is immutable")
      else .ok (match table.get expected.bucketId with
        | none => none
        | some stored =>
            if stored.revision = expected.revision ∧ stored.sameScope expected then
              some (table.set expected.bucketId (stored.update target))
            else none)

/-! ## Attempts -/

def minute : Int := 60000000

def day : Int := 86400000000

/-- The window of a charge and what was charged to it before. -/
def rolled (width now start : Int) (count : Nat) : Int × Nat :=
  if width ≤ now - start then (now, 0) else (start, count)

/-- What a reservation is made under: its binding and rule, and the epoch of the fenced view. -/
structure BudgetReservation where
  binding : SemanticApprovalBindingV2
  ruleId : String
  epoch : SemanticPolicyEpoch

/-- The record of the first reservation. -/
def firstRecord (hashes : BudgetHashes) (reservation : BudgetReservation) (now : Instant) :
    Except RateBudgetFault (SemanticRateBudgetRecord hashes) :=
  if epochText : recordText reservation.binding.policyEpochId = true then
    if ruleText : recordText reservation.ruleId = true then
      .ok {
        bucketId := semanticRateBudgetBucketId hashes reservation.binding.tenantBucketSha256
          reservation.ruleId
        epochId := reservation.binding.policyEpochId
        tenantBucketSha256 := reservation.binding.tenantBucketSha256
        ruleId := reservation.ruleId
        minuteWindowStartedAt := now
        dayWindowStartedAt := now
        minuteCount := 1
        dayCount := 1
        inflightCount := 1
        revision := 0
        updatedAt := now
        epochId_text := epochText
        ruleId_text := ruleText
        bucketId_scope := rfl }
    else .error (.invalid "semantic rate bucket rule must be bounded canonical text")
  else .error (.invalid "semantic rate bucket epoch must be bounded canonical text")

/-- The target of one attempt of `reserve` on the record that it read. -/
def reserveTarget (reservation : BudgetReservation) (bucketId : String) (now : Instant)
    (current : Option (SemanticRateBudgetRecord hashes)) :
    Except RateBudgetFault (SemanticRateBudgetRecord hashes) :=
  match current with
  | none => firstRecord hashes reservation now
  | some current => do
      ensure (current.bucketId = bucketId ∧
          current.tenantBucketSha256 = reservation.binding.tenantBucketSha256 ∧
          current.ruleId = reservation.ruleId)
        (.denied "semantic persisted rate budget scope is inconsistent")
      ensure (current.minuteWindowStartedAt ≤ now ∧ current.dayWindowStartedAt ≤ now)
        (.denied "semantic rate budget Host clock moved backwards")
      let (minuteStart, minuteCount) :=
        rolled minute now current.minuteWindowStartedAt current.minuteCount
      let (dayStart, dayCount) := rolled day now current.dayWindowStartedAt current.dayCount
      ensure (minuteCount < reservation.epoch.perRulePerMinuteLimit ∧
          dayCount < reservation.epoch.perRulePerDayLimit ∧
          current.inflightCount < reservation.epoch.maxInflight)
        (.exceeded "semantic exact tenant/rule canary budget is exhausted")
      return { current with
        minuteWindowStartedAt := minuteStart
        dayWindowStartedAt := dayStart
        minuteCount := minuteCount + 1
        dayCount := dayCount + 1
        inflightCount := current.inflightCount + 1
        revision := current.revision + 1
        updatedAt := now }

/-- The target of one attempt of `release`. -/
def releaseTarget (now : Instant) (current : Option (SemanticRateBudgetRecord hashes)) :
    Except RateBudgetFault (SemanticRateBudgetRecord hashes) :=
  match current with
  | none => .error (.conflict "semantic rate budget bucket does not exist")
  | some current =>
      if current.inflightCount < 1 then
        .error (.conflict "semantic rate budget has no inflight issuance to release")
      else .ok { current with
        inflightCount := current.inflightCount - 1
        revision := current.revision + 1
        updatedAt := now }

/-! ## Interleaved callers -/

structure HostSemanticRateBudget where
  maxCasAttempts : Nat
  attempts_bounded : 1 ≤ maxCasAttempts ∧ maxCasAttempts ≤ 64

inductive BudgetRequest
  | reserve (reservation : BudgetReservation)
  | release

inductive BudgetPhase (hashes : BudgetHashes)
  | reading
  | writing (expected : Option (SemanticRateBudgetRecord hashes))
      (target : SemanticRateBudgetRecord hashes)

structure BudgetCall (hashes : BudgetHashes) where
  bucketId : String
  request : BudgetRequest
  now : Instant
  attempts : Nat
  phase : BudgetPhase hashes

/-- A call that succeeded, with the record it wrote. -/
inductive BudgetEntry (hashes : BudgetHashes)
  | reserved (reservation : BudgetReservation) (now : Instant)
      (record : SemanticRateBudgetRecord hashes)
  | released (record : SemanticRateBudgetRecord hashes)

def BudgetEntry.record : BudgetEntry hashes → SemanticRateBudgetRecord hashes
  | .reserved _ _ record => record
  | .released record => record

/-- The bucket rows, the calls in progress, and the successful calls, newest first. -/
structure BudgetWorld (hashes : BudgetHashes) (κ : Type) where
  table : RateBudgetTable hashes
  calls : κ → Option (BudgetCall hashes)
  history : List (BudgetEntry hashes)

/-- What callers do. An aborted call has raised, or its unit of work has been rolled back. -/
inductive BudgetEvent (κ : Type)
  | reserve (caller : κ) (budget : HostSemanticRateBudget) (binding : SemanticApprovalBindingV2)
      (ruleId : String) (assessment : SemanticAssessment) (view : SemanticAuthorityControlView)
      (fenced : Bool) (now : Instant)
  | release (caller : κ) (budget : HostSemanticRateBudget) (bucketId : String) (now : Instant)
  | read (caller : κ)
  | write (caller : κ)
  | abort (caller : κ)

/-- What `reserve` checks before its first attempt. -/
def admitReserve (hashes : BudgetHashes) (binding : SemanticApprovalBindingV2) (ruleId : String)
    (assessment : SemanticAssessment) (view : SemanticAuthorityControlView) (fenced : Bool) :
    Except RateBudgetFault String := do
  ensure (ruleId ≠ "") (.invalid "semantic rate budget requires an exact rule_id")
  controlFence hashes binding.policyEpochSha256 [.canaryAuto] view fenced
  requireActiveBudgetScope hashes view binding ruleId
  requireEpochAssessmentThreshold view.epoch assessment
  rateBucketId hashes binding.policyEpochId binding.tenantBucketSha256 ruleId

/-- The target of one attempt. -/
def BudgetCall.target (call : BudgetCall hashes)
    (current : Option (SemanticRateBudgetRecord hashes)) :
    Except RateBudgetFault (SemanticRateBudgetRecord hashes) :=
  match call.request with
  | .reserve reservation => reserveTarget reservation call.bucketId call.now current
  | .release => releaseTarget call.now current

def BudgetCall.entry (call : BudgetCall hashes) (record : SemanticRateBudgetRecord hashes) :
    BudgetEntry hashes :=
  match call.request with
  | .reserve reservation => .reserved reservation call.now record
  | .release => .released record

namespace BudgetWorld
variable {κ : Type} [DecidableEq κ]

def initial : BudgetWorld hashes κ := ⟨.empty, fun _ => none, []⟩

def setCall (world : BudgetWorld hashes κ) (caller : κ) (call : Option (BudgetCall hashes)) :
    BudgetWorld hashes κ :=
  { world with calls := Function.update world.calls caller call }

def readStep (world : BudgetWorld hashes κ) (caller : κ) (call : BudgetCall hashes) :
    BudgetWorld hashes κ :=
  let current := world.table.get call.bucketId
  match call.target current with
  | .ok target => world.setCall caller (some { call with phase := .writing current target })
  | .error _ => world.setCall caller none

def writeStep (world : BudgetWorld hashes κ) (caller : κ) (call : BudgetCall hashes)
    (expected : Option (SemanticRateBudgetRecord hashes))
    (target : SemanticRateBudgetRecord hashes) : BudgetWorld hashes κ :=
  match compareAndSetSemanticRateBudget world.table expected target with
  | .error _ => world.setCall caller none
  | .ok (some table) =>
      { world with table := table, history := call.entry target :: world.history }.setCall caller none
  | .ok none =>
      if call.attempts ≤ 1 then world.setCall caller none
      else world.setCall caller (some { call with attempts := call.attempts - 1, phase := .reading })

def step (world : BudgetWorld hashes κ) : BudgetEvent κ → BudgetWorld hashes κ
  | .reserve caller budget binding ruleId assessment view fenced now =>
      match world.calls caller, admitReserve hashes binding ruleId assessment view fenced with
      | none, .ok bucketId => world.setCall caller
          (some ⟨bucketId, .reserve ⟨binding, ruleId, view.epoch⟩, now, budget.maxCasAttempts,
            .reading⟩)
      | _, _ => world
  | .release caller budget bucketId now =>
      match world.calls caller with
      | none =>
          if bucketId = "" then world
          else world.setCall caller
            (some ⟨bucketId, .release, now, budget.maxCasAttempts, .reading⟩)
      | some _ => world
  | .read caller =>
      match world.calls caller with
      | some call =>
          match call.phase with
          | .reading => world.readStep caller call
          | .writing .. => world
      | none => world
  | .write caller =>
      match world.calls caller with
      | some call =>
          match call.phase with
          | .writing expected target => world.writeStep caller call expected target
          | .reading => world
      | none => world
  | .abort caller => world.setCall caller none

end BudgetWorld

end AgentLibOS.Semantic
