import AgentLibOS.Library.Run
import AgentLibOS.Semantic.Policy
import Mathlib.Data.List.Dedup
import Mathlib.Data.List.Sort
import Mathlib.Data.Set.Function

namespace AgentLibOS.Semantic
open Library.Run Processes

/-! ## Stored scopes -/

inductive ResourceKind
  | exactKind | prefixKind
  deriving DecidableEq, Repr

structure RolloutRule where
  ruleIdSha256 : Digest
  actionId : String
  rights : List String
  resourceKind : ResourceKind
  matchSha256 : Digest
  coveringPrefixSha256s : List Digest
  deriving DecidableEq

structure RolloutAllowParameters where
  catalogVersion : Nat
  classifierProfileIdSha256 : Option Digest
  classifierProfileSha256 : Option Digest
  classifierModelSha256 : Option Digest
  minimumConfidenceBps : Nat
  requiredCalibrationBucket : SemanticCalibrationBucket
  capabilityTtlS : Nat
  perRulePerMinuteLimit : Nat
  perRulePerDayLimit : Nat
  maxInflight : Nat
  deriving DecidableEq

structure RolloutScope where
  tenantBucketSha256s : List Digest
  autoApprovalRules : List RolloutRule
  hardDenyRules : List RolloutRule
  allowParameters : RolloutAllowParameters
  deriving DecidableEq

/-- The scope of a policy row: version 1 rows carry neither deny rules nor parameters. -/
inductive StoredScope
  | legacy (tenantBucketSha256s : List Digest) (autoApprovalRules : List RolloutRule)
  | current (scope : RolloutScope)
  deriving DecidableEq

/-! ## The digest projection of an epoch -/

def separator (c : Char) : Bool := c == ':' || c == '/'

/-- `resource[:-1]` of a resource with a wildcard. -/
def resourceMatch (resource : String) : List Char :=
  if endsWithStar resource then resource.toList.dropLast else resource.toList

/-- `resource_match[:index + 1]` for every separator of the text. -/
def separatedPrefixes (text : List Char) : List (List Char) :=
  text.zipIdx.filterMap fun (character, index) =>
    if separator character then some (text.take (index + 1)) else none

def prefixValues (resource : String) : List String :=
  let starts := separatedPrefixes (resourceMatch resource)
  (if endsWithStar resource then starts.insert (resourceMatch resource) else starts).map String.ofList

def sortDigests (digests : List Digest) : List Digest :=
  digests.insertionSort (·.value ≤ ·.value)

section Projection
variable (sha256 : String → Digest)

/-- `_policy_rollout_rule`. -/
def policyRolloutRule (rule : SemanticApprovalRule) : RolloutRule where
  ruleIdSha256 := sha256 rule.ruleId
  actionId := rule.authorityOperation
  rights := rule.rights.insertionSort (· ≤ ·)
  resourceKind := if endsWithStar rule.resource then .prefixKind else .exactKind
  matchSha256 := sha256 (String.ofList (resourceMatch rule.resource))
  coveringPrefixSha256s := sortDigests ((prefixValues rule.resource).map sha256)

def quoted (text : String) : String := "\"" ++ text ++ "\""

def jsonArray (texts : List String) : String := "[" ++ ",".intercalate (texts.map quoted) ++ "]"

def resourceKindText : ResourceKind → String
  | .exactKind => "exact"
  | .prefixKind => "prefix"

/-- `json.dumps(item, sort_keys=True)`; no text of a rule needs escaping. -/
def canonicalRule (rule : RolloutRule) : String :=
  "\x7b" ++ quoted "action_id" ++ ":" ++ quoted rule.actionId ++ "," ++
    quoted "covering_prefix_sha256s" ++ ":" ++ jsonArray (rule.coveringPrefixSha256s.map (·.value)) ++
    "," ++ quoted "match_sha256" ++ ":" ++ quoted rule.matchSha256.value ++ "," ++
    quoted "resource_kind" ++ ":" ++ quoted (resourceKindText rule.resourceKind) ++ "," ++
    quoted "rights" ++ ":" ++ jsonArray rule.rights ++ "," ++ quoted "rule_id_sha256" ++ ":" ++
    quoted rule.ruleIdSha256.value ++ "\x7d"

def sortRules (rules : List RolloutRule) : List RolloutRule :=
  rules.insertionSort (canonicalRule · ≤ canonicalRule ·)

/-- `_policy_rollout_scope`. -/
def policyRolloutScope (epoch : SemanticPolicyEpoch) : RolloutScope where
  tenantBucketSha256s := sortDigests epoch.tenantBucketSha256s
  autoApprovalRules := sortRules (epoch.autoApprovalRules.map (policyRolloutRule sha256))
  hardDenyRules := sortRules (epoch.hardDenyRules.map (policyRolloutRule sha256))
  allowParameters :=
    { catalogVersion := epoch.catalogVersion
      classifierProfileIdSha256 := epoch.classifierProfileId.map sha256
      classifierProfileSha256 := epoch.classifierProfileSha256
      classifierModelSha256 := epoch.classifierModelSha256
      minimumConfidenceBps := epoch.minimumConfidenceBps
      requiredCalibrationBucket := epoch.requiredCalibrationBucket
      capabilityTtlS := epoch.capabilityTtlS
      perRulePerMinuteLimit := epoch.perRulePerMinuteLimit
      perRulePerDayLimit := epoch.perRulePerDayLimit
      maxInflight := epoch.maxInflight }

end Projection

/-! ## Reading a scope -/

structure SemanticControlConflict where
  message : String
  deriving DecidableEq, Repr

/-- The rights of a rule are exactly those that the catalog lists for its action. -/
def catalogRights (rule : RolloutRule) : Bool :=
  match semanticActionCatalog rule.actionId with
  | some allowed => rule.rights.all (allowed.contains ·) && allowed.all (rule.rights.contains ·)
  | none => false

/-- The metadata of a rule that `_rollout_rule` accepts. -/
def ruleMetadata (rule : RolloutRule) (ofCatalog : Bool) : Bool :=
  exactAction rule.actionId && rule.rights != [] && rule.rights.all (· != "") &&
    decide rule.rights.Nodup && rule.rights.insertionSort (· ≤ ·) == rule.rights &&
    if ofCatalog then catalogRights rule else rule.rights.all (capabilityRights.contains ·)

def rolloutCoveringPrefixes (rule : RolloutRule) (label : String) :
    Except SemanticControlConflict (List Digest) :=
  if ¬ rule.coveringPrefixSha256s.Nodup then
    .error ⟨label ++ " contains duplicate covering prefixes"⟩
  else if rule.resourceKind = .prefixKind ∧ rule.matchSha256 ∉ rule.coveringPrefixSha256s then
    .error ⟨label ++ " prefix rule does not cover its own match"⟩
  else .ok rule.coveringPrefixSha256s

def rolloutRule (label : String) (ofCatalog : Bool) (rule : RolloutRule) :
    Except SemanticControlConflict RolloutRule :=
  if ruleMetadata rule ofCatalog then do
    let prefixes ← rolloutCoveringPrefixes rule label
    .ok { rule with coveringPrefixSha256s := prefixes }
  else .error ⟨label ++ " rule metadata is malformed"⟩

/-- The first numeric parameter that is out of its bounds. -/
def unboundedParameter (value : RolloutAllowParameters) : Option String :=
  if ¬ (9900 ≤ value.minimumConfidenceBps ∧ value.minimumConfidenceBps ≤ 10000) then
    some "minimum_confidence_bps"
  else if ¬ (1 ≤ value.capabilityTtlS ∧ value.capabilityTtlS ≤ 300) then some "capability_ttl_s"
  else if ¬ (1 ≤ value.perRulePerMinuteLimit ∧ value.perRulePerMinuteLimit ≤ 10) then
    some "per_rule_per_minute_limit"
  else if ¬ (1 ≤ value.perRulePerDayLimit ∧ value.perRulePerDayLimit ≤ 100) then
    some "per_rule_per_day_limit"
  else if ¬ (1 ≤ value.maxInflight ∧ value.maxInflight ≤ 2) then some "max_inflight"
  else none

def classifierComplete (value : RolloutAllowParameters) : Bool :=
  value.classifierProfileIdSha256.isSome == value.classifierProfileSha256.isSome &&
    value.classifierProfileIdSha256.isSome == value.classifierModelSha256.isSome

def rolloutAllowParameters (value : RolloutAllowParameters) (label : String) :
    Except SemanticControlConflict RolloutAllowParameters :=
  if value.catalogVersion ≠ 1 then .error ⟨label ++ " catalog version is unsupported"⟩
  else if !classifierComplete value then .error ⟨label ++ " classifier identity is incomplete"⟩
  else if value.requiredCalibrationBucket ≠ .veryHigh then
    .error ⟨label ++ " calibration bucket is unsupported"⟩
  else match unboundedParameter value with
    | some field => .error ⟨label ++ " " ++ field ++ " is malformed"⟩
    | none => .ok value

/-- `_rollout_scope_parts`. -/
def rolloutScopeParts (value : StoredScope) (label : String) :
    Except SemanticControlConflict RolloutScope :=
  match value with
  | .legacy _ _ => .error ⟨label ++ " has an unsupported contract"⟩
  | .current scope =>
      if ¬ scope.tenantBucketSha256s.Nodup then .error ⟨label ++ " contains duplicate tenants"⟩
      else do
        let rules ← scope.autoApprovalRules.mapM (rolloutRule label true)
        let denies ← scope.hardDenyRules.mapM (rolloutRule label false)
        if ¬ (rules.map (·.ruleIdSha256) ++ denies.map (·.ruleIdSha256)).Nodup then
          .error ⟨label ++ " contains duplicate rule ids"⟩
        else do
          let parameters ← rolloutAllowParameters scope.allowParameters label
          .ok ⟨scope.tenantBucketSha256s, rules, denies, parameters⟩

/-! ## The comparison -/

/-- `_rollout_allow_parameters_expand`. -/
def allowParametersExpand (previous candidate : RolloutAllowParameters) : Bool :=
  candidate.catalogVersion != previous.catalogVersion ||
    candidate.classifierProfileIdSha256 != previous.classifierProfileIdSha256 ||
    candidate.classifierProfileSha256 != previous.classifierProfileSha256 ||
    candidate.classifierModelSha256 != previous.classifierModelSha256 ||
    candidate.requiredCalibrationBucket != previous.requiredCalibrationBucket ||
    decide (candidate.minimumConfidenceBps < previous.minimumConfidenceBps) ||
    decide (previous.capabilityTtlS < candidate.capabilityTtlS) ||
    decide (previous.perRulePerMinuteLimit < candidate.perRulePerMinuteLimit) ||
    decide (previous.perRulePerDayLimit < candidate.perRulePerDayLimit) ||
    decide (previous.maxInflight < candidate.maxInflight)

/-- `_rollout_resource_covers`. -/
def resourceCovers (previous candidate : RolloutRule) : Bool :=
  match previous.resourceKind with
  | .exactKind => candidate.resourceKind == .exactKind && previous.matchSha256 == candidate.matchSha256
  | .prefixKind => candidate.coveringPrefixSha256s.contains previous.matchSha256

/-- `_rollout_rule_covers` with `require_rule_identity`, as its only caller passes it. -/
def ruleCovers (previous candidate : RolloutRule) : Bool :=
  if previous.actionId ≠ candidate.actionId ∨ previous.ruleIdSha256 ≠ candidate.ruleIdSha256 ∨
      ¬ candidate.rights ⊆ previous.rights then false
  else resourceCovers previous candidate

/-- `_rollout_deny_union_covers`. -/
def denyUnionCovers (previous : RolloutRule) (candidates : List RolloutRule) : Bool :=
  previous.rights.all fun right => candidates.any fun candidate =>
    candidate.actionId == previous.actionId && candidate.rights.contains right &&
      resourceCovers candidate previous

def actions (rules : List RolloutRule) : List String := rules.map (·.actionId)

/-- The actions that the candidate scope widens. -/
def affectedActions (previous candidate : RolloutScope) : List String :=
  (if candidate.tenantBucketSha256s ⊆ previous.tenantBucketSha256s then []
    else actions candidate.autoApprovalRules) ++
  (if allowParametersExpand previous.allowParameters candidate.allowParameters then
    actions candidate.autoApprovalRules else []) ++
  actions (candidate.autoApprovalRules.filter fun rule =>
    !previous.autoApprovalRules.any (ruleCovers · rule)) ++
  actions (previous.hardDenyRules.filter fun deny =>
    (actions candidate.autoApprovalRules).contains deny.actionId &&
      !denyUnionCovers deny candidate.hardDenyRules)

def sortedSet (texts : List String) : List String := texts.dedup.insertionSort (· ≤ ·)

/-- `_expanded_rollout_actions`. -/
def expandedRolloutActions (previousScope candidateScope : StoredScope) :
    Except SemanticControlConflict (List String) := do
  let previous ← rolloutScopeParts previousScope "preceding semantic rollout scope"
  let candidate ← rolloutScopeParts candidateScope "candidate semantic rollout scope"
  let affected := affectedActions previous candidate
  let missingCanary := affected.filter fun action =>
    !(actions previous.autoApprovalRules).contains action
  if missingCanary ≠ [] then
    .error ⟨"semantic rollout expansion introduces an action without a preceding canary: " ++
      ", ".intercalate (sortedSet missingCanary)⟩
  else .ok (sortedSet affected)

end AgentLibOS.Semantic
