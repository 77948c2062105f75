import AgentLibOS.Processes.State
import Mathlib.Data.String.Basic

namespace AgentLibOS.Semantic
open Library.Text Processes

/-! ## Rules -/

def boundedText (value : String) (maxChars : Nat) : Bool :=
  value.toList != [] && strip isSpace value.toList == value.toList &&
    decide (value.toList.length ≤ maxChars) && value.toList.all (· != Char.ofNat 0)

/-- `[a-z][a-z0-9_]*`. -/
def actionSegment : List Char → Bool
  | [] => false
  | first :: rest => first.isLower && rest.all fun c => c.isLower || c.isDigit || c == '_'

/-- The operation is an exact dotted name. -/
def exactAction (operation : String) : Bool :=
  let segments := operation.toList.splitOn '.'
  decide (2 ≤ segments.length) && segments.all actionSegment

/-- The kind before the first colon of the resource is the first segment of the operation. -/
def kindMatches (resource operation : String) : Bool :=
  let kind := resource.toList.takeWhile (· != ':')
  resource.toList.contains ':' && kind != [] && (resource.toList.dropWhile (· != ':')).drop 1 != [] &&
    kind == operation.toList.takeWhile (· != '.')

def terminalWildcard (resource : String) : Bool :=
  !resource.toList.contains '*' || (resource.toList.count '*' == 1 &&
    ([':', '*'].isSuffixOf resource.toList || ['/', '*'].isSuffixOf resource.toList))

def capabilityRights : List String :=
  ["read", "write", "execute", "link", "diff", "materialize", "delete"]

structure SemanticApprovalRule where
  ruleId : String
  authorityOperation : String
  resource : String
  rights : List String
  ruleId_bounded : boundedText ruleId 128 = true
  operation_exact : exactAction authorityOperation = true
  resource_bounded : boundedText resource 2048 = true
  resource_kind : kindMatches resource authorityOperation = true
  resource_wildcard : terminalWildcard resource = true
  rights_nonempty : rights ≠ []
  rights_nodup : rights.Nodup
  rights_known : ∀ right ∈ rights, right ∈ capabilityRights

/-- A hard-deny rule is checked as an approval rule, and `policy_hard_deny` is its only reason. -/
abbrev SemanticHardDenyRule := SemanticApprovalRule

def endsWithStar (resource : String) : Bool := resource.toList.getLast? == some '*'

/-- `_rule_resource_matches`. -/
def ruleResourceMatches (ruleResource exactResource : String) : Bool :=
  if endsWithStar ruleResource then
    ruleResource.toList.dropLast.isPrefixOf exactResource.toList &&
      !exactResource.toList.contains '*'
  else ruleResource == exactResource

/-! ## Epochs -/

inductive SemanticCalibrationBucket
  | unknown | veryLow | low | medium | high | veryHigh
  deriving DecidableEq, Repr

/-- Catalog v1: the right that machine approval may give for an operation. -/
def semanticActionCatalog (operation : String) : Option (List String) :=
  if operation = "filesystem.read" then some ["read"]
  else if operation = "git.read" then some ["read"]
  else if operation = "git.diff" then some ["diff"]
  else none

/-- Auto approval is for an operation of the catalog, with exactly one of its rights. -/
def catalogRule (rule : SemanticApprovalRule) : Prop :=
  ∃ allowed, semanticActionCatalog rule.authorityOperation = some allowed ∧
    rule.rights.length = 1 ∧ rule.rights ⊆ allowed

structure SemanticPolicyEpoch where
  epochId : String
  generation : Nat
  expectedPreviousSha256 : Option Digest
  tenantBucketSha256s : List Digest
  autoApprovalRules : List SemanticApprovalRule
  hardDenyRules : List SemanticHardDenyRule
  createdAt : String
  classifierProfileId : Option String
  classifierProfileSha256 : Option Digest
  classifierModelSha256 : Option Digest
  minimumConfidenceBps : Nat
  requiredCalibrationBucket : SemanticCalibrationBucket
  capabilityTtlS : Nat
  perRulePerMinuteLimit : Nat
  perRulePerDayLimit : Nat
  maxInflight : Nat
  catalogVersion : Nat
  catalogVersion_supported : catalogVersion = 1
  epochId_bounded : boundedText epochId 512 = true
  generation_positive : 0 < generation
  /-- Distinct buckets, stored in order. -/
  tenants_sorted : tenantBucketSha256s.Pairwise (·.value < ·.value)
  rules_nonempty : autoApprovalRules ≠ [] ∨ hardDenyRules ≠ []
  auto_tenants : autoApprovalRules ≠ [] → tenantBucketSha256s ≠ []
  first_tenant : generation = 1 → autoApprovalRules ≠ [] → tenantBucketSha256s.length = 1
  auto_sorted : autoApprovalRules.Pairwise (·.ruleId < ·.ruleId)
  deny_sorted : hardDenyRules.Pairwise (·.ruleId < ·.ruleId)
  ruleIds_apart : ∀ rule ∈ autoApprovalRules, ∀ deny ∈ hardDenyRules, rule.ruleId ≠ deny.ruleId
  auto_catalog : ∀ rule ∈ autoApprovalRules, catalogRule rule
  profileId_bounded : ∀ text ∈ classifierProfileId, boundedText text 512 = true
  classifier_complete : classifierProfileId.isSome = classifierProfileSha256.isSome ∧
    classifierProfileId.isSome = classifierModelSha256.isSome
  confidence_bounded : 9900 ≤ minimumConfidenceBps ∧ minimumConfidenceBps ≤ 10000
  calibration_required : requiredCalibrationBucket = .veryHigh
  ttl_bounded : 1 ≤ capabilityTtlS ∧ capabilityTtlS ≤ 300
  minute_bounded : 1 ≤ perRulePerMinuteLimit ∧ perRulePerMinuteLimit ≤ 10
  day_bounded : 1 ≤ perRulePerDayLimit ∧ perRulePerDayLimit ≤ 100
  inflight_bounded : 1 ≤ maxInflight ∧ maxInflight ≤ 2

/-! ## Machine approval -/

/-- What an approval binding says of the request it is for. -/
structure SemanticApprovalBinding where
  tenantBucketSha256 : Digest
  authorityOperation : String
  right : String
  resource : String
  deriving DecidableEq

/-- The test of one rule in `_epoch_rule_matches`. -/
def approvalRuleMatches (rule : SemanticApprovalRule) (binding : SemanticApprovalBinding)
    (ruleId : String) : Bool :=
  rule.ruleId == ruleId && rule.authorityOperation == binding.authorityOperation &&
    rule.rights == [binding.right] && ruleResourceMatches rule.resource binding.resource

def epochRuleMatches (epoch : SemanticPolicyEpoch) (binding : SemanticApprovalBinding)
    (ruleId : String) : Bool :=
  epoch.autoApprovalRules.any (approvalRuleMatches · binding ruleId)

/-- `_hard_deny_rule_matches`. -/
def hardDenyRuleMatches (rule : SemanticHardDenyRule) (action resource : String)
    (rights : List String) : Bool :=
  rule.authorityOperation == action && rights.any (rule.rights.contains ·) &&
    ruleResourceMatches rule.resource resource

def hardDenied (epoch : SemanticPolicyEpoch) (binding : SemanticApprovalBinding) : Bool :=
  epoch.hardDenyRules.any
    (hardDenyRuleMatches · binding.authorityOperation binding.resource [binding.right])

/-- The epoch approves the binding by machine, through the rule of this id. -/
def autoApproves (epoch : SemanticPolicyEpoch) (binding : SemanticApprovalBinding)
    (ruleId : String) : Bool :=
  epoch.tenantBucketSha256s.contains binding.tenantBucketSha256 &&
    epochRuleMatches epoch binding ruleId && !hardDenied epoch binding

end AgentLibOS.Semantic
