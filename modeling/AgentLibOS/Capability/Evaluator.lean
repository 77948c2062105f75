import AgentLibOS.Capability.Rules
import AgentLibOS.Capability.Store

set_option linter.dupNamespace false

namespace AgentLibOS.Capability

structure Capability where
  capId : String
  subject : String
  resource : String
  rights : List String
  constraints : Dict
  issuedAt : String
  /-- The normalised UTC timestamp, as an instant. -/
  expiresAt : Option Int
  delegable : Bool
  revocable : Bool
  effect : CapabilityEffect
  parentCapId : Option String
  delegationDepth : Nat
  maxDelegationDepth : Option Nat
  usesRemaining : Option Nat
  status : CapabilityStatus

def authorityRulesKey : String := "authority_rules"
def approvalBindingKey : String := "approval_binding"
def dataReleaseBindingKey : String := "data_release_binding"
def shellPolicyKey : String := "shell_policy_level"

def knownConstraintKeys : List String :=
  [shellPolicyKey, "inherited_from", authorityRulesKey, approvalBindingKey, dataReleaseBindingKey,
    "git_remote", "git_allowed_refs", "git_url_fingerprint", "git_expected_state_token",
    "git_old_oid"]

/-- What one constraint comes to; `details` are the entries that only reports read. -/
structure ConstraintResult where
  ok : Bool
  effect : Option CapabilityEffect := none
  reason : Option String := none
  details : Dict := []

abbrev ConstraintResults := List (String × ConstraintResult)

structure CapabilityDecision where
  subject : String
  resource : String
  right : String
  allowed : Bool
  effect : Option CapabilityEffect
  reason : String
  matchedCapabilityIds : List String
  selectedCapabilityId : Option String := none
  consumeCapabilityId : Option String := none
  issuerChain : List String := []
  constraintResults : ConstraintResults := []
  context : Dict

structure Request where
  subject : String
  resource : String
  right : String

namespace CapabilityEvaluator

def noRuleMatched : String := "no authority rule matched operation context"

section Evaluate
variable (engine : Engine) (limits : RegexLimits)

/-! ## Authority rules -/

def ruleConditionError (rule : AuthorityRule) (operation : String) :
    Except Raised (Option ConstraintResult) := do
  let unknown := unknownAuthorityRuleConditions rule
  let malformed ← malformedAuthorityRuleConditions engine limits rule
  if unknown = [] ∧ malformed = [] then pure none
  else
    let detail := if unknown = [] then ("malformed_conditions", malformed)
      else ("unknown_conditions", unknown)
    pure (some
      { ok := false
        effect := some .deny
        reason := some "malformed authority rule condition"
        details := [("operation", .str operation), ("rule_id", .str rule.ruleId),
          (detail.1, .list (detail.2.map .str))] })

/-- The rules of the operation in order: the first one that is ill-formed ends the evaluation. -/
def matchedRules (operation : String) (context : Dict) :
    List AuthorityRule → Except Raised (Except ConstraintResult (List AuthorityRule))
  | [] => .ok (.ok [])
  | rule :: rest =>
      if rule.operation ≠ operation then matchedRules operation context rest
      else do
        match ← ruleConditionError engine limits rule operation with
        | some error => pure (.error error)
        | none =>
            let here ← authorityRuleMatches engine limits rule context
            match ← matchedRules operation context rest with
            | .error error => pure (.error error)
            | .ok matched => pure (.ok (if here then rule :: matched else matched))

/-- A denying rule wins over an asking one, and that over the first rule. -/
def selectRule (first : AuthorityRule) (matched : List AuthorityRule) : AuthorityRule :=
  ((matched.find? (·.effect == .deny)).or (matched.find? (·.effect == .ask))).getD first

def evaluateAuthorityRules (rules : List AuthorityRule) (context : Dict) :
    Except Raised ConstraintResult := do
  let named :=
    if (context.get "authority_operation").truthy then context.get "authority_operation"
    else context.get "operation"
  let operation := if named.truthy then engine.str named else ""
  if operation = "" then
    pure { ok := false, reason := some "authority rule requires operation context" }
  else match ← matchedRules engine limits operation context rules with
    | .error error => pure error
    | .ok [] =>
        pure
          { ok := false
            reason := some noRuleMatched
            details := [("operation", .str operation),
              ("rule_ids", .list (rules.map fun rule => .str rule.ruleId))] }
    | .ok (first :: rest) =>
        let selected := selectRule first (first :: rest)
        let denied := selected.effect == .deny
        pure
          { ok := !denied
            effect := some selected.effect
            reason := if denied then some "authority rule denied operation" else none
            details := [("rule_id", .str selected.ruleId), ("risk", .str selected.risk.value),
              ("operation", .str operation)] }

def evaluateRuleConstraint (value : Value) (context : Dict) : Except Raised ConstraintResult :=
  match AuthorityRuleCodec.coerceMany engine value with
  | .error message => .ok { ok := false, reason := some message }
  | .ok rules => evaluateAuthorityRules engine limits rules context

/-! ## Bindings and Git constraints -/

def evaluateApprovalBinding (value : Value) (context : Dict) : Except Raised ConstraintResult :=
  match normalizeApprovalBinding engine value with
  | .error message => .ok { ok := false, reason := some message }
  | .ok binding => do
      let actualHash ← canonicalEffectHash engine context
      let expectedVersion := binding.get "target_state_version"
      let actualVersion := context.get "target_state_version"
      let matched := (binding.get "canonical_args_hash").eq (.str actualHash) &&
        (expectedVersion.isNone || expectedVersion.eq actualVersion)
      pure
        { ok := matched
          reason := some (if matched then "approval binding matched"
            else "approved effect arguments or target state changed")
          details := [("effect_id", binding.get "effect_id"),
            ("canonical_args_hash", .str actualHash), ("target_state_version", actualVersion)] }

def evaluateDataReleaseBinding (value : Value) (context : Dict) : ConstraintResult :=
  match normalizeDataReleaseBinding engine value,
      normalizeDataReleaseBinding engine (context.get dataReleaseBindingKey) with
  | .error message, _ => { ok := false, reason := some message }
  | .ok _, .error message => { ok := false, reason := some message }
  | .ok expected, .ok actual =>
      let matched := (Value.dict expected).eq (.dict actual)
      { ok := matched
        reason := some (if matched then "data release binding matched"
          else "data release Sink, source, payload, policy, or operation changed")
        details := [("sink", actual.get "sink"),
          ("registry_generation", actual.get "registry_generation"),
          ("payload_hash", actual.get "payload_hash")] }

def evaluateGitEqual (expected actual : Value) (label : String) : ConstraintResult :=
  let matched := expected.isStr && expected.eq actual
  { ok := matched
    reason := some ("Git " ++ label ++ if matched then " matched" else " did not match") }

def evaluateGitAllowedRefs (value actual : Value) : ConstraintResult :=
  let allowed : List String := match value with
    | .list items => items.map engine.str
    | _ => []
  let matched : Bool := match actual with
    | .str ref => allowed.contains ref
    | _ => false
  { ok := matched
    reason := some (if matched then "Git ref matched"
      else "Git ref is outside the capability allowlist") }

/-! ## Constraints -/

def evaluateConstraint (key : String) (value : Value) (context : Dict) :
    Except Raised ConstraintResult :=
  if key ∉ knownConstraintKeys then
    .ok { ok := false, reason := some "unknown constraint key" }
  else if key = authorityRulesKey then evaluateRuleConstraint engine limits value context
  else if key = approvalBindingKey then evaluateApprovalBinding engine value context
  else if key = dataReleaseBindingKey then .ok (evaluateDataReleaseBinding engine value context)
  else if key = "git_remote" then
    .ok (evaluateGitEqual value (context.get "git_remote") "remote")
  else if key = "git_url_fingerprint" then
    .ok (evaluateGitEqual value (context.get "git_url_fingerprint") "remote URL fingerprint")
  else if key = "git_expected_state_token" then
    .ok (evaluateGitEqual value (context.get "git_expected_state_token") "state token")
  else if key = "git_old_oid" then
    .ok (evaluateGitEqual value (context.get "git_old_oid") "old object id")
  else if key = "git_allowed_refs" then
    .ok (evaluateGitAllowedRefs engine value (context.get "git_remote_ref"))
  else .ok { ok := true, details := [("value", value)] }

def evaluateConstraintDict (constraints context : Dict) : Except Raised ConstraintResults :=
  constraints.mapM fun entry => do
    pure (entry.1, ← evaluateConstraint engine limits entry.1 entry.2 context)

def evaluateConstraints (cap : Capability) (context : Dict) : Except Raised ConstraintResults :=
  evaluateConstraintDict engine limits cap.constraints context

end Evaluate

/-- The strongest effect that a constraint overrides the capability's own with. -/
def constraintEffect (results : ConstraintResults) : Option CapabilityEffect :=
  [CapabilityEffect.deny, .ask, .allow].find? fun effect =>
    results.any fun result => result.2.effect == some effect

def constraintsOk (results : ConstraintResults) : Bool := results.all fun result => result.2.ok

/-- Only the authority rules failed, and they failed because none of them is about the operation. -/
def constraintFailureIsScopedMiss (results : ConstraintResults) : Bool :=
  let failed : ConstraintResults := results.filter fun result => !result.2.ok
  failed.all (fun result => result.1 == authorityRulesKey) &&
    (failed.lookup authorityRulesKey).any fun result => result.reason == some noRuleMatched

/-! ## Decisions -/

section Decide
variable (request : Request) (matchedIds : List String) (context : Dict)
  (chains : String → List String)

/-- `_decision`. -/
def decision (cap : Capability) (allowed : Bool) (effect : Option CapabilityEffect)
    (reason : String) (results : ConstraintResults) : CapabilityDecision where
  subject := request.subject
  resource := request.resource
  right := request.right
  allowed := allowed
  effect := effect
  reason := reason
  matchedCapabilityIds := matchedIds
  selectedCapabilityId := some cap.capId
  consumeCapabilityId := if allowed && cap.usesRemaining.isSome then some cap.capId else none
  issuerChain := chains cap.capId
  constraintResults := results
  context := context

/-- `_decide_match`. -/
def decideMatch (cap : Capability) (results : ConstraintResults) : Option CapabilityDecision :=
  let restrictiveFailure := !constraintsOk results && (cap.effect == .deny || cap.effect == .ask) &&
    !constraintFailureIsScopedMiss results
  let what := request.right ++ " on " ++ request.resource
  let decision := fun allowed effect reason =>
    decision request matchedIds context chains cap allowed (some effect) reason results
  if constraintEffect results = some .deny ∨ restrictiveFailure = true then
    some (decision false .deny ("capability constraints denied " ++ what))
  else if constraintsOk results = false then none
  else if cap.effect = .deny then
    some (decision false .deny (request.subject ++ " denied " ++ what))
  else if cap.effect = .ask ∨ constraintEffect results = some .ask then
    some (decision false .ask (request.subject ++ " requires human approval for " ++ what))
  else some (decision true .allow "capability allowed operation")

def isMatchedOneShotApproval (cap : Capability) (decision : CapabilityDecision) : Bool :=
  decision.effect == some .allow && cap.usesRemaining == some 1 &&
    decision.consumeCapabilityId == some cap.capId &&
    (decision.constraintResults.lookup approvalBindingKey).any fun result => result.ok

/-- What a capability contributes: its constraint results and the decision it would take. -/
structure Judged where
  cap : Capability
  results : ConstraintResults
  decision : Option CapabilityDecision

def Judged.hasEffect (judged : Judged) (effect : CapabilityEffect) : Bool :=
  judged.decision.any fun decision => decision.effect == some effect

def Judged.approvesOnce (judged : Judged) : Bool :=
  judged.decision.any (isMatchedOneShotApproval judged.cap)

def judge (engine : Engine) (limits : RegexLimits) (cap : Capability) : Except Raised Judged := do
  let results ← evaluateConstraints engine limits cap context
  pure ⟨cap, results, decideMatch request matchedIds context chains cap results⟩

def lacks : CapabilityDecision where
  subject := request.subject
  resource := request.resource
  right := request.right
  allowed := false
  effect := none
  reason := request.subject ++ " lacks " ++ request.right ++ " on " ++ request.resource
  matchedCapabilityIds := matchedIds
  context := context

/-- The scans over the contributions: a denial, a matched one-shot approval, a question, a
permission, a failed constraint. -/
def select (judged : List Judged) : CapabilityDecision :=
  let scans := [judged.find? (·.hasEffect .deny), judged.find? (·.approvesOnce),
    judged.find? (·.hasEffect .ask), judged.find? (·.hasEffect .allow)]
  match scans.findSome? fun found => found.bind (·.decision) with
  | some decision => decision
  | none =>
      match judged.find? (·.decision.isNone) with
      | some failed =>
          decision request matchedIds context chains failed.cap false none
            ("capability constraints rejected " ++ request.right ++ " on " ++ request.resource)
            failed.results
      | none => lacks request matchedIds context

end Decide

def decide (engine : Engine) (limits : RegexLimits) (request : Request)
    («matches» : List Capability) (context : Dict) (chains : String → List String) :
    Except Raised CapabilityDecision := do
  let matchedIds := «matches».map (·.capId)
  let judged ← «matches».mapM (judge request matchedIds context chains engine limits)
  pure (select request matchedIds context chains judged)

end CapabilityEvaluator
end AgentLibOS.Capability
