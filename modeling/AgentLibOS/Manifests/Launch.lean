import AgentLibOS.Manifests.Entries
import Mathlib.Algebra.Order.Ring.Unbundled.Rat

namespace AgentLibOS.Manifests
open Capability CapabilityManager Library.Run

/-- A budget as a mapping; a field without a limit is absent or `none`. -/
abbrev Budget := List (String × Option ℚ)

def Budget.get (budget : Budget) (field : String) : Option ℚ := (budget.lookup field).join

structure SemanticAutoApprovalRule where
  ruleId : String
  authorityOperation : String
  resource : String
  rights : List String

/-- `other` holds the policy keys that no rule of the manager reads. A null semantic policy is an
empty list of rules. -/
structure ApprovalPolicy where
  requestableCapabilities : Option (List CapabilityEntry) := none
  semanticAutoApproval : Option (List SemanticAutoApprovalRule) := none
  other : Dict := []

structure DataFlowPolicy where
  allowedTenants : List String := []
  allowedPrincipals : List String := []

structure TaskAuthorityManifest where
  manifestId : String
  pid : String
  imageId : String
  goalRef : Option String
  authorizedCapabilities : List CapabilityEntry
  requiredCapabilities : List CapabilityEntry
  permittedEffects : Option (List String)
  resourceBudget : Budget
  approvalPolicy : ApprovalPolicy
  dataFlowPolicy : DataFlowPolicy
  expiresAt : Option String
  issuedBy : String
  parentManifestId : Option String
  metadata : Dict
  createdAt : String

/-- A manifest that the Host supplies, whose fields have their declared types. The outer `none` is
a key that the object does not have, an inner one is null. -/
structure LaunchPayload where
  authorizedCapabilities : Option (List CapabilityEntry) := none
  permittedEffects : Option (Option (List String)) := none
  resourceBudget : Option (Option Budget) := none
  approvalPolicy : Option (Option ApprovalPolicy) := none
  dataFlowPolicy : Option (Option DataFlowPolicy) := none
  expiresAt : Option String := none
  issuedBy : Option String := none
  metadata : Option (Option Dict) := none

namespace LaunchPayload

/-- Whether the object has any key. -/
def present (payload : LaunchPayload) : Bool :=
  payload.authorizedCapabilities.isSome || payload.permittedEffects.isSome ||
    payload.resourceBudget.isSome || payload.approvalPolicy.isSome ||
    payload.dataFlowPolicy.isSome || payload.expiresAt.isSome || payload.issuedBy.isSome ||
    payload.metadata.isSome

end LaunchPayload

/-- What `supplied` may be. -/
inductive Supplied
  | absent
  | payload (payload : LaunchPayload)
  | template (manifest : TaskAuthorityManifest)

/-- `_template_payload`. -/
def templatePayload (manifest : TaskAuthorityManifest) : LaunchPayload where
  authorizedCapabilities := some manifest.authorizedCapabilities
  permittedEffects := some manifest.permittedEffects
  resourceBudget := some (some manifest.resourceBudget)
  approvalPolicy := some (some manifest.approvalPolicy)
  dataFlowPolicy := some (some manifest.dataFlowPolicy)
  expiresAt := manifest.expiresAt
  issuedBy := some manifest.issuedBy
  metadata := some (some manifest.metadata)

def launchPayload : Supplied → LaunchPayload
  | .absent => {}
  | .payload payload => payload
  | .template manifest => templatePayload manifest

def Supplied.isPresent : Supplied → Bool
  | .absent => false
  | _ => true

/-! ## Effects -/

/-- A text of the form that `permitted_effects` may hold. -/
def effectClass (effect : List Char) : Bool :=
  !effect.contains '*' || effect == ['*'] ||
    (['.', '*'].isSuffixOf effect && effect.count '*' == 1 && decide (2 < effect.length))

def effectClasses : Option (List String) → Except AuthorityError (Option (List String))
  | none => .ok none
  | some items => do
      let selected := items.map strip
      ensure (∀ effect ∈ selected, effect ≠ "")
        (.validation "permitted_effects entries must be non-empty strings")
      ensure (∀ effect ∈ selected, effectClass effect.toList = true)
        (.validation "permitted_effects wildcards must be '*' or one terminal '.*'")
      .ok (some (sortedKeys selected.dedup))

/-- `pattern[:-1]` of a pattern that ends with `.*`. -/
def effectStem (pattern : List Char) : Option (List Char) :=
  if ['.', '*'] <:+ pattern then some pattern.dropLast else none

def effectMatches (pattern selected : List Char) : Bool :=
  pattern == ['*'] || pattern == selected ||
    (effectStem pattern).any fun stem => decide (stem <+: selected)

def effectPatternCovers (parent child : List Char) : Bool :=
  if parent = ['*'] then true
  else if parent = child then true
  else match effectStem parent with
    | none => false
    | some stem =>
        match effectStem child with
        | some inner => decide (stem <+: inner)
        | none => decide (stem <+: child)

def requireEffectsAttenuated : Option (List String) → Option (List String) →
    Except AuthorityError Unit
  | none, _ => .ok ()
  | some _, none => .error (.denied "derived child effect ceiling exceeds parent manifest")
  | some parent, some child =>
      ensure (∀ effect ∈ child, ∃ pattern ∈ parent,
          effectPatternCovers pattern.toList effect.toList = true)
        (.denied "derived child effect ceiling exceeds parent manifest")

namespace TaskAuthorityManifest

/-- `assert_effect` of a live manifest. -/
def permitsEffect (manifest : TaskAuthorityManifest) (effect : String) : Bool :=
  match manifest.permittedEffects with
  | none => true
  | some patterns => patterns.any fun pattern =>
      effectMatches pattern.toList (strip effect).toList

/-- `bool(metadata.get("transition_ceiling", metadata.get("explicit")))`. -/
def isCeiling (manifest : TaskAuthorityManifest) : Bool :=
  if manifest.metadata.has "transition_ceiling" then
    (manifest.metadata.get "transition_ceiling").truthy
  else (manifest.metadata.get "explicit").truthy

def requestable (manifest : TaskAuthorityManifest) : List CapabilityEntry :=
  manifest.approvalPolicy.requestableCapabilities.getD []

def semanticRules (manifest : TaskAuthorityManifest) : List SemanticAutoApprovalRule :=
  manifest.approvalPolicy.semanticAutoApproval.getD []

end TaskAuthorityManifest

/-! ## Budgets -/

def continuousBudgetFields : List String :=
  ["max_runtime_seconds", "max_subprocess_wall_seconds", "max_subprocess_cpu_seconds"]

def budgetFieldNames : List String :=
  ["max_tool_calls", "max_child_processes", "max_runtime_seconds",
    "max_context_materialization_tokens", "max_context_materialization_total_tokens",
    "max_llm_calls", "max_llm_total_tokens", "max_subprocess_wall_seconds",
    "max_subprocess_cpu_seconds", "max_subprocess_memory_bytes", "max_external_read_bytes",
    "max_external_write_bytes", "max_jsonrpc_bytes", "max_mcp_bytes", "max_deno_syscalls"]

def validBudgetField (field : String) : Option ℚ → Bool
  | none => field != "max_context_materialization_tokens"
  | some value => decide (0 ≤ value) &&
      (continuousBudgetFields.contains field || value.den == 1)

/-- `_budget_dict`. -/
def budgetDict : Option Budget → Except AuthorityError Budget
  | none => .ok []
  | some budget => do
      ensure (∀ entry ∈ budget, entry.1 ∈ budgetFieldNames ∧
          validBudgetField entry.1 entry.2 = true)
        (.validation "invalid resource_budget")
      .ok budget

/-- `selected[key] = value`. -/
def Budget.set (budget : Budget) (field : String) (value : ℚ) : Budget :=
  (field, some value) :: budget.filter (·.1 ≠ field)

/-- One round of the loop of `_resolve_resource_budget`. -/
def lowerBudget (selected : Budget) (entry : String × Option ℚ) : Budget :=
  match entry.2 with
  | none => selected
  | some ceiling =>
      if (selected.get entry.1).all (ceiling < ·) then selected.set entry.1 ceiling else selected

def resolveResourceBudget (payload : LaunchPayload) (resourceBudget : Option Budget) :
    Except AuthorityError Budget := do
  let selected ← budgetDict resourceBudget
  match payload.resourceBudget with
  | none => .ok selected
  | some given => do
      let ceiling ← budgetDict given
      if resourceBudget.isNone then .ok ceiling else .ok (ceiling.foldl lowerBudget selected)

def requireBudgetAttenuated (parent child : Budget) : Except AuthorityError Unit :=
  parent.forM fun entry =>
    ensure (∀ limit ∈ entry.2, ∃ value ∈ child.get entry.1, value ≤ limit)
      (.denied ("derived child resource budget exceeds parent manifest: " ++ entry.1))

/-! ## Data flow -/

def dataFlowIdentities (label : String) (values : List String) :
    Except AuthorityError (List String) := do
  ensure (∀ raw ∈ values, raw ≠ "" ∧ raw = strip raw)
    (.validation ("data_flow_policy." ++ label ++ " entries must be non-empty canonical strings"))
  ensure (∀ raw ∈ values, raw ≠ "*" ∧ raw ≠ "mixed" ∧ raw.length ≤ 256 ∧
      Char.ofNat 0 ∉ raw.toList)
    (.validation ("data_flow_policy." ++ label ++ " cannot contain such an entry"))
  .ok (sortedKeys values.dedup)

def normalizeDataFlowPolicy (policy : Option DataFlowPolicy) :
    Except AuthorityError DataFlowPolicy := do
  let selected := policy.getD {}
  let allowedTenants ← dataFlowIdentities "allowed_tenants" selected.allowedTenants
  let allowedPrincipals ← dataFlowIdentities "allowed_principals" selected.allowedPrincipals
  .ok ⟨allowedTenants, allowedPrincipals⟩

def requireIdentitiesAttenuated (field : String) (parent child : List String) :
    Except AuthorityError Unit :=
  ensure (child ⊆ parent)
    (.denied ("child data_flow_policy cannot widen " ++ field ++ ": parent=" ++ listText parent ++
      " child=" ++ listText child))

def requireDataFlowPolicyAttenuated (parent child : DataFlowPolicy) : Except AuthorityError Unit := do
  requireIdentitiesAttenuated "allowed_tenants" parent.allowedTenants child.allowedTenants
  requireIdentitiesAttenuated "allowed_principals" parent.allowedPrincipals child.allowedPrincipals

/-! ## Approval policies -/

/-- `_SEMANTIC_AUTO_APPROVAL_OPERATIONS`: the kind and the rights of an operation. -/
def semanticAutoApprovalOperations : List (String × String × List String) :=
  [("filesystem.read", "filesystem", ["read"]), ("git.read", "git", ["read"]),
    ("git.diff", "git", ["diff"])]

/-- `[A-Za-z0-9][A-Za-z0-9._:-]{0,127}`. -/
def canonicalRuleId : List Char → Bool
  | [] => false
  | first :: rest => first.isAlphanum && decide (rest.length ≤ 127) &&
      rest.all fun c => c.isAlphanum || c == '.' || c == '_' || c == ':' || c == '-'

def ruleLabel (index : Nat) : String :=
  "approval_policy.semantic_auto_approval.rules[" ++ toString index ++ "]"

/-- `_semantic_auto_approval_rights` of a rule. -/
def semanticAutoApprovalRights (label : String) (rights : List String) :
    Except AuthorityError (List String) := do
  ensure (∀ right ∈ rights, right ∈ capabilityRights)
    (.validation (label ++ " contains an unknown right"))
  ensure (rights ≠ []) (.validation (label ++ " must not be empty"))
  ensure rights.Nodup (.validation (label ++ " must not contain duplicates"))
  .ok (sortedKeys rights)

def normalizeSemanticAutoApprovalRule (rule : SemanticAutoApprovalRule) (index : Nat) :
    Except AuthorityError SemanticAutoApprovalRule := do
  let label := ruleLabel index
  ensure (canonicalRuleId rule.ruleId.toList = true)
    (.validation (label ++ ".rule_id must be a canonical Host rule identifier"))
  match semanticAutoApprovalOperations.lookup rule.authorityOperation with
  | none =>
      invalid ("unsupported semantic auto-approval authority_operation: " ++
        rule.authorityOperation)
  | some (expectedKind, allowedRights) => do
      ensure (rule.resource = strip rule.resource)
        (.validation (label ++ ".resource must be a canonical string"))
      match ResourceAuthority.parse rule.resource false with
      | .error denied => invalid ("invalid " ++ label ++ ".resource: " ++ denied.message)
      | .ok pattern => do
          ensure (pattern.raw = rule.resource.toList)
            (.validation (label ++ ".resource must be canonical"))
          ensure (pattern.kind = expectedKind.toList)
            (.validation (label ++ ".resource kind must be '" ++ expectedKind ++ "' for " ++
              rule.authorityOperation))
          let rights ← semanticAutoApprovalRights (label ++ ".rights") rule.rights
          ensure (rights ⊆ allowedRights)
            (.validation (label ++ ".rights are unsupported for " ++ rule.authorityOperation ++
              ": " ++ listText rights))
          .ok { rule with rights := rights }

/-- The loop of `_normalize_semantic_auto_approval_policy`, from an index on. -/
def normalizeSemanticRules : Nat → List SemanticAutoApprovalRule → List SemanticAutoApprovalRule →
    Except AuthorityError (List SemanticAutoApprovalRule)
  | _, seen, [] => .ok seen
  | index, seen, raw :: rest => do
      let rule ← normalizeSemanticAutoApprovalRule raw index
      ensure (∀ other ∈ seen, other.ruleId ≠ rule.ruleId)
        (.validation ("approval_policy.semantic_auto_approval contains duplicate rule_id: " ++
          rule.ruleId))
      normalizeSemanticRules (index + 1) (seen ++ [rule]) rest

def normalizeSemanticAutoApprovalPolicy (rules : Option (List SemanticAutoApprovalRule)) :
    Except AuthorityError (List SemanticAutoApprovalRule) := do
  let selected ← normalizeSemanticRules 0 [] (rules.getD [])
  .ok (selected.insertionSort (·.ruleId ≤ ·.ruleId))

/-- The entry that a rule is compared as. -/
def SemanticAutoApprovalRule.spec (rule : SemanticAutoApprovalRule) : CapabilityEntry :=
  { resource := rule.resource, rights := rule.rights }

/-- `{**parent, **supplied}`. -/
def mergeMapping (parent supplied : Dict) : Dict :=
  parent.filter (fun entry => !supplied.has entry.1) ++ supplied

def requirePolicyMappingAttenuated (parent child : Dict) : Except AuthorityError Unit := do
  let extra := sortedKeys ((child.map Prod.fst).filter fun key => !parent.has key)
  ensure (extra = [])
    (.denied ("derived child approval_policy cannot add policy keys outside parent ceiling: " ++
      listText extra))
  parent.forM fun entry =>
    ensure ((child.get entry.1).eq entry.2 = true)
      (.denied ("derived child approval_policy cannot replace parent policy key: " ++ entry.1))

section Launch
variable (engine : Engine) (config : CapabilityConfig)

def approvalPolicyForLaunch (parent : Option TaskAuthorityManifest) (payload : LaunchPayload) :
    Except AuthorityError ApprovalPolicy := do
  let parentPolicy : ApprovalPolicy := (parent.map (·.approvalPolicy)).getD {}
  let suppliedPolicy : ApprovalPolicy := payload.approvalPolicy.join.getD {}
  -- a semantic policy is never inherited
  let semantic ← optionally (normalizeSemanticAutoApprovalPolicy ∘ some)
    suppliedPolicy.semanticAutoApproval
  let requestable ← optionally (normalizeRequestableSpecs engine config)
    (suppliedPolicy.requestableCapabilities.or parentPolicy.requestableCapabilities)
  .ok ⟨requestable, semantic, mergeMapping parentPolicy.other suppliedPolicy.other⟩

def requireRequestableCapabilitiesAttenuated (parent : TaskAuthorityManifest)
    (childPolicy : ApprovalPolicy) : Except AuthorityError Unit := do
  let parentRequestable ← normalizeRequestableSpecs engine config parent.requestable
  let childRequestable ← normalizeRequestableSpecs engine config
    (childPolicy.requestableCapabilities.getD [])
  childRequestable.forM (requireSpecCovered engine config "derived child requestable capability"
    (parent.authorizedCapabilities ++ parentRequestable))

def requireRuleAttenuated (parentRules : List SemanticAutoApprovalRule)
    (childRule : SemanticAutoApprovalRule) : Except AuthorityError Unit :=
  match parentRules.find? (·.ruleId = childRule.ruleId) with
  | none =>
      .error (.denied ("derived child semantic_auto_approval cannot add rule_id " ++
        "outside parent ceiling: " ++ childRule.ruleId))
  | some parentRule => do
      ensure (childRule.authorityOperation = parentRule.authorityOperation)
        (.denied ("derived child semantic_auto_approval cannot change " ++
          "authority_operation for rule_id " ++ childRule.ruleId))
      if ← specCovers engine config parentRule.spec childRule.spec then .ok ()
      else .error (.denied ("derived child semantic_auto_approval cannot widen resource or " ++
        "rights for rule_id " ++ childRule.ruleId))

def requireSemanticAutoApprovalAttenuated (parent child : Option (List SemanticAutoApprovalRule)) :
    Except AuthorityError Unit := do
  let parentRules ← normalizeSemanticAutoApprovalPolicy parent
  let childRules ← normalizeSemanticAutoApprovalPolicy child
  childRules.forM (requireRuleAttenuated engine config parentRules)

/-! ## Expiry -/

/-- `_expiry_datetime`. -/
def expiryDatetime (text : String) : Except AuthorityError Int :=
  match engine.fromisoformat (text.replace "Z" "+00:00") with
  | none => .error (.raised .valueError)
  | some parsed => .ok parsed.micros

/-- `_optional_expiry`. -/
def optionalExpiry (label : String) : Option String → Except AuthorityError (Option String) :=
  optionally (requiredExpiry engine label)

def requireExpiryAttenuated : Option String → Option String → Except AuthorityError Unit
  | none, _ => .ok ()
  | some _, none => .error (.denied "derived child manifest expiry exceeds parent manifest")
  | some parent, some child => do
      let bound ← expiryDatetime engine child
      let limit ← expiryDatetime engine parent
      ensure (bound ≤ limit) (.denied "derived child manifest expiry exceeds parent manifest")

/-! ## Launches -/

/-- The arguments of a launch, with the capabilities that its image requires. -/
structure LaunchRequest where
  pid : String
  imageId : String
  imageRequired : List CapabilityEntry
  goalRef : Option String
  supplied : Supplied
  authorizedCapabilities : List CapabilityEntry
  resourceBudget : Option Budget
  issuedBy : String
  launchAuthorityMode : String
  manifestId : String
  createdAt : String

/-- `_missing_required_capabilities`. -/
def missingRequiredCapabilities (authorized required : List CapabilityEntry) :
    Except AuthorityError (List CapabilityEntry) :=
  match required with
  | [] => .ok []
  | spec :: rest => do
      let covered ← anyCovers engine config authorized spec
      let missing ← missingRequiredCapabilities authorized rest
      .ok (if covered then missing else spec :: missing)

/-- The checks that only a ceiling makes before the policies are read. -/
def requireWithinCeiling (parent : TaskAuthorityManifest) (declared : List CapabilityEntry) :
    Except AuthorityError Unit :=
  declared.forM
    (requireSpecCovered engine config "derived child authority" parent.authorizedCapabilities)

/-- The checks that only a ceiling makes once the policies are read. -/
def requirePoliciesWithinCeiling (parent : TaskAuthorityManifest)
    (permittedEffects : Option (List String)) (approvalPolicy : ApprovalPolicy) :
    Except AuthorityError Unit := do
  requireEffectsAttenuated parent.permittedEffects permittedEffects
  requireRequestableCapabilitiesAttenuated engine config parent approvalPolicy
  requirePolicyMappingAttenuated parent.approvalPolicy.other approvalPolicy.other

/-- The checks that every parent makes. -/
def requireWithinParent (parent : TaskAuthorityManifest) (parentDataFlow dataFlow : DataFlowPolicy)
    (approvalPolicy : ApprovalPolicy) (expiresAt : Option String) : Except AuthorityError Unit := do
  requireSemanticAutoApprovalAttenuated engine config parent.approvalPolicy.semanticAutoApproval
    approvalPolicy.semanticAutoApproval
  requireDataFlowPolicyAttenuated parentDataFlow dataFlow
  requireExpiryAttenuated engine parent.expiresAt expiresAt

/-- A supplied object has to cover what the launch asks for beside it. -/
def requireLaunchRequest (payload : LaunchPayload) (declared requested : List CapabilityEntry) :
    Except AuthorityError Unit :=
  if payload.present = true then
    requested.forM (requireSpecCovered engine config "launch request" declared)
  else .ok ()

def dataFlowPolicyForLaunch (parentDataFlow : DataFlowPolicy) (payload : LaunchPayload) :
    Except AuthorityError DataFlowPolicy :=
  match payload.dataFlowPolicy with
  | none => .ok parentDataFlow
  | some given => normalizeDataFlowPolicy given

/-- What a launch puts over the metadata of its payload. -/
def launchMetadata (request : LaunchRequest) (ceiling : Bool) : Dict :=
  mergeMapping ((launchPayload request.supplied).metadata.join.getD [])
    [("launch_authority_mode", .str request.launchAuthorityMode),
      ("explicit", .bool request.supplied.isPresent),
      ("transition_ceiling", .bool (request.supplied.isPresent || ceiling)),
      ("agent_libos_permitted_effects_policy_schema_version", .int 2)]

/-- `prepare_launch` with the manifest that `get_for_process` finds for the parent. -/
def prepareLaunch (parent : Option TaskAuthorityManifest) (request : LaunchRequest) :
    Except AuthorityError TaskAuthorityManifest := do
  let requiredCapabilities ← normalizeSpecs engine config request.imageRequired
  let requested ← normalizeSpecs engine config request.authorizedCapabilities
  let payload := launchPayload request.supplied
  let declared ← normalizeSpecs engine config (payload.authorizedCapabilities.getD requested)
  requireLaunchRequest engine config payload declared requested
  let ceiling := parent.any (·.isCeiling)
  let above := parent.filter (·.isCeiling)
  above.forM (requireWithinCeiling engine config · declared)
  let resourceBudget ← resolveResourceBudget payload request.resourceBudget
  above.forM (requireBudgetAttenuated ·.resourceBudget resourceBudget)
  let approvalPolicy ← approvalPolicyForLaunch engine config parent payload
  let permittedEffects ← effectClasses
    (payload.permittedEffects.getD (parent.bind (·.permittedEffects)))
  let parentDataFlow ← normalizeDataFlowPolicy (parent.map (·.dataFlowPolicy))
  let dataFlowPolicy ← dataFlowPolicyForLaunch parentDataFlow payload
  let expiresAt ← optionalExpiry engine "expires_at"
    (payload.expiresAt.or (parent.bind (·.expiresAt)))
  above.forM (requirePoliciesWithinCeiling engine config · permittedEffects approvalPolicy)
  parent.forM
    (requireWithinParent engine config · parentDataFlow dataFlowPolicy approvalPolicy expiresAt)
  let _ ← missingRequiredCapabilities engine config declared requiredCapabilities
  .ok
    { manifestId := request.manifestId
      pid := request.pid
      imageId := request.imageId
      goalRef := request.goalRef
      authorizedCapabilities := declared
      requiredCapabilities := requiredCapabilities
      permittedEffects := permittedEffects
      resourceBudget := resourceBudget
      approvalPolicy := approvalPolicy
      dataFlowPolicy := dataFlowPolicy
      expiresAt := expiresAt
      issuedBy := (payload.issuedBy.filter (· ≠ "")).getD request.issuedBy
      parentManifestId := parent.map (·.manifestId)
      metadata := launchMetadata request ceiling
      createdAt := request.createdAt }

end Launch
end AgentLibOS.Manifests
