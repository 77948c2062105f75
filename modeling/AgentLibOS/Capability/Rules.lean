import AgentLibOS.Capability.Bindings

namespace AgentLibOS.Capability

inductive CapabilityEffect
  | allow | deny | ask
  deriving DecidableEq, Repr

inductive AuthorityRisk
  | harmless | low | medium | high | destructive
  deriving DecidableEq, Repr

def CapabilityEffect.value : CapabilityEffect → String
  | .allow => "allow"
  | .deny => "deny"
  | .ask => "ask"

def CapabilityEffect.parse (text : String) : Option CapabilityEffect :=
  [CapabilityEffect.allow, .deny, .ask].find? fun effect => effect.value == text

def AuthorityRisk.value : AuthorityRisk → String
  | .harmless => "harmless"
  | .low => "low"
  | .medium => "medium"
  | .high => "high"
  | .destructive => "destructive"

def AuthorityRisk.parse (text : String) : Option AuthorityRisk :=
  [AuthorityRisk.harmless, .low, .medium, .high, .destructive].find? fun risk => risk.value == text

structure AuthorityRule where
  ruleId : String
  operation : String
  effect : CapabilityEffect
  risk : AuthorityRisk
  conditions : Dict
  description : String

/-! ## Rule codec -/

namespace AuthorityRuleCodec

def authorityRuleFields : List String :=
  ["rule_id", "operation", "effect", "risk", "conditions", "description"]

def string (value : Value) (field : String) : Except String String :=
  let message := "authority rule " ++ field ++ " must be a non-empty string"
  match value with
  | .str text => if strip text = "" then .error message else .ok (strip text)
  | _ => .error message

def enumeration {α : Type} (engine : Engine) (parse : String → Option α) (typeName : String)
    (value : Value) : Except String α :=
  match parse (engine.str value) with
  | some member => .ok member
  | none => .error ("invalid authority rule: " ++ engine.repr (.str (engine.str value)) ++
      " is not a valid " ++ typeName)

def coerce (engine : Engine) : Value → Except String AuthorityRule
  | .dict entries => do
      let value : Dict := entries
      let unknown := sortedKeys ((value.map Prod.fst).filter (· ∉ authorityRuleFields))
      if unknown ≠ [] then
        .error ("authority rule has unknown fields: " ++ ", ".intercalate unknown)
      else
        let conditions : Dict ← match value.get "conditions" with
          | .none => pure []
          | .dict conditions => pure conditions
          | _ => .error "authority rule conditions must be a mapping"
        let ruleId ← string (value.get "rule_id") "rule_id"
        let operation ← string (value.get "operation") "operation"
        let effect ← enumeration engine CapabilityEffect.parse "CapabilityEffect"
          ((value.lookup "effect").getD (.str "ask"))
        let risk ← enumeration engine AuthorityRisk.parse "AuthorityRisk"
          ((value.lookup "risk").getD (.str "medium"))
        let description := value.get "description"
        pure ⟨ruleId, operation, effect, risk, conditions,
          if description.truthy then engine.str description else ""⟩
  | _ => .error "authority rule must be a mapping"

def coerceMany (engine : Engine) : Value → Except String (List AuthorityRule)
  | .none => .ok []
  | .list items => items.mapM (coerce engine)
  | _ => .error "authority rules must be a list"

def toJson (rule : AuthorityRule) : Value :=
  .dict [("rule_id", .str rule.ruleId), ("operation", .str rule.operation),
    ("effect", .str rule.effect.value), ("risk", .str rule.risk.value),
    ("conditions", .dict rule.conditions), ("description", .str rule.description)]

end AuthorityRuleCodec

/-! ## Rule conditions -/

def stringRuleConditions : List String :=
  ["operation", "authority_operation", "argv_sha256", "cwd", "path", "resource", "right",
    "endpoint_id", "method_id", "rpc_method", "params_sha256", "server_id", "transport", "tool_id",
    "mcp_name", "arguments_sha256", "registry_spec_sha256", "content_sha256", "network",
    "filesystem_intent", "image_id", "git_remote", "git_remote_ref", "git_url_fingerprint",
    "git_expected_state_token", "git_old_oid"]

def integerRuleConditions : List String := ["registry_generation"]

def booleanRuleConditions : List String :=
  ["continuous_session", "recursive", "missing_ok", "overwrite", "parents", "exist_ok"]

def directRuleConditions : List String :=
  sortedKeys (stringRuleConditions.filter (· ∉ ["operation", "authority_operation"]) ++
    booleanRuleConditions ++ integerRuleConditions)

def allowedRuleConditions : List String :=
  stringRuleConditions ++ booleanRuleConditions ++ integerRuleConditions ++
    ["argv", "match", "regex_token", "timeout_s", "timeout_max_s"]

structure RegexLimits where
  patternMaxBytes : Nat := 1024
  tokenMaxBytes : Nat := 4096

section Conditions
variable (engine : Engine) (limits : RegexLimits)

def unknownAuthorityRuleConditions (rule : AuthorityRule) : List String :=
  sortedKeys ((rule.conditions.map Prod.fst).filter (· ∉ allowedRuleConditions))

def validRegex : Value → Bool
  | .str pattern => pattern.utf8ByteSize ≤ limits.patternMaxBytes && engine.regexCompiles pattern
  | _ => false

def finiteNonnegativeTimeout (value : Value) : Except Raised (Option ℚ) :=
  if value.isBool then .ok none
  else do
    match ← engine.float value with
    | some (.finite selected) => pure (if 0 ≤ selected then some selected else none)
    | _ => pure none

def malformedTypedConditions (conditions : Dict) : List String :=
  let ill := fun (keys : List String) (well : Value → Bool) =>
    keys.filter fun key => conditions.has key && !well (conditions.get key)
  ill stringRuleConditions Value.isStr ++ ill booleanRuleConditions Value.isBool ++
    ill integerRuleConditions fun
      | .int value => 0 ≤ value
      | _ => false

def malformedArgv (conditions : Dict) : List String :=
  if conditions.has "argv" && (conditions.get "argv").strings.isNone then ["argv"] else []

/-- A list or mapping under `match` cannot be looked up in the set of match kinds. -/
def malformedMatch (conditions : Dict) : Except Raised (List String) :=
  if conditions.has "match" then
    if conditions.has "argv" then
      if (conditions.get "match").hashable then
        match conditions.get "match" with
        | .str "exact" | .str "prefix" => .ok []
        | _ => .ok ["match"]
      else .error .typeError
    else .ok ["match"]
  else .ok []

def malformedTimeout (conditions : Dict) (key : String) : Except Raised (List String) := do
  if conditions.has key then
    match ← finiteNonnegativeTimeout engine (conditions.get key) with
    | some _ => pure []
    | none => pure [key]
  else pure []

def malformedAuthorityRuleConditions (rule : AuthorityRule) : Except Raised (List String) := do
  let conditions := rule.conditions
  let typed := malformedTypedConditions conditions
  let argv := malformedArgv conditions
  let kind ← malformedMatch conditions
  let regex :=
    if conditions.has "regex_token" && !validRegex engine limits (conditions.get "regex_token")
    then ["regex_token"] else []
  let timeout ← malformedTimeout engine conditions "timeout_s"
  let timeoutMax ← malformedTimeout engine conditions "timeout_max_s"
  pure (sortedKeys (typed ++ argv ++ kind ++ regex ++ timeout ++ timeoutMax).dedup)

/-! ## Rule matching -/

def argvConditionMatches (conditions context : Dict) : Bool :=
  match (conditions.get "argv").strings, (context.get "argv").strings with
  | some expected, some actual =>
      let kind := if conditions.has "match" then engine.str (conditions.get "match") else "exact"
      if kind = "exact" then actual == expected
      else kind == "prefix" && expected.isPrefixOf actual
  | _, _ => false

/-- The loop over the tokens; `none` is a match left undecided. -/
def regexMatchesTokens (pattern : String) : Nat → List String → Option Bool
  | _, [] => some false
  | earlier, token :: rest =>
      match engine.regexFullmatch pattern earlier token with
      | none => none
      | some true => some true
      | some false => regexMatchesTokens pattern (earlier + 1) rest

def regexMatchesAnyToken (pattern : String) (argv : List Value) : Option Bool :=
  match (Value.list argv).strings with
  | none => some false
  | some tokens =>
      if tokens.any fun token => limits.tokenMaxBytes < token.utf8ByteSize then some false
      else regexMatchesTokens engine pattern 0 tokens

def timeoutConditionsMatch (conditions context : Dict) : Except Raised Bool := do
  let exactly ←
    if conditions.has "timeout_s" then
      match ← finiteNonnegativeTimeout engine (context.get "timeout_s"),
          ← finiteNonnegativeTimeout engine (conditions.get "timeout_s") with
      | some actual, some expected => pure (actual == expected)
      | _, _ => pure false
    else pure true
  if exactly && conditions.has "timeout_max_s" then
    match ← finiteNonnegativeTimeout engine (context.get "timeout_s"),
        ← finiteNonnegativeTimeout engine (conditions.get "timeout_max_s") with
    | some actual, some maximum => pure (actual ≤ maximum)
    | _, _ => pure false
  else pure exactly

def sameText (conditions context : Dict) (key : String) : Bool :=
  !conditions.has key || engine.str (context.get key) == engine.str (conditions.get key)

/-- Whether the `regex_token` condition holds; `none` when the bounded match is left undecided. -/
def regexConditionMatches (conditions context : Dict) : Option Bool :=
  match conditions.get "regex_token", context.get "argv" with
  | .str pattern, .list argv =>
      if validRegex engine limits (.str pattern) then regexMatchesAnyToken engine limits pattern argv
      else some false
  | .str _, _ => some false
  | _, _ => some true

def directConditionsMatch (conditions context : Dict) : Bool :=
  directRuleConditions.all fun key =>
    !conditions.has key || (context.get key).eq (conditions.get key)

def authorityRuleMatches (rule : AuthorityRule) (context : Dict) : Except Raised Bool := do
  let conditions := rule.conditions
  if !sameText engine conditions context "operation" ||
      !sameText engine conditions context "authority_operation" ||
      (conditions.has "argv" && !argvConditionMatches engine conditions context) then pure false
  else match regexConditionMatches engine limits conditions context with
    | some false => pure false
    | regex =>
        if !directConditionsMatch conditions context then pure false
        else if !(← timeoutConditionsMatch engine conditions context) then pure false
        -- an undecided match never turns a denial into a permission
        else pure (regex.isSome || rule.effect == .deny || rule.effect == .ask)

end Conditions

end AgentLibOS.Capability
