import AgentLibOS.Capability.Value

namespace AgentLibOS.Capability

/-! ## Effect digests -/

def transientKeys : List String :=
  ["sandbox_profile", "capability_ids", "selected_capability_id", "matched_capability_ids",
    "request_id", "human_request_id", "policy", "policy_level", "policy_reason", "grant_scope",
    "working_directory", "workspace_root", "high_risk", "matched_rule", "rpc_method", "mcp_name",
    "transport", "risk", "rule_id", "rule_effect", "reason"]

/-- The facts of a context that an approval binds. The digest sorts the keys. -/
def canonicalEffectPayload (context : Dict) : Dict :=
  context.filter fun entry => entry.1 ∉ transientKeys &&
    !"_preview".toList.isSuffixOf entry.1.toList && !"_observation".toList.isSuffixOf entry.1.toList

def canonicalEffectHash (engine : Engine) (context : Dict) : Except Raised String :=
  engine.sha256Json (.dict (canonicalEffectPayload context))

/-! ## Field checks -/

def Value.typeName : Value → String
  | .none => "NoneType"
  | .bool _ => "bool"
  | .int _ => "int"
  | .float _ => "float"
  | .str _ => "str"
  | .list _ => "list"
  | .dict _ => "dict"

def checkText (label : String) (value : Value) (maxChars : Nat) : Except String String :=
  let message := label ++ " must be non-empty, trimmed, NUL-free, and at most " ++
    toString maxChars ++ " characters"
  match value with
  | .str text =>
      if text = "" ∨ text ≠ strip text ∨ maxChars < text.length ∨ '\x00' ∈ text.toList then
        .error message
      else .ok text
  | _ => .error message

def checkInt (label : String) (value : Value) (least : Int) (kind : String) :
    Except String Int :=
  match value with
  | .int number => if number < least then .error (label ++ kind) else .ok number
  | _ => .error (label ++ kind)

def checkSha256 (message : String) : Value → Except String Unit
  | .str text => if isSha256 text then .ok () else .error message
  | _ => .error message

def checkOptional (check : Value → Except String Unit) (value : Value) : Except String Unit :=
  if value.isNone then .ok () else check value

/-! ## Semantic approval bindings -/

def semanticBindingKeys : List String :=
  ["schema_version", "request_id", "request_revision", "pid", "operation_id", "effect_id",
    "authority_operation", "resource", "right", "canonical_args_hash", "target_state_version",
    "manifest_id", "manifest_sha256", "ceiling_sha256", "policy_epoch_id", "policy_epoch_sha256",
    "control_generation", "assessment_id", "assessment_sha256", "classifier_profile_sha256",
    "classifier_model_sha256", "tenant_bucket_sha256", "source_labels_sha256",
    "source_refs_sha256", "flow_snapshot_sha256", "sink_identity_sha256", "tool_schema_sha256",
    "provider_spec_sha256", "nonce", "issued_at", "expires_at"]

/-- `SEMANTIC_ACTION_CATALOG_V1`. -/
def semanticActionCatalog : List (String × List String) :=
  [("filesystem.read", ["read"]), ("git.read", ["read"]), ("git.diff", ["diff"])]

def semanticTexts : List String :=
  ["request_id", "pid", "effect_id", "manifest_id", "policy_epoch_id", "assessment_id", "nonce"]

def semanticDigests : List String :=
  ["canonical_args_hash", "manifest_sha256", "ceiling_sha256", "policy_epoch_sha256",
    "assessment_sha256", "classifier_profile_sha256", "classifier_model_sha256",
    "tenant_bucket_sha256", "source_labels_sha256", "source_refs_sha256", "flow_snapshot_sha256"]

def semanticOptionalDigests : List String :=
  ["sink_identity_sha256", "tool_schema_sha256", "provider_spec_sha256"]

def timestampValue (engine : Engine) (label : String) (value : Value) : Except String Int := do
  let text ← checkText label value 64
  match engine.fromisoformat (text.replace "Z" "+00:00") with
  | none => .error (label ++ " must be an ISO-8601 timestamp")
  | some parsed =>
      if parsed.aware then pure parsed.micros
      else .error (label ++ " must include a timezone")

/-- The operation, resource and right of a binding. Every operation of the catalog has the syntax
of an action. -/
def checkSemanticAction (value : Dict) : Except String Unit := do
  match value.get "authority_operation" with
  | .str operation =>
      match semanticActionCatalog.lookup operation with
      | none => .error "semantic binding authority_operation must be in action catalog v1"
      | some rights =>
          let resource ← checkText "semantic binding resource" (value.get "resource") 2048
          let kind := resource.toList.takeWhile (· != ':')
          let body := (resource.toList.dropWhile (· != ':')).tail
          if '*' ∈ resource.toList then .error "semantic binding resource must be exact"
          else if kind = [] ∨ body = [] ∨ kind ≠ operation.toList.takeWhile (· != '.') then
            .error "semantic binding resource kind must match the authority operation"
          else match value.get "right" with
            | .str right =>
                if right ∈ rights then pure ()
                else .error "semantic binding right must be the catalog's exact operation right"
            | other =>
                if other.hashable then
                  .error "semantic binding right must be the catalog's exact operation right"
                else .error ("unhashable type: '" ++ other.typeName ++ "'")
  | other => .error ("expected string or bytes-like object, got '" ++ other.typeName ++ "'")

def checkSemanticTarget : Value → Except String Unit
  | .none => .ok ()
  | .str text => do
      let _ ← checkText "semantic binding target_state_version" (.str text) 512
  | .int number => do
      let _ ← checkInt "semantic binding target_state_version" (.int number) 0
        " must be a non-negative integer"
  | _ => .error "semantic binding target_state_version must be a string, integer, or null"

/-- `SemanticApprovalBindingV2.from_dict(value).to_dict()`. -/
def semanticBinding (engine : Engine) (value : Dict) : Except String Dict := do
  let label := fun key => "semantic binding " ++ key
  let lowercase := " must be a lowercase SHA-256 digest"
  if value.any (fun entry => entry.1 ∉ semanticBindingKeys) ∨
      semanticBindingKeys.any (fun key => !value.has key) then
    .error ("semantic approval binding v2 fields must be exactly " ++
      engine.repr (.list ((sortedKeys semanticBindingKeys).map .str)) ++ "; got " ++
      engine.repr (.list ((sortedKeys (value.map Prod.fst)).map .str)))
  else
    semanticTexts.forM fun key => do
      let _ ← checkText (label key) (value.get key) 512
    checkOptional (fun operation => do
      let _ ← checkText (label "operation_id") operation 512) (value.get "operation_id")
    let _ ← checkInt (label "request_revision") (value.get "request_revision") 0
      " must be a non-negative integer"
    let _ ← checkInt (label "control_generation") (value.get "control_generation") 1
      " must be a positive integer"
    checkSemanticAction value
    semanticDigests.forM fun key => checkSha256 (label key ++ lowercase) (value.get key)
    semanticOptionalDigests.forM fun key =>
      checkOptional (checkSha256 (label key ++ lowercase)) (value.get key)
    checkSemanticTarget (value.get "target_state_version")
    let issued ← timestampValue engine (label "issued_at") (value.get "issued_at")
    let expires ← timestampValue engine (label "expires_at") (value.get "expires_at")
    if expires ≤ issued then .error "semantic binding expires_at must be after issued_at"
    else if 300000000 < expires - issued then
      .error "semantic binding lifetime must not exceed 300 seconds"
    else pure (semanticBindingKeys.map fun key => (key, value.get key))

/-! ## Approval bindings -/

def legacyBindingFields : List String :=
  ["effect_id", "canonical_args_hash", "target_state_version"]

def isSemanticApprovalBinding : Value → Bool
  | .dict entries => match Dict.get entries "schema_version" with
    | .int version => version == 2
    | _ => false
  | _ => false

def legacyBinding (value : Dict) : Except String Dict :=
  let unknown := sortedKeys ((value.map Prod.fst).filter (· ∉ legacyBindingFields))
  let missing := sortedKeys (legacyBindingFields.filter fun key => !value.has key)
  if missing ≠ [] then
    .error ("approval binding is missing fields: " ++ ", ".intercalate missing)
  else if unknown ≠ [] then
    .error ("approval binding contains unknown fields: " ++ ", ".intercalate unknown)
  else match value.get "effect_id", value.get "canonical_args_hash" with
    | .str effect, .str hash =>
        let version := value.get "target_state_version"
        match version with
        | .none | .str _ | .int _ =>
            let effectId := strip effect
            let argsHash := String.ofList ((strip hash).toList.map Char.toLower)
            if !"eff_".toList.isPrefixOf effectId.toList then
              .error "approval binding requires a planned external effect id"
            else if !isSha256 argsHash then
              .error "approval binding requires a canonical SHA-256 argument hash"
            else .ok [("effect_id", .str effectId), ("canonical_args_hash", .str argsHash),
              ("target_state_version", version)]
        | _ =>
            .error "approval binding target_state_version must be a string, integer, or null"
    | .str _, _ => .error "approval binding canonical_args_hash must be a string"
    | _, _ => .error "approval binding effect_id must be a string"

def normalizeApprovalBinding (engine : Engine) (value : Value) : Except String Dict :=
  match value with
  | .dict entries =>
      if isSemanticApprovalBinding value then semanticBinding engine entries
      else legacyBinding entries
  | _ => .error "approval binding must be an object"

/-! ## Data release bindings -/

def releaseBindingFields : List String :=
  ["schema_version", "sink", "sink_identity_sha256", "trust_id", "trust_hash",
    "registry_generation", "manifest_hash", "labels_hash", "source_refs_hash", "payload_hash",
    "operation", "target_state_version"]

def requireText (name : String) (value : Value) : Except String String :=
  let message := name ++ " must be a non-empty string without control characters"
  match value with
  | .str text =>
      if strip text = "" ∨ text.toList.any (fun c => c.toNat < 32 || c.toNat == 127) then
        .error message
      else .ok text
  | _ => .error message

/-- `DataSink(identity, identity_sha256)`. -/
def checkSink (identity digest : Value) : Except String Unit := do
  let text ← requireText "sink identity" identity
  if '*' ∈ text.toList then .error "concrete sink identity must not contain wildcards"
  else if text ≠ strip text ∨ ':' ∉ text.toList then
    .error "sink identity must be a canonical namespaced value"
  else if text.toList.takeWhile (· != ':') = [] ∨
      (text.toList.dropWhile (· != ':')).tail = [] then
    .error "sink identity must include a non-empty namespace and target"
  else
    let message := "sink identity_sha256 must be a lowercase SHA-256 hex digest"
    checkOptional (checkSha256 message) digest

/-- `DataReleaseBinding.normalize`. -/
def normalizeDataReleaseBinding (engine : Engine) : Value → Except String Dict
  | .dict entries => do
      let value : Dict := entries
      let unknown := sortedKeys ((value.map Prod.fst).filter (· ∉ releaseBindingFields))
      if unknown ≠ [] then
        .error ("data release binding contains unknown fields: " ++
          engine.repr (.list (unknown.map .str)))
      else
        let version := (value.lookup "schema_version").getD (.int 1)
        match version with
        | .int 1 => pure ()
        | other =>
            .error ("unsupported data release binding schema_version: " ++ engine.str other)
        checkSink (value.get "sink") (value.get "sink_identity_sha256")
        ["trust_id", "operation"].forM fun name => do
          let _ ← requireText name (value.get name)
        ["trust_hash", "manifest_hash", "labels_hash", "source_refs_hash", "payload_hash"].forM
          fun name =>
            checkSha256 (name ++ " must be a lowercase SHA-256 hex digest") (value.get name)
        let _ ← checkInt "registry_generation" (value.get "registry_generation") 0
          " must be a non-negative integer"
        match value.get "target_state_version" with
        | .none | .str _ | .int _ =>
            pure (("schema_version", version) ::
              releaseBindingFields.tail.map fun key => (key, value.get key))
        | _ => .error "target_state_version must be a string, integer, or null"
  | _ => .error "data release binding must be an object"

end AgentLibOS.Capability
