import AgentLibOS.Capability.Evaluator
import AgentLibOS.Capability.Resources
import Mathlib.Data.List.Dedup

set_option linter.dupNamespace false

namespace AgentLibOS.Capability
open Library.Run

structure CapabilityConfig where
  defaultDelegationDepth : Nat := 4
  maxRightsPerCapability : Nat := 16
  maxConstraintsBytes : Nat := 16384
  regex : RegexLimits := {}

inductive AuthorityError
  | denied (message : String)
  | validation (message : String)
  | lease (error : LeaseError)
  | raised (error : Raised)

/-- A spec as `_coerce_spec` leaves it. -/
structure CapabilitySpec where
  resource : String
  rights : List String
  effect : CapabilityEffect
  constraints : Dict
  expiresAt : Option Int
  usesRemaining : Option Nat
  delegable : Bool
  revocable : Bool
  maxDelegationDepth : Option Nat

/-- The columns of a capability row that no lifecycle step writes. -/
structure Grant where
  rights : List String
  constraints : Dict
  issuedAt : String
  expiresAt : Option Int
  delegable : Bool
  effect : CapabilityEffect
  parentCapId : Option String
  delegationDepth : Nat
  maxDelegationDepth : Option Nat

structure AuthorityStore where
  rows : CapabilityStore
  grants : String → Option Grant
  capIds : List String
  known : ∀ capId, (grants capId).isSome = true → (rows.capabilities capId).isSome = true
  listed : ∀ capId, capId ∈ capIds ↔ (grants capId).isSome = true

structure CapabilityDraft where
  subject : String
  resource : String
  revocable : Bool
  usesRemaining : Option Nat
  grant : Grant
  positive : usesRemaining ≠ some 0

namespace Capability

def active (cap : Capability) : Bool := cap.status == .active

def isExpired (cap : Capability) (now : Int) : Bool := cap.expiresAt.any (· ≤ now)

end Capability

namespace AuthorityStore
variable (store : AuthorityStore)

def getCapability (capId : String) : Option Capability := do
  let row ← store.rows.capabilities capId
  let grant ← store.grants capId
  pure
    { capId := capId, subject := row.subject, resource := row.resource, rights := grant.rights
      constraints := grant.constraints, issuedAt := grant.issuedAt, expiresAt := grant.expiresAt
      delegable := grant.delegable, revocable := row.revocable, effect := grant.effect
      parentCapId := grant.parentCapId, delegationDepth := grant.delegationDepth
      maxDelegationDepth := grant.maxDelegationDepth, usesRemaining := row.usesRemaining
      status := row.status }

def capabilitiesFor (subject : String) : List Capability :=
  (store.capIds.filterMap store.getCapability).filter fun cap => cap.subject == subject

/-! ## Parent chains -/

/-- The loop of `_parent_chain_active`. Every round sees a further row of the store, so the number
of rows is fuel enough. -/
def chainActive (now : Int) : Nat → List String → Option String → Bool
  | _, _, none => true
  | 0, _, some _ => false
  | fuel + 1, seen, some parentId =>
      if parentId ∈ seen then false
      else match store.getCapability parentId with
        | none => false
        | some parent =>
            if !parent.active || parent.isExpired now then false
            else chainActive now fuel (parentId :: seen) parent.parentCapId

def parentChainActive (now : Int) (cap : Capability) : Bool :=
  store.chainActive now (store.capIds.length + 1) [cap.capId] cap.parentCapId

def live (now : Int) (cap : Capability) : Bool :=
  cap.active && !cap.isExpired now && store.parentChainActive now cap

def sortMatchingCapabilities (caps : List Capability) : List Capability :=
  let denyRank := fun cap : Capability => if cap.effect = .deny then 0 else 1
  (((caps.insertionSort fun a b => a.capId ≤ b.capId).insertionSort
    fun a b => b.issuedAt ≤ a.issuedAt).insertionSort
    fun a b => b.resource.length ≤ a.resource.length).insertionSort
    fun a b => denyRank a ≤ denyRank b

/-- `_matching_capabilities(.., include_ask=True)`. -/
def matchingCapabilities (now : Int) (subject resource right : String) :
    Except CapabilityDenied (List Capability) :=
  match ResourceAuthority.parse resource true with
  | .error denied => .error denied
  | .ok _ =>
      .ok (sortMatchingCapabilities ((store.capabilitiesFor subject).filter fun cap =>
        store.live now cap && ResourceAuthority.matches cap.resource resource &&
          cap.rights.contains right))

/-- `CapabilityMutationService.publish`: the new row is active. -/
def publish (draft : CapabilityDraft) (capId : String) : Except AuthorityError AuthorityStore :=
  match store.rows.capabilities capId with
  | some _ => .error (.lease .integrity)
  | none =>
      .ok
        { rows := store.rows.setRow capId
            { subject := draft.subject, resource := draft.resource, revocable := draft.revocable
              usesRemaining := draft.usesRemaining, status := .active, rollbackToken := none
              positive := fun _ => draft.positive }
          grants := fun id => if id = capId then some draft.grant else store.grants id
          capIds := store.capIds ++ [capId]
          known := by
            intro id some_
            by_cases same : id = capId
            · simp [CapabilityStore.setRow, same]
            · simp only [CapabilityStore.setRow, if_neg same] at some_ ⊢
              exact store.known id some_
          listed := by
            intro id
            by_cases same : id = capId
            · simp [same]
            · simp [same, store.listed id] }

end AuthorityStore

namespace CapabilityManager

def resourcePatternsIntersect (left right : String) : Bool :=
  ResourceAuthority.covers left right || ResourceAuthority.covers right left

section Manager
variable (engine : Engine) (config : CapabilityConfig)

/-! ## Constraint validation -/

def constraintContainerError (constraints : Dict) : Option String :=
  match engine.jsonBytes (.dict constraints) with
  | none => some "capability constraints must be JSON-serializable"
  | some size =>
      if config.maxConstraintsBytes < size then
        some "capability constraints exceed configured byte limit"
      else
        let unknown := sortedKeys ((constraints.map Prod.fst).filter (· ∉ knownConstraintKeys))
        if unknown ≠ [] then
          some ("capability constraints contain unknown keys: " ++ ", ".intercalate unknown)
        else (constraints.find? (·.2.isNone)).map fun entry =>
          "capability constraint " ++ entry.1 ++ " cannot be null"

def ruleConditionsError : List AuthorityRule → Except Raised (Option String)
  | [] => .ok none
  | rule :: rest => do
      let unknown := unknownAuthorityRuleConditions rule
      if unknown ≠ [] then
        pure (some ("capability authority rule contains unknown conditions: " ++
          ", ".intercalate unknown))
      else
        let malformed ← malformedAuthorityRuleConditions engine config.regex rule
        if malformed ≠ [] then
          pure (some ("capability authority rule contains malformed conditions: " ++
            ", ".intercalate malformed))
        else ruleConditionsError rest

def authorityRulesConstraintError (constraints : Dict) : Except Raised (Option String) :=
  if constraints.has authorityRulesKey then
    match AuthorityRuleCodec.coerceMany engine (constraints.get authorityRulesKey) with
    | .error message => .ok (some message)
    | .ok rules => ruleConditionsError engine config rules
  else .ok none

def shellPolicyLevels : List String :=
  ["always_deny", "allowlist_auto_else_ask", "blocklist_ask_else_auto", "always_allow"]

def shellPolicyConstraintError (constraints : Dict) : Option String :=
  if constraints.has shellPolicyKey then
    let message := "capability constraint " ++ shellPolicyKey ++ " has an invalid shell policy level"
    match constraints.get shellPolicyKey with
    | .str policy => if policy ∈ shellPolicyLevels then none else some message
    | _ => some message
  else none

def nonEmptyString : Value → Bool
  | .str text => text != ""
  | _ => false

def nonEmptyStringError (constraints : Dict) (key : String) : Option String :=
  if constraints.has key && !nonEmptyString (constraints.get key) then
    some ("capability constraint " ++ key ++ " must be a non-empty string")
  else none

def approvalBindingConstraintError (constraints : Dict) : Option String :=
  if constraints.has approvalBindingKey then
    match normalizeApprovalBinding engine (constraints.get approvalBindingKey) with
    | .error message => some message
    | .ok _ => none
  else none

def dataReleaseBindingConstraintError (constraints : Dict) : Option String :=
  if constraints.has dataReleaseBindingKey then
    match normalizeDataReleaseBinding engine (constraints.get dataReleaseBindingKey) with
    | .error message => some message
    | .ok _ => none
  else none

def gitConstraintError (constraints : Dict) : Option String :=
  (["git_remote", "git_url_fingerprint", "git_expected_state_token", "git_old_oid"].findSome?
    (nonEmptyStringError constraints)).or
    (if constraints.has "git_allowed_refs" then
      match (constraints.get "git_allowed_refs").strings with
      | some refs =>
          if refs.all (· != "") then none
          else some
            "capability constraint git_allowed_refs must be a list of non-empty strings"
      | none => some "capability constraint git_allowed_refs must be a list of non-empty strings"
    else none)

/-- `_constraint_validation_error`: the validators in order. -/
def constraintValidationError (constraints : Dict) : Except Raised (Option String) :=
  match constraintContainerError engine config constraints with
  | some error => .ok (some error)
  | none => do
      match ← authorityRulesConstraintError engine config constraints with
      | some error => pure (some error)
      | none =>
          pure ((shellPolicyConstraintError constraints).or
            ((nonEmptyStringError constraints "inherited_from").or
              ((approvalBindingConstraintError engine constraints).or
                ((dataReleaseBindingConstraintError engine constraints).or
                  (gitConstraintError constraints)))))

def validationError (constraints : Dict) : Except AuthorityError (Option String) :=
  match constraintValidationError engine config constraints with
  | .ok error => .ok error
  | .error raised => .error (.raised raised)

/-- The loop of `_authority_chain_constraint_error`, with the number of rows as fuel. -/
def chainConstraintError (store : AuthorityStore) :
    Nat → List String → Option Capability → Except AuthorityError (Option String)
  | _, _, none => .ok none
  | 0, _, some _ => .ok (some "capability parent chain contains a cycle")
  | fuel + 1, seen, some current =>
      if current.capId ∈ seen then .ok (some "capability parent chain contains a cycle")
      else do
        match ← validationError engine config current.constraints with
        | some error => pure (some error)
        | none =>
            chainConstraintError store fuel (current.capId :: seen)
              (current.parentCapId.bind store.getCapability)

def requireValidConstraintChain (store : AuthorityStore) (parentCap : Capability)
    (action : String) : Except AuthorityError Unit := do
  match ← chainConstraintError engine config store (store.capIds.length + 1) [] (some parentCap) with
  | some error =>
      .error (.denied (action ++ " capability has invalid parent constraint chain: " ++ error))
  | none => pure ()

/-! ## Attenuation -/

def subsetOf (inner outer : Value) : Bool :=
  match inner.strings, outer.strings with
  | some inner, some outer => inner.all outer.contains
  | _, _ => false

/-- What is wrong with one constraint of the parent in the delegated constraints. -/
def parentConstraintError (delegated : Dict) (key : String) (value : Value) : Option String :=
  if delegated.has key then
    if key = "git_allowed_refs" then
      if subsetOf (delegated.get key) value then none
      else some "delegated capability cannot widen parent constraint: git_allowed_refs"
    else if (delegated.get key).eq value then none
    else some ("delegated capability cannot change parent constraint: " ++ key)
  else some ("delegated capability cannot drop parent constraint: " ++ key)

def constraintAttenuationError (parentConstraints delegated : Dict) :
    Except AuthorityError (Option String) := do
  match ← validationError engine config parentConstraints with
  | some error =>
      pure (some ("delegated capability has invalid parent constraint: " ++ error))
  | none =>
      match ← validationError engine config delegated with
      | some error => pure (some ("delegated capability has invalid constraint: " ++ error))
      | none =>
          pure ((parentConstraints.findSome? fun entry =>
              parentConstraintError delegated entry.1 entry.2).or
            ((delegated.find? fun entry => !parentConstraints.has entry.1 &&
                (entry.1 == authorityRulesKey || entry.1 == shellPolicyKey)).map fun entry =>
              "delegated constraint is not covered by parent: " ++ entry.1))

def requireConstraintAttenuation (parentCap : Capability) (spec : CapabilitySpec) :
    Except AuthorityError Unit := do
  match ← constraintAttenuationError engine config parentCap.constraints spec.constraints with
  | some error => .error (.denied error)
  | none => pure ()

def requireTemporalAttenuation (now : Int) (parentCap : Capability) (spec : CapabilitySpec)
    (action : String) : Except AuthorityError Unit :=
  if spec.expiresAt.any (· ≤ now) then
    .error (.validation (action ++ " capability expiry must be in the future"))
  else match parentCap.expiresAt, spec.expiresAt with
    | some limit, some requested =>
        if limit < requested then
          .error (.denied (action ++ " capability cannot outlive parent capability"))
        else .ok ()
    | _, _ => .ok ()

/-- `_capability_max_delegation_depth`. -/
def effectiveMaxDepth (cap : Capability) : Nat :=
  cap.maxDelegationDepth.getD config.defaultDelegationDepth

def delegatedMaxDelegationDepth (parentCap : Capability) (spec : CapabilitySpec) : Nat :=
  spec.maxDelegationDepth.getD (effectiveMaxDepth config parentCap)

def initialMaxDelegationDepth (spec : CapabilitySpec) : Option Nat :=
  match spec.maxDelegationDepth with
  | some depth => some depth
  | none => if spec.delegable then some config.defaultDelegationDepth else none

def validateDelegationParent (store : AuthorityStore) (now : Int) (spec : CapabilitySpec)
    (parentCap : Capability) : Except AuthorityError Unit := do
  requireValidConstraintChain engine config store parentCap "delegated"
  if parentCap.usesRemaining.isSome then
    .error (.denied "finite-use capabilities cannot be delegated")
  else if spec.delegable && !parentCap.delegable then
    .error (.denied ("parent capability is not delegable: " ++ parentCap.capId))
  else
    requireTemporalAttenuation now parentCap spec "delegated"
    let parentMaxDepth := effectiveMaxDepth config parentCap
    if parentMaxDepth ≤ parentCap.delegationDepth then
      .error (.denied "delegation depth exhausted")
    else if spec.maxDelegationDepth.any (parentMaxDepth < ·) then
      .error (.denied "delegated capability cannot increase parent delegation depth")
    else if spec.delegable &&
        spec.maxDelegationDepth.getD parentMaxDepth ≤ parentCap.delegationDepth + 1 then
      .error (.denied "delegated capability cannot be delegable after depth exhaustion")
    else requireConstraintAttenuation engine config parentCap spec

/-- Unlike the check for delegations, this one does not ask whether the depth is exhausted. -/
def validateTransferParent (store : AuthorityStore) (now : Int) (spec : CapabilitySpec)
    (parentCap : Capability) : Except AuthorityError Unit := do
  requireValidConstraintChain engine config store parentCap "transferred"
  if spec.effect ≠ .allow then
    .error (.denied "grant authority can only transfer allow capabilities")
  else if parentCap.usesRemaining.isSome then
    .error (.denied "finite-use capabilities cannot be granted onward")
  else if spec.delegable && !parentCap.delegable then
    .error (.denied ("transferred capability cannot be delegable from non-delegable parent: " ++
      parentCap.capId))
  else
    requireTemporalAttenuation now parentCap spec "transferred"
    let parentMaxDepth := effectiveMaxDepth config parentCap
    if spec.maxDelegationDepth.any (parentMaxDepth < ·) then
      .error (.denied "transferred capability cannot increase parent delegation depth")
    else if spec.delegable && parentMaxDepth ≤ parentCap.delegationDepth + 1 then
      .error (.denied "transferred capability cannot be delegable after depth exhaustion")
    else requireConstraintAttenuation engine config parentCap spec

/-! ## Choosing a parent -/

def ruleWellFormedErrors (denial : String → String) (capId : String) :
    List AuthorityRule → Except AuthorityError Unit
  | [] => .ok ()
  | rule :: rest =>
      if unknownAuthorityRuleConditions rule ≠ [] then
        .error (.denied (denial ("capability " ++ capId ++
          " has unknown authority rule conditions")))
      else match malformedAuthorityRuleConditions engine config.regex rule with
        | .error raised => .error (.raised raised)
        | .ok [] => ruleWellFormedErrors denial capId rest
        | .ok _ => .error (.denied (denial ("capability " ++ capId ++
            " has malformed authority rule conditions")))

def requireParentAuthorityRulesWellFormed (denial : String → String) (cap : Capability) :
    Except AuthorityError Unit :=
  match cap.constraints.get authorityRulesKey with
  | .none => .ok ()
  | raw => match AuthorityRuleCodec.coerceMany engine raw with
    | .error _ => .error (.denied (denial ("capability " ++ cap.capId ++
        " has malformed authority rules")))
    | .ok rules => ruleWellFormedErrors engine config denial cap.capId rules

/-- `f"{subject} cannot {action} {sorted(spec.rights)} on {spec.resource}"`. -/
def cannot (subject action : String) (spec : CapabilitySpec) : String :=
  subject ++ " cannot " ++ action ++ " " ++
    engine.repr (.list ((sortedKeys spec.rights).map .str)) ++ " on " ++ spec.resource

def requireNoRestrictiveBoundary (store : AuthorityStore) (now : Int) (subject action : String)
    (spec : CapabilitySpec) : Except AuthorityError Unit :=
  let denial := fun why => cannot engine subject action spec ++ "; " ++ why
  (store.capabilitiesFor subject).forM fun cap =>
    if store.live now cap && spec.rights.any cap.rights.contains &&
        resourcePatternsIntersect cap.resource spec.resource then do
      requireParentAuthorityRulesWellFormed engine config denial cap
      if cap.effect = .allow then pure ()
      else .error (.denied (denial ("restrictive capability " ++ cap.capId ++
        " also covers that authority")))
    else .ok ()

def widestFirst (a b : Capability) : Prop :=
  b.resource.length < a.resource.length ∨ (b.resource.length = a.resource.length ∧
    (b.issuedAt < a.issuedAt ∨ (b.issuedAt = a.issuedAt ∧ b.capId ≤ a.capId)))

instance (a b : Capability) : Decidable (widestFirst a b) := by
  unfold widestFirst
  infer_instance

/-- The first candidate that validates; a denial moves on to the next one. -/
def firstValid (validate : Capability → Except AuthorityError Unit) (failure : AuthorityError) :
    List Capability → Except AuthorityError Capability
  | [] => .error failure
  | cap :: rest =>
      match validate cap with
      | .ok () => .ok cap
      | .error (.denied message) =>
          match firstValid validate failure rest with
          | .error (.denied _) => .error (.denied message)
          | other => other
      | .error error => .error error

def candidates (store : AuthorityStore) (now : Int) (subject : String) (spec : CapabilitySpec)
    (delegating : Bool) : List Capability :=
  ((store.capabilitiesFor subject).filter fun cap =>
    store.live now cap && cap.effect == .allow && (!delegating || cap.delegable) &&
      ResourceAuthority.covers cap.resource spec.resource &&
      spec.rights.all cap.rights.contains).insertionSort widestFirst

def findDelegationParent (store : AuthorityStore) (now : Int) (parent : String)
    (spec : CapabilitySpec) : Except AuthorityError Capability := do
  requireNoRestrictiveBoundary engine config store now parent "delegate" spec
  firstValid (validateDelegationParent engine config store now spec)
    (.denied (cannot engine parent "delegate" spec)) (candidates store now parent spec true)

def findTransferParent (store : AuthorityStore) (now : Int) (actor : String)
    (spec : CapabilitySpec) : Except AuthorityError Capability := do
  requireNoRestrictiveBoundary engine config store now actor "grant" spec
  firstValid (validateTransferParent engine config store now spec)
    (.denied (cannot engine actor "grant" spec ++ " without already holding those rights"))
    (candidates store now actor spec false)

/-! ## Drafts -/

def capabilityRights : List String :=
  ["read", "write", "execute", "link", "diff", "materialize", "delete", "grant", "revoke",
    "approve", "admin"]

def normalizeRights (rights : List String) : Except AuthorityError (List String) :=
  match rights.find? (· ∉ capabilityRights) with
  | some right =>
      .error (.validation ("unknown capability right: " ++ engine.repr (.str right) ++
        " is not a valid CapabilityRight"))
  | none =>
      let normalized := rights.dedup
      if normalized = [] then
        .error (.validation "capability must include at least one right")
      else if config.maxRightsPerCapability < normalized.length then
        .error (.validation "capability rights exceed configured limit")
      else .ok normalized

/-- `_capability_draft`, with the values of the spec and those that depend on the parent. -/
def capabilityDraft (subject issuedAt : String) (spec : CapabilitySpec)
    (parentCapId : Option String) (delegationDepth : Nat) (maxDelegationDepth : Option Nat)
    (expiresAt : Option Int) : Except AuthorityError CapabilityDraft := do
  if subject = "" then .error (.validation "capability subject must be non-empty")
  else match ResourceAuthority.parse spec.resource false with
    | .error denied => .error (.denied denied.message)
    | .ok _ =>
        let rights ← normalizeRights engine config spec.rights
        match ← validationError engine config spec.constraints with
        | some error => .error (.validation error)
        | none =>
            if spent : spec.usesRemaining = some 0 then
              .error (.validation "uses_remaining must be a positive integer")
            else if maxDelegationDepth.any (· < delegationDepth) then
              .error (.validation "max_delegation_depth cannot be less than delegation_depth")
            else
              pure
                { subject := subject
                  resource := ResourceAuthority.canonical spec.resource
                  revocable := spec.revocable
                  usesRemaining := spec.usesRemaining
                  grant := ⟨rights, spec.constraints, issuedAt, expiresAt, spec.delegable,
                    spec.effect, parentCapId, delegationDepth, maxDelegationDepth⟩
                  positive := spent }

/-! ## Operations -/

def delegateSelected (store : AuthorityStore) (now : Int) (parent child : String)
    (spec : CapabilitySpec) (capId issuedAt : String) : Except AuthorityError AuthorityStore := do
  let parentCap ← findDelegationParent engine config store now parent spec
  let draft ← capabilityDraft engine config child issuedAt spec (some parentCap.capId)
    (parentCap.delegationDepth + 1) (some (delegatedMaxDelegationDepth config parentCap spec))
    (spec.expiresAt.or parentCap.expiresAt)
  store.publish draft capId

/-- `spec_covers` with a spec as the limit. -/
def specCovers (limit requested : CapabilitySpec) : Except AuthorityError Bool := do
  if limit.effect ≠ .allow ∨ ResourceAuthority.covers limit.resource requested.resource = false ∨
      requested.rights.all limit.rights.contains = false then pure false
  else match ← constraintAttenuationError engine config limit.constraints requested.constraints with
    | some _ => pure false
    | none =>
        let limitDepth := (limit.maxDelegationDepth).or
          (if limit.delegable then some config.defaultDelegationDepth else none)
        pure (limit.expiresAt.all (fun bound => requested.expiresAt.any (· ≤ bound)) &&
          limit.usesRemaining.all (fun uses => requested.usesRemaining == some uses) &&
          (!requested.delegable || limit.delegable) &&
          limitDepth.all fun bound => requested.maxDelegationDepth.all (· ≤ bound))

def anyCovers (requested : CapabilitySpec) : List CapabilitySpec → Except AuthorityError Bool
  | [] => .ok false
  | limit :: rest => do
      if ← specCovers engine config limit requested then pure true
      else anyCovers requested rest

/-- A new row for every spec, in order. -/
def delegateAll (now : Int) (parent child : String) :
    AuthorityStore → List (CapabilitySpec × String × String) → Except AuthorityError AuthorityStore
  | store, [] => .ok store
  | store, (spec, capId, issuedAt) :: rest => do
      let published ← delegateSelected engine config store now parent child spec capId issuedAt
      delegateAll now parent child published rest

def deriveAuthority (store : AuthorityStore) (now : Int) (source target transitionKind : String)
    (requested : List (CapabilitySpec × String × String)) (ceiling : List CapabilitySpec) :
    Except AuthorityError AuthorityStore := do
  requested.forM fun (spec, _) => do
    if !ceiling.isEmpty && !(← anyCovers engine config spec ceiling) then
      .error (.denied (transitionKind ++ " authority exceeds transition ceiling: " ++
        spec.resource ++ " rights=" ++ engine.repr (.list ((sortedKeys spec.rights).map .str))))
    else
      let _ ← findDelegationParent engine config store now source spec
  delegateAll engine config now source target store requested

/-- `_prepare_issue_draft` under a transfer parent. -/
def transferDraft (subject issuedAt : String) (spec : CapabilitySpec) (parentCap : Capability) :
    Except AuthorityError CapabilityDraft :=
  capabilityDraft engine config subject issuedAt spec (some parentCap.capId)
    (parentCap.delegationDepth + 1)
    (if spec.delegable then some (delegatedMaxDelegationDepth config parentCap spec)
      else initialMaxDelegationDepth config spec)
    (spec.expiresAt.or parentCap.expiresAt)

end Manager

end CapabilityManager
end AgentLibOS.Capability
