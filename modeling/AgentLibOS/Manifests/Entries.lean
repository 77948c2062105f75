import AgentLibOS.Capability.Manager

namespace AgentLibOS.Manifests
open Capability CapabilityManager Library.Run

/-- The values of `CapabilityRight`. -/
def capabilityRights : List String :=
  ["read", "write", "execute", "link", "diff", "materialize", "delete", "grant", "revoke",
    "approve", "admin"]

/-- A capability entry of a manifest whose fields have their declared types. A field that the
object does not have is `none`. -/
structure CapabilityEntry where
  resource : String
  rights : List String
  constraints : Option Dict := none
  delegable : Option Bool := none
  revocable : Option Bool := none
  expiresAt : Option String := none
  usesRemaining : Option Int := none
  maxDelegationDepth : Option Int := none

def invalid {α : Type} (message : String) : Except AuthorityError α := .error (.validation message)

section Entries
variable (engine : Engine) (config : CapabilityConfig)

/-! ## Coercion -/

/-- `expires_at_datetime`, in UTC. -/
def expiresAtDatetime (text : String) : Except AuthorityError Int :=
  let raw := strip text
  if raw = "" then invalid "capability expires_at must be a non-empty ISO timestamp"
  else match engine.fromisoformat (raw.replace "Z" "+00:00") with
    | none => invalid "capability expires_at must be an ISO timestamp"
    | some parsed => .ok parsed.micros

def positiveUsesRemaining (value : Int) : Except AuthorityError Nat :=
  if value < 1 then invalid "capability uses_remaining must be a positive integer"
  else .ok value.toNat

def maxDelegationDepthOf (value : Int) : Except AuthorityError Nat :=
  if value < 0 then invalid "max_delegation_depth must be a non-negative integer"
  else .ok value.toNat

/-- A set of rights, in order. -/
def rightSet (rights : List String) : List String := sortedKeys rights.dedup

def normalizeRights (rights : List String) : Except AuthorityError (List String) := do
  ensure (∀ right ∈ rights, right ∈ capabilityRights) (.validation "unknown capability right")
  ensure (rights ≠ []) (.validation "capability must include at least one right")
  ensure ((rightSet rights).length ≤ config.maxRightsPerCapability)
    (.validation "capability rights exceed configured limit")
  .ok (rightSet rights)

def policyKey : String := "permission_policy"

def effectFromPolicy (policy : String) : Except AuthorityError (CapabilityEffect × Option Nat) :=
  if policy = "always_allow" then .ok (.allow, none)
  else if policy = "always_deny" then .ok (.deny, none)
  else if policy = "ask_each_time" then .ok (.ask, none)
  else if policy = "allow_once" then .ok (.allow, some 1)
  else .error (.raised .valueError)

/-- The effect and the uses that a policy among the constraints puts in place of the given ones. -/
def policyEffect (constraints : Dict) (usesRemaining : Option Nat) :
    Except AuthorityError (CapabilityEffect × Option Nat) :=
  match constraints.get policyKey with
  | .none => .ok (.allow, usesRemaining)
  | policy => effectFromPolicy (engine.str policy)

/-- `_coerce_spec` of such an entry. -/
def coerceSpec (entry : CapabilityEntry) : Except AuthorityError CapabilitySpec := do
  ensure (entry.resource ≠ "") (.validation "capability resource must be a non-empty string")
  let given := entry.constraints.getD []
  let uses ← optionally positiveUsesRemaining entry.usesRemaining
  let expiresAt ← optionally (expiresAtDatetime engine) entry.expiresAt
  let (effect, usesRemaining) ← policyEffect engine given uses
  ensure (effect = .allow ∨ usesRemaining = none)
    (.validation "uses_remaining is supported only for allow capabilities")
  let maxDelegationDepth ← optionally maxDelegationDepthOf entry.maxDelegationDepth
  let constraints := given.filter (·.1 ≠ policyKey)
  match ← validationError engine config constraints with
  | some error => invalid error
  | none =>
      let rights ← normalizeRights config entry.rights
      .ok
        { resource := entry.resource
          rights := rights
          effect := effect
          constraints := constraints
          expiresAt := expiresAt
          usesRemaining := usesRemaining
          delegable := entry.delegable.getD false
          revocable := entry.revocable.getD true
          maxDelegationDepth := maxDelegationDepth }

/-! ## Coverage -/

/-- The comparison that `spec_covers` makes once both specs are coerced. -/
def coversSpec (parent selected : CapabilitySpec) : Except AuthorityError Bool :=
  if parent.effect ≠ .allow ∨
      ResourceAuthority.covers parent.resource selected.resource = false then .ok false
  else if ¬ ∀ right ∈ selected.rights, right ∈ parent.rights then .ok false
  else do
    match ← constraintAttenuationError engine config parent.constraints selected.constraints with
    | some _ => .ok false
    | none =>
        if parent.expiresAt.any fun limit => selected.expiresAt.all (limit < ·) then .ok false
        else if parent.usesRemaining ≠ none ∧ selected.usesRemaining ≠ parent.usesRemaining then
          .ok false
        else if selected.delegable = true ∧ parent.delegable = false then .ok false
        else if (initialMaxDelegationDepth config parent).any fun limit =>
            selected.maxDelegationDepth.any (limit < ·) then .ok false
        else .ok true

def specCovers (parent requested : CapabilityEntry) : Except AuthorityError Bool := do
  let selectedParent ← coerceSpec engine config parent
  let selected ← coerceSpec engine config requested
  coversSpec engine config selectedParent selected

/-- Whether one of `allowed` covers `requested`; the first that does ends the search. -/
def anyCovers (allowed : List CapabilityEntry) (requested : CapabilityEntry) :
    Except AuthorityError Bool :=
  match allowed with
  | [] => .ok false
  | parent :: rest => do
      if ← specCovers engine config parent requested then .ok true else anyCovers rest requested

/-- The text of a list of names. -/
def listText (names : List String) : String :=
  "[" ++ ", ".intercalate (names.map fun name => "'" ++ name ++ "'") ++ "]"

def requireSpecCovered (label : String) (allowed : List CapabilityEntry)
    (requested : CapabilityEntry) : Except AuthorityError Unit := do
  if ← anyCovers engine config allowed requested then .ok ()
  else .error (.denied (label ++ " exceeds task authority manifest: " ++ requested.resource ++
    " rights=" ++ listText requested.rights))

/-! ## Normal form -/

/-- `_required_expiry` of a text: what is stored is the text without its outer white space. -/
def requiredExpiry (label : String) (text : String) : Except AuthorityError String :=
  let selected := strip text
  if selected = "" then invalid (label ++ " must be non-empty")
  else match engine.fromisoformat (selected.replace "Z" "+00:00") with
    | none => invalid (label ++ " must be an ISO-8601 datetime")
    | some _ => .ok selected

def normalizeSpec (entry : CapabilityEntry) : Except AuthorityError CapabilityEntry := do
  let resource := strip entry.resource
  match ResourceAuthority.parse resource false with
  | .error denied => .error (.denied denied.message)
  | .ok _ => do
      ensure (∀ right ∈ entry.rights, right ∈ capabilityRights) (.raised .valueError)
      ensure (entry.rights ≠ [])
        (.validation "authority manifest capability entry requires rights")
      let expiresAt ← optionally (requiredExpiry engine "capability expires_at") entry.expiresAt
      ensure (∀ uses ∈ entry.usesRemaining, 1 ≤ uses)
        (.validation "capability uses_remaining must be a positive integer")
      ensure (∀ depth ∈ entry.maxDelegationDepth, 0 ≤ depth)
        (.validation "max_delegation_depth must be a non-negative integer")
      let selected : CapabilityEntry :=
        { resource := resource
          rights := rightSet entry.rights
          constraints := some (entry.constraints.getD [])
          delegable := some (entry.delegable.getD false)
          revocable := some (entry.revocable.getD true)
          expiresAt := expiresAt
          usesRemaining := entry.usesRemaining
          maxDelegationDepth := entry.maxDelegationDepth }
      if ← specCovers engine config selected selected then .ok selected
      else invalid "authority manifest capability entry is not self-covering"

def normalizeSpecs (entries : List CapabilityEntry) : Except AuthorityError (List CapabilityEntry) :=
  entries.mapM (normalizeSpec engine config)

/-- `_UNREQUESTABLE_ROOT_PREFIX_RIGHTS`. -/
def unrequestableRootPrefixRights : List String :=
  ["admin", "grant", "revoke", "write", "execute", "delete"]

def rootPrefix (resource : String) : Bool :=
  match ResourceAuthority.parse resource false with
  | .ok pattern => pattern.scope == .prefixScope && pattern.body == []
  | .error _ => false

/-- What a raw requestable entry may not say. -/
def requestableFields (entry : CapabilityEntry) : Except AuthorityError Unit := do
  ensure (entry.constraints.all (·.isEmpty) = true)
    (.validation "requestable capability constraints must be an empty object")
  ensure (entry.usesRemaining = none)
    (.validation "requestable capability uses_remaining is not supported")
  ensure (entry.maxDelegationDepth = none)
    (.validation "requestable capability max_delegation_depth is not supported")

def requestableSpec (entry : CapabilityEntry) : Except AuthorityError Unit := do
  ensure (¬ (rootPrefix entry.resource = true ∧
      ∃ right ∈ entry.rights, right ∈ unrequestableRootPrefixRights))
    (.validation ("requestable capability root-prefix authority cannot include privileged rights: " ++
      "resource=" ++ entry.resource ++ " rights=" ++
        listText (entry.rights.filter (unrequestableRootPrefixRights.contains ·))))
  ensure (entry.delegable = some false)
    (.validation "requestable capability delegable must be false")
  ensure (entry.revocable = some true)
    (.validation "requestable capability revocable must be true")

def normalizeRequestableSpecs (entries : List CapabilityEntry) :
    Except AuthorityError (List CapabilityEntry) := do
  entries.forM requestableFields
  let selected ← normalizeSpecs engine config entries
  selected.forM requestableSpec
  .ok selected

end Entries
end AgentLibOS.Manifests
