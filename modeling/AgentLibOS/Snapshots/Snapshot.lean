import AgentLibOS.Library.Run
import AgentLibOS.Snapshots.Rows

namespace AgentLibOS.Snapshots
open Capability Library.Run

abbrev SnapshotRows := SnapshotTable → List Row

namespace SnapshotRows

/-! ## Capability rows -/

def capabilityFieldError (index : Nat) (field message : String) : ValidationError :=
  s!"snapshot rows.capabilities[{index}].{field} {message}"

def validateCapabilityColumns (codec : Codec) (row : Row) (index : Nat) :
    Except ValidationError Unit :=
  let expected := SnapshotTable.capabilities.columns
  let missing := expected.filter (· ∉ row.keys)
  let unknown := row.keys.filter (· ∉ expected)
  let texts (names : List String) := codec.repr (.list ((sortedKeys names).map .str))
  ensure (missing = [] ∧ unknown = [])
    (s!"snapshot rows.capabilities[{index}] is not canonical; missing={texts missing}, " ++
      s!"unknown={texts unknown}")

def filledText : Value → Bool
  | .str text => strip text != ""
  | _ => false

def capabilityText (row : Row) (index : Nat) (nullable : Bool) (field : String) :
    Except ValidationError Unit :=
  let value := row.get field
  if nullable && value.isNone then .ok ()
  else ensure (filledText value) (capabilityFieldError index field
    (if nullable then "must be null or a non-empty string" else "must be a non-empty string"))

def capabilityNonNegativeInteger (row : Row) (index : Nat) (nullable : Bool) (field : String) :
    Except ValidationError (Option Int) :=
  let complaint := capabilityFieldError index field
    (if nullable then "must be null or a non-negative integer" else "must be a non-negative integer")
  match row.get field with
  | .int number => if 0 ≤ number then .ok (some number) else .error complaint
  | .none => if nullable then .ok none else .error complaint
  | _ => .error complaint

def capabilityJsonContainer (codec : Codec) (row : Row) (index : Nat) (shape : DocumentType)
    (field : String) : Except ValidationError shape.Content :=
  match row.get field with
  | .str text =>
      match codec.loadPlain text with
      | none => .error (capabilityFieldError index field "must be valid JSON text")
      | some document =>
          match shape.content? document with
          | some content => .ok content
          | none => .error (capabilityFieldError index field s!"must decode to {shape.label}")
  | _ => .error (capabilityFieldError index field "must be canonical JSON text")

def validateCapabilityTextFields (row : Row) (index : Nat) : Except ValidationError Unit := do
  ["cap_id", "subject", "resource", "issued_by", "issued_at"].forM (capabilityText row index false)
  ["expires_at", "issuer_cap_id", "parent_cap_id"].forM (capabilityText row index true)

def validateCapabilityBooleanFields (row : Row) (index : Nat) : Except ValidationError Unit :=
  ["delegable", "revocable"].forM fun field =>
    ensure (row.get field).isBool (capabilityFieldError index field "must be a boolean")

def validateCapabilityDelegationFields (row : Row) (index : Nat) : Except ValidationError Unit := do
  let delegationDepth ← capabilityNonNegativeInteger row index false "delegation_depth"
  let maxDelegationDepth ← capabilityNonNegativeInteger row index true "max_delegation_depth"
  let _ ← capabilityNonNegativeInteger row index true "uses_remaining"
  match maxDelegationDepth, delegationDepth with
  | some most, some depth =>
      ensure (depth ≤ most) (capabilityFieldError index "max_delegation_depth"
        "must not be less than delegation_depth")
  | _, _ => .ok ()

def capabilityRights : List String :=
  ["read", "write", "execute", "link", "diff", "materialize", "delete", "grant", "revoke",
    "approve", "admin"]

def capabilityEffects : List String := ["allow", "deny", "ask"]

def capabilityStatuses : List String := ["active", "revoked", "disabled", "exec_revoked"]

def validateCapabilityRights (codec : Codec) (row : Row) (index : Nat) :
    Except ValidationError Unit := do
  let rights ← capabilityJsonContainer codec row index .list "rights_json"
  ensure (rights ≠ ([] : List Value))
    (capabilityFieldError index "rights_json" "must contain at least one right")
  match Value.strings (.list rights) with
  | none => .error (capabilityFieldError index "rights_json" "must contain only strings")
  | some names => do
      ensure (∀ name ∈ names, name ∈ capabilityRights)
        (capabilityFieldError index "rights_json" "contains an unknown capability right")
      ensure names.Nodup (capabilityFieldError index "rights_json" "must not contain duplicates")

def validateCapabilityEnum (row : Row) (index : Nat) (field : String) (values : List String) :
    Except ValidationError Unit :=
  match row.get field with
  | .str text =>
      ensure (text ∈ values)
        (capabilityFieldError index field s!"must be a recognized capability {field}")
  | _ => .error (capabilityFieldError index field "must be a string")

def validateCapabilityLeaseState (row : Row) (index : Nat) : Except ValidationError Unit :=
  match row.get "status", row.get "uses_remaining" with
  | .str "active", .int uses =>
      ensure (1 ≤ uses) (capabilityFieldError index "uses_remaining"
        "active capability uses_remaining must be positive")
  | _, _ => .ok ()

def validateCapabilityRow (codec : Codec) (row : Row × Nat) : Except ValidationError Unit := do
  validateCapabilityColumns codec row.1 row.2
  validateCapabilityTextFields row.1 row.2
  validateCapabilityBooleanFields row.1 row.2
  validateCapabilityDelegationFields row.1 row.2
  validateCapabilityRights codec row.1 row.2
  let _ ← capabilityJsonContainer codec row.1 row.2 .object "constraints_json"
  let _ ← capabilityJsonContainer codec row.1 row.2 .object "metadata_json"
  validateCapabilityEnum row.1 row.2 "effect" capabilityEffects
  validateCapabilityEnum row.1 row.2 "status" capabilityStatuses
  validateCapabilityLeaseState row.1 row.2

/-- `__post_init__`. -/
def postInit (codec : Codec) (rows : SnapshotRows) : Except ValidationError Unit :=
  (rows .capabilities).zipIdx.forM (validateCapabilityRow codec)

end SnapshotRows

/-! ## Snapshots -/

structure SnapshotHeader where
  schemaVersion : Int
  checkpointId : String
  rootPid : String
  reason : String
  createdAt : String
  createdBy : String
  deriving DecidableEq, Repr

structure LocalReplayReference where
  turnId : String
  pid : String
  runId : Option String
  providerFingerprint : String
  model : String
  contextGeneration : String
  payloadSha256 : String
  deriving DecidableEq, Repr

structure LocalProviderContinuationReference where
  pid : String
  markerCallId : String
  markerSha256 : String
  sourceCallId : String
  sourceSha256 : String
  sourcePid : String
  profileIdentitySha256 : String
  contextGeneration : String
  payloadSha256 : String
  deriving DecidableEq, Repr

structure ProcessSnapshot where
  header : SnapshotHeader
  subtreePids : List String
  objectOids : List String
  ownedObjectOids : List String
  referencedObjectOids : List String
  referencedObjectTypes : Mapping String
  namespaces : List String
  ownedNamespaces : List String
  rows : SnapshotRows
  objectPayloads : Mapping Value
  images : Mapping Value
  imageArtifacts : Mapping Value
  jitSources : Mapping String
  modules : List Dict
  responsesReplayRefs : Mapping LocalReplayReference
  providerContinuationRefs : Mapping LocalProviderContinuationReference

namespace ProcessSnapshot

def processPids (snapshot : ProcessSnapshot) : List String :=
  (snapshot.rows .processes).filterMap fun row =>
    match row.get "pid" with
    | .str pid => some pid
    | _ => none

def outsideTaskRun (snapshot : ProcessSnapshot) (pid : String) : Bool :=
  (snapshot.rows .processes).all fun row =>
    !(row.get "pid").eq (.str pid) || (row.get "task_run_id").isNone

/-- `__post_init__`. -/
def postInit (snapshot : ProcessSnapshot) : Except ValidationError Unit := do
  ensure (snapshot.subtreePids ≠ []) "snapshot subtree_pids must not be empty"
  ensure (snapshot.header.rootPid ∈ snapshot.subtreePids)
    "snapshot root pid must belong to subtree_pids"
  ensure ((snapshot.rows .processes).all fun row => SnapshotRows.filledText (row.get "pid"))
    "snapshot process rows require non-empty pid values"
  ensure snapshot.processPids.Nodup "snapshot process rows must not contain duplicate pids"
  ensure (snapshot.processPids ⊆ snapshot.subtreePids ∧ snapshot.subtreePids ⊆ snapshot.processPids)
    "snapshot process rows must exactly match subtree_pids"
  snapshot.responsesReplayRefs.entries.forM fun entry =>
    ensure (entry.1 ∈ snapshot.subtreePids ∧ entry.2.pid = entry.1)
      "snapshot replay reference is outside its process scope"
  snapshot.providerContinuationRefs.entries.forM fun entry => do
    ensure (entry.1 ∈ snapshot.subtreePids ∧ entry.2.pid = entry.1)
      "snapshot provider continuation reference is outside its process scope"
    ensure (snapshot.outsideTaskRun entry.1)
      "snapshot provider continuation reference must not belong to a TaskRun"

end ProcessSnapshot

end AgentLibOS.Snapshots
