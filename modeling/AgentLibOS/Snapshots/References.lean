import AgentLibOS.Snapshots.Remap
import AgentLibOS.Snapshots.Snapshot

namespace AgentLibOS.Snapshots
open Capability Library.Run

namespace SnapshotRemapper

/-! ## Collisions -/

def primaryIds (codec : Codec) (rows : SnapshotRows) (kind : IdentityKind) : List String :=
  (primaryRowIdentities.filter (·.1 = kind)).flatMap fun entry =>
    (rows entry.2.1).filterMap fun row =>
      let value := row.get entry.2.2
      if value.isNone ∨ codec.str value = "" then none else some (codec.str value)

def listedIds (snapshot : ProcessSnapshot) : IdentityKind → List String
  | .pids => snapshot.subtreePids
  | .objects =>
      snapshot.objectOids ++ snapshot.ownedObjectOids ++ snapshot.referencedObjectOids ++
        snapshot.referencedObjectTypes.keys ++ snapshot.objectPayloads.keys
  | .namespaces => snapshot.namespaces ++ snapshot.ownedNamespaces
  | .tools => snapshot.jitSources.keys
  | .capabilities | .candidates => []

def snapshotIdentitySources (codec : Codec) (snapshot : ProcessSnapshot) (kind : IdentityKind) :
    List String :=
  (listedIds snapshot kind ++ primaryIds codec snapshot.rows kind).dedup

def validateIdentityCollisions (codec : Codec) (identities : SnapshotIdentityMap)
    (snapshot : ProcessSnapshot) : Except ValidationError Unit :=
  IdentityKind.all.forM fun kind =>
    ensure ((snapshotIdentitySources codec snapshot kind).map (identities kind).apply).Nodup
      s!"snapshot identity map {kind.name} collides with an unchanged snapshot identity"

/-! ## Cardinality -/

/-- The lists of identities, with the kind of their identities. -/
def sequences : List (String × IdentityKind × (ProcessSnapshot → List String)) :=
  [("subtree_pids", .pids, (·.subtreePids)), ("object_oids", .objects, (·.objectOids)),
    ("owned_object_oids", .objects, (·.ownedObjectOids)),
    ("referenced_object_oids", .objects, (·.referencedObjectOids)),
    ("namespaces", .namespaces, (·.namespaces)),
    ("owned_namespaces", .namespaces, (·.ownedNamespaces))]

/-- A mapping by identity: its name, the kind of its keys and the keys. -/
abbrev Keyed := String × IdentityKind × (ProcessSnapshot → List String)

def payloadKeys : Keyed := ("object_payloads", .objects, (·.objectPayloads.keys))

def typeKeys : Keyed := ("referenced_object_types", .objects, (·.referencedObjectTypes.keys))

def sourceKeys : Keyed := ("jit_sources", .tools, (·.jitSources.keys))

def distinctValues : List Value → Bool
  | [] => true
  | value :: values => !values.any value.eq && distinctValues values

def validateRemappedCardinality (source remapped : ProcessSnapshot) :
    Except ValidationError Unit := do
  sequences.forM fun entry =>
    ensure ((entry.2.2 remapped).length = (entry.2.2 source).length ∧ (entry.2.2 remapped).Nodup)
      s!"snapshot remap lost or duplicated {entry.1} identities"
  [typeKeys, payloadKeys, sourceKeys].forM fun entry =>
    ensure ((entry.2.2 source).length = (entry.2.2 remapped).length)
      s!"snapshot remap lost {entry.1} entries"
  primaryRowIdentities.forM fun entry => do
    let ids := (remapped.rows entry.2.1).map (Row.get · entry.2.2)
    ensure (ids.all Value.hashable) "unhashable type"
    ensure ((remapped.rows entry.2.1).length = (source.rows entry.2.1).length ∧
        distinctValues ids)
      s!"snapshot remap lost or duplicated rows.{entry.2.1.name}.{entry.2.2} identities"

/-! ## References -/

def validateTopLevelReferences (identities : SnapshotIdentityMap)
    (source remapped : ProcessSnapshot) : Except ValidationError Unit := do
  sequences.forM fun entry =>
    ensure (entry.2.2 remapped = (entry.2.2 source).map (identities entry.2.1).apply)
      s!"snapshot remap left an inconsistent {entry.1} reference"
  [payloadKeys, typeKeys, sourceKeys].forM fun entry =>
    let expected := (entry.2.2 source).map (identities entry.2.1).apply
    ensure (entry.2.2 remapped ⊆ expected ∧ expected ⊆ entry.2.2 remapped)
      s!"snapshot remap left inconsistent {entry.1} references"

def referenceError (table : SnapshotTable) (index : Nat) (field : String) : ValidationError :=
  "snapshot remap left an inconsistent identity reference at " ++
    s!"rows.{table.name}[{index}].{field}"

def validateDirectRowReferences (codec : Codec) (identities : SnapshotIdentityMap)
    (table : SnapshotTable) (index : Nat) (source remapped : Row) : Except ValidationError Unit :=
  fieldMaps.forM fun field =>
    let value := source.get field.1
    ensure (value.isNone ∨ (remapped.get field.1).eq (mapped codec (identities field.2) value))
      (referenceError table index field.1)

def validateDocument (codec : Codec) (table : SnapshotTable) (index : Nat) (column : String)
    (shape : DocumentType) (expected : shape.Content → Except ValidationError shape.Content)
    (source remapped : Row) : Except ValidationError Unit :=
  if (source.get column).isNone then .ok ()
  else do
    let before ← jsonContainer codec s!"{table.name}.{column}" shape (source.get column)
    let after ← jsonContainer codec s!"{table.name}.{column}" shape (remapped.get column)
    let wanted ← expected before
    ensure ((shape.value after).eq (shape.value wanted)) (referenceError table index column)

def validateProcessCapabilityIndex (codec : Codec) (index : Nat) (capabilityMap : IdentityMap)
    (source remapped : Row) : Except ValidationError Unit :=
  if capabilityMap.isEmpty then .ok ()
  else validateDocument codec .processes index "capabilities_json" .list
    (fun (ids : List Value) => .ok (ids.map (mapped codec capabilityMap))) source remapped

/-- `{name: selected.get(str(id), id) for name, id in entries.items()}`. -/
def mappedEntries (codec : Codec) (selected : IdentityMap) (entries : Dict) : Dict :=
  entries.map fun entry => (entry.1, mapped codec selected entry.2)

def validateProcessToolTables (codec : Codec) (index : Nat) (toolMap : IdentityMap)
    (source remapped : Row) : Except ValidationError Unit :=
  if toolMap.isEmpty then .ok ()
  else ["tool_table_json", "model_tool_table_json"].forM fun column =>
    validateDocument codec .processes index column .object
      (fun (table : Dict) => .ok (mappedEntries codec toolMap table)) source remapped

def remapLoadedSkillRecord (codec : Codec) (toolMap : IdentityMap) : Value → Value
  | .dict loaded => .dict (loadedSkillFields.foldl (fun (loaded : Dict) field =>
      match loaded.get field with
      | .dict identifiers => setEntry loaded field (.dict (mappedEntries codec toolMap identifiers))
      | _ => loaded) loaded)
  | other => other

def validateLoadedSkillReferences (codec : Codec) (index : Nat) (toolMap : IdentityMap)
    (source remapped : Row) : Except ValidationError Unit :=
  if toolMap.isEmpty then .ok ()
  else validateDocument codec .processes index "loaded_skills_json" .object
    (fun (skills : Dict) =>
      .ok (skills.map fun skill => (skill.1, remapLoadedSkillRecord codec toolMap skill.2)))
    source remapped

def validateMemoryViewReferences (codec : Codec) (index : Nat) (identities : SnapshotIdentityMap)
    (source remapped : Row) : Except ValidationError Unit :=
  if viewUnmapped identities then .ok ()
  else validateDocument codec .processes index "memory_view_json" .object
    (rewriteMemoryView identities) source remapped

def validateProcessReferences (codec : Codec) (identities : SnapshotIdentityMap) (index : Nat)
    (source remapped : Row) : Except ValidationError Unit := do
  validateProcessCapabilityIndex codec index (identities .capabilities) source remapped
  validateProcessToolTables codec index (identities .tools) source remapped
  validateLoadedSkillReferences codec index (identities .tools) source remapped
  validateMemoryViewReferences codec index identities source remapped

def expectedOwner (pidMap : IdentityMap) (source : Row) : Value :=
  if !pidMap.isEmpty && ownedByProcess (source.get "owner_kind") then
    applyText pidMap (source.get "owner_id")
  else source.get "owner_id"

def expectedProvenance (codec : Codec) (objectMap : IdentityMap) (provenance : Dict) : Dict :=
  match parentOids provenance with
  | .list oids => setEntry provenance "parent_oids" (.list (oids.map (mapped codec objectMap)))
  | _ => provenance

def validateObjectReferences (codec : Codec) (identities : SnapshotIdentityMap) (index : Nat)
    (source remapped : Row) : Except ValidationError Unit := do
  ensure ((remapped.get "owner_id").eq (expectedOwner (identities .pids) source))
    (referenceError .objects index "owner_id")
  if (identities .objects).isEmpty then .ok ()
  else
    validateDocument codec .objects index "provenance_json" .object
      (fun (provenance : Dict) => .ok (expectedProvenance codec (identities .objects) provenance))
      source remapped

def validateCapabilityReferences (identities : SnapshotIdentityMap) (index : Nat)
    (source remapped : Row) : Except ValidationError Unit :=
  if (source.get "resource").isStr then do
    let resource ← expectedResource identities "capability resource" (source.get "resource")
    ensure ((remapped.get "resource").eq (.str resource))
      (referenceError .capabilities index "resource")
  else .ok ()

def validateMessageReferences (codec : Codec) (objectMap : IdentityMap) (index : Nat)
    (source remapped : Row) : Except ValidationError Unit :=
  if objectMap.isEmpty then .ok ()
  else validateDocument codec .processMessages index "metadata_json" .object
    (fun (metadata : Dict) => .ok (applyEntry objectMap metadata "label_carrier_oid"))
    source remapped

def validateCandidateReferences (codec : Codec) (identities : SnapshotIdentityMap) (index : Nat)
    (source remapped : Row) : Except ValidationError Unit :=
  validateDocument codec .toolCandidates index "requested_capabilities_json" .list
    (fun (requested : List Value) => requested.zipIdx.mapM (rewriteRequested identities))
    source remapped

def validateRow (codec : Codec) (identities : SnapshotIdentityMap) (table : SnapshotTable)
    (rows : (Row × Row) × Nat) : Except ValidationError Unit := do
  validateDirectRowReferences codec identities table rows.2 rows.1.1 rows.1.2
  match table with
  | .processes => validateProcessReferences codec identities rows.2 rows.1.1 rows.1.2
  | .objects => validateObjectReferences codec identities rows.2 rows.1.1 rows.1.2
  | .capabilities => validateCapabilityReferences identities rows.2 rows.1.1 rows.1.2
  | .processMessages =>
      validateMessageReferences codec (identities .objects) rows.2 rows.1.1 rows.1.2
  | .toolCandidates => validateCandidateReferences codec identities rows.2 rows.1.1 rows.1.2
  | _ => .ok ()

def validateRemappedReferences (codec : Codec) (identities : SnapshotIdentityMap)
    (source remapped : ProcessSnapshot) : Except ValidationError Unit := do
  validateTopLevelReferences identities source remapped
  SnapshotTable.all.forM fun table =>
    ((source.rows table).zip (remapped.rows table)).zipIdx.forM
      (validateRow codec identities table)

/-! ## Remapping a snapshot -/

def remapRows (codec : Codec) (identities : SnapshotIdentityMap) (rows : SnapshotRows) :
    Except ValidationError SnapshotRows := do
  let tables ← SnapshotTable.all.mapM fun table =>
    ((rows table).mapM (remapTableRow codec identities table)).map fun remapped => (table, remapped)
  let remapped : SnapshotRows := fun table => (tables.lookup table).getD []
  remapped.postInit codec
  .ok remapped

def changesPrivateIdentity (identities : SnapshotIdentityMap) : Bool :=
  [IdentityKind.pids, .objects].any fun kind =>
    (identities kind).entries.any fun entry => entry.1 != entry.2

def renamed (identities : SnapshotIdentityMap) (snapshot : ProcessSnapshot) (rows : SnapshotRows) :
    ProcessSnapshot where
  header := { snapshot.header with rootPid := (identities .pids).apply snapshot.header.rootPid }
  subtreePids := snapshot.subtreePids.map (identities .pids).apply
  objectOids := snapshot.objectOids.map (identities .objects).apply
  ownedObjectOids := snapshot.ownedObjectOids.map (identities .objects).apply
  referencedObjectOids := snapshot.referencedObjectOids.map (identities .objects).apply
  referencedObjectTypes := snapshot.referencedObjectTypes.rekey (identities .objects)
  namespaces := snapshot.namespaces.map (identities .namespaces).apply
  ownedNamespaces := snapshot.ownedNamespaces.map (identities .namespaces).apply
  rows := rows
  objectPayloads := snapshot.objectPayloads.rekey (identities .objects)
  images := snapshot.images
  imageArtifacts := snapshot.imageArtifacts
  jitSources := snapshot.jitSources.rekey (identities .tools)
  modules := snapshot.modules
  responsesReplayRefs := snapshot.responsesReplayRefs
  providerContinuationRefs := snapshot.providerContinuationRefs

def remap (codec : Codec) (identities : SnapshotIdentityMap) (snapshot : ProcessSnapshot) :
    Except ValidationError ProcessSnapshot := do
  validateIdentityCollisions codec identities snapshot
  ensure (snapshot.responsesReplayRefs.entries = [] ∨ changesPrivateIdentity identities = false)
    "snapshot private Responses replay requires an authorized local rebind"
  ensure (snapshot.providerContinuationRefs.entries = [] ∨
      changesPrivateIdentity identities = false)
    "snapshot private provider continuation requires an authorized local rebind"
  let rows ← remapRows codec identities snapshot.rows
  let remapped := renamed identities snapshot rows
  remapped.postInit
  validateRemappedCardinality snapshot remapped
  validateRemappedReferences codec identities snapshot remapped
  .ok remapped

end SnapshotRemapper

end AgentLibOS.Snapshots
