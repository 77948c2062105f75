import AgentLibOS.Capability.Resources
import AgentLibOS.Library.Run
import AgentLibOS.Snapshots.ProcessState

namespace AgentLibOS.Snapshots
open Capability Processes Library.Run

namespace SnapshotRemapper

/-! ## Plain columns -/

/-- `selected.get(str(value), value)`. -/
def mapped (codec : Codec) (selected : IdentityMap) (value : Value) : Value :=
  match selected.get? (codec.str value) with
  | some target => .str target
  | none => value

def remapField (codec : Codec) (identities : SnapshotIdentityMap) (row : Row)
    (field : String × IdentityKind) : Row :=
  let value := row.get field.1
  if value.isNone then row
  else match (identities field.2).get? (codec.str value) with
    | some target => row.insert field.1 (.str target)
    | none => row

def remapFields (codec : Codec) (identities : SnapshotIdentityMap) (row : Row) : Row :=
  fieldMaps.foldl (remapField codec identities) row

/-! ## Process states -/

def isStale : Option WaitState → Bool
  | some (.staleExecution _) => true
  | _ => false

def remapState (codec : Codec) (identities : SnapshotIdentityMap) (row : Row) :
    Except ValidationError Row := do
  let sourceWaitState ← waitStateFromJson codec (row.get "wait_state_json")
  let waitState ← remapWaitState (identities .pids) (identities .objects) sourceWaitState
  let sourceOutcome ← outcomeFromJson codec (row.get "outcome_json")
  let outcome ← remapOutcome (identities .objects) sourceOutcome
  let fallback := if isStale sourceWaitState then .none else row.get "status_message"
  .ok (((row.insert "wait_state_json" (.str (codec.dumps (WaitState.toMapping waitState)))).insert
    "outcome_json" (.str (codec.dumps (Outcome.toMapping outcome)))).insert
    "status_message" (legacyStatusMessage codec waitState outcome fallback))

def remapRow (codec : Codec) (identities : SnapshotIdentityMap) (row : Row) :
    Except ValidationError Row :=
  let remapped := remapFields codec identities row
  if (remapped.column "wait_state_json").isSome ∧ (remapped.column "outcome_json").isSome then
    remapState codec identities remapped
  else .ok remapped

/-! ## Documents -/

/-- A column that holds a document is written only if the document changes. -/
def rewriteDocument (codec : Codec) (column label : String) (shape : DocumentType)
    (rewrite : shape.Content → Except ValidationError shape.Content) (row : Row) :
    Except ValidationError Row :=
  if (row.get column).isNone then .ok row
  else do
    let document ← jsonContainer codec label shape (row.get column)
    let rewritten ← rewrite document
    if (shape.value rewritten).eq (shape.value document) then .ok row
    else .ok (row.insert column (.str (codec.dumps (shape.value rewritten))))

def idText : Value → Bool
  | .str text => text != ""
  | _ => false

def applyText (selected : IdentityMap) : Value → Value
  | .str id => .str (selected.apply id)
  | other => other

/-- A text entry of an object; an entry of another type stays as it is. -/
def applyEntry (selected : IdentityMap) (entries : Dict) (key : String) : Dict :=
  match entries.get key with
  | .str id => setEntry entries key (.str (selected.apply id))
  | _ => entries

def rewriteIds (selected : IdentityMap) (complaint : String) (ids : List Value) :
    Except ValidationError (List Value) := do
  ensure (ids.all idText) complaint
  .ok (ids.map (applyText selected))

def rewriteStringMapping (selected : IdentityMap) (complaint : String) (entries : Dict) :
    Except ValidationError Dict := do
  ensure (entries.all fun entry => idText entry.2) complaint
  .ok (entries.map fun entry => (entry.1, applyText selected entry.2))

/-! ## Processes -/

def remapProcessCapabilityIndex (codec : Codec) (capabilityMap : IdentityMap) (row : Row) :
    Except ValidationError Row :=
  if capabilityMap.isEmpty then .ok row
  else rewriteDocument codec "capabilities_json" "processes.capabilities_json" .list
    (rewriteIds capabilityMap "snapshot processes.capabilities_json must contain capability ids") row

def remapProcessToolTable (codec : Codec) (toolMap : IdentityMap) (column : String) (row : Row) :
    Except ValidationError Row :=
  rewriteDocument codec column s!"processes.{column}" .object
    (rewriteStringMapping toolMap s!"snapshot processes.{column} must be a string mapping") row

def remapProcessToolTables (codec : Codec) (toolMap : IdentityMap) (row : Row) :
    Except ValidationError Row :=
  if toolMap.isEmpty then .ok row
  else do
    let row ← remapProcessToolTable codec toolMap "tool_table_json" row
    remapProcessToolTable codec toolMap "model_tool_table_json" row

def loadedSkillFields : List String :=
  ["tool_ids", "jit_tool_ids", "base_tool_ids", "base_model_tool_ids"]

def rewriteSkillField (toolMap : IdentityMap) (loaded : Dict) (field : String) :
    Except ValidationError Dict :=
  let complaint := s!"snapshot processes.loaded_skills_json {field} must be a string mapping"
  match loaded.get field with
  | .none => .ok loaded
  | .dict identifiers => do
      let tools ← rewriteStringMapping toolMap complaint identifiers
      .ok (setEntry loaded field (.dict tools))
  | _ => .error complaint

def rewriteLoadedSkill (toolMap : IdentityMap) (skill : String × Value) :
    Except ValidationError (String × Value) :=
  match skill.2 with
  | .dict loaded => do
      let rewritten ← loadedSkillFields.foldlM (rewriteSkillField toolMap) loaded
      .ok (skill.1, .dict rewritten)
  | _ => .error "snapshot processes.loaded_skills_json must map skill ids to objects"

def remapLoadedSkillTools (codec : Codec) (toolMap : IdentityMap) (row : Row) :
    Except ValidationError Row :=
  rewriteDocument codec "loaded_skills_json" "processes.loaded_skills_json" .object
    (List.mapM (rewriteLoadedSkill toolMap)) row

def isObject : Value → Bool
  | .dict _ => true
  | _ => false

def rewriteRoot (identities : SnapshotIdentityMap) : Value → Value
  | .dict root =>
      .dict (applyEntry (identities .capabilities) (applyEntry (identities .objects) root "oid")
        "capability_id")
  | other => other

def rewriteMemoryView (identities : SnapshotIdentityMap) (view : Dict) :
    Except ValidationError Dict :=
  let complaint := "snapshot processes.memory_view_json roots must be a list of objects"
  let owned := applyEntry (identities .pids) view "owner_pid"
  match owned.lookup "roots" with
  | none => .ok owned
  | some (.list roots) => do
      ensure (roots.all isObject) complaint
      .ok (setEntry owned "roots" (.list (roots.map (rewriteRoot identities))))
  | some _ => .error complaint

def viewUnmapped (identities : SnapshotIdentityMap) : Bool :=
  (identities .pids).isEmpty && (identities .objects).isEmpty && (identities .capabilities).isEmpty

def remapProcessMemoryView (codec : Codec) (identities : SnapshotIdentityMap) (row : Row) :
    Except ValidationError Row :=
  if viewUnmapped identities then .ok row
  else rewriteDocument codec "memory_view_json" "processes.memory_view_json" .object
    (rewriteMemoryView identities) row

def remapProcessCarriers (codec : Codec) (identities : SnapshotIdentityMap) (row : Row) :
    Except ValidationError Row := do
  let row ← remapProcessCapabilityIndex codec (identities .capabilities) row
  let row ← remapProcessToolTables codec (identities .tools) row
  let row ← (if (identities .tools).isEmpty then .ok row
    else remapLoadedSkillTools codec (identities .tools) row)
  remapProcessMemoryView codec identities row

/-! ## Objects -/

def ownedByProcess : Value → Bool
  | .str kind => kind == "process" || kind == "process_result"
  | _ => false

def remapOwner (pidMap : IdentityMap) (row : Row) : Except ValidationError Row :=
  if pidMap.isEmpty then .ok row
  else if !(row.get "owner_kind").hashable then .error "unhashable type"
  else if ownedByProcess (row.get "owner_kind") then
    match row.get "owner_id" with
    | .str ownerId => .ok (row.insert "owner_id" (.str (pidMap.apply ownerId)))
    | _ => .ok row
  else .ok row

def parentOids (provenance : Dict) : Value := (provenance.lookup "parent_oids").getD (.list [])

/-- The parents are written even where the document has none. -/
def rewriteProvenance (objectMap : IdentityMap) (provenance : Dict) : Except ValidationError Dict :=
  let complaint := "snapshot objects.provenance_json parent_oids must be a list of ids"
  match parentOids provenance with
  | .list oids => do
      let parents ← rewriteIds objectMap complaint oids
      .ok (setEntry provenance "parent_oids" (.list parents))
  | _ => .error complaint

def remapProvenance (codec : Codec) (objectMap : IdentityMap) (row : Row) :
    Except ValidationError Row :=
  if objectMap.isEmpty then .ok row
  else rewriteDocument codec "provenance_json" "objects.provenance_json" .object
    (rewriteProvenance objectMap) row

def remapObjectCarriers (codec : Codec) (identities : SnapshotIdentityMap) (row : Row) :
    Except ValidationError Row := do
  let row ← remapOwner (identities .pids) row
  remapProvenance codec (identities .objects) row

/-! ## Capability resources -/

def parseCapabilityResource (field : String) (resource : Value) :
    Except ValidationError ResourcePattern :=
  match resource with
  | .str text =>
      match ResourceAuthority.parse text false with
      | .error _ => .error s!"snapshot {field} is not a valid capability resource"
      | .ok pattern =>
          if pattern.raw = text.toList then .ok pattern
          else .error s!"snapshot {field} must be a canonical capability resource"
  | _ => .error s!"snapshot {field} must be a string"

def resourceWithBody (pattern : ResourcePattern) (body : List Char) : String :=
  let base := pattern.kind ++ ':' :: body
  match pattern.scope with
  | .subtreeScope => String.ofList (base ++ ['/', '*'])
  | .prefixScope => String.ofList (base ++ [':', '*'])
  | .exactScope => String.ofList base

def resourceMaps : List (String × String × IdentityKind) :=
  [("checkpoint", "process:", .pids), ("object_namespace", "", .namespaces),
    ("process", "", .pids), ("object", "", .objects), ("tool", "", .tools)]

def resourceMap? (pattern : ResourcePattern) : Option (String × String × IdentityKind) :=
  resourceMaps.find? fun entry =>
    pattern.kind = entry.1.toList ∧ entry.2.1.toList <+: pattern.body

def expectedResource (identities : SnapshotIdentityMap) (field : String) (resource : Value) :
    Except ValidationError String := do
  let pattern ← parseCapabilityResource field resource
  match resourceMap? pattern with
  | some (_, start, selected) =>
      match (identities selected).get? (String.ofList (pattern.body.drop start.length)) with
      | some target => .ok (resourceWithBody pattern (start.toList ++ target.toList))
      | none => .ok (String.ofList pattern.raw)
  | none => .ok (String.ofList pattern.raw)

def remapCapabilityResource (identities : SnapshotIdentityMap) (row : Row) :
    Except ValidationError Row :=
  (expectedResource identities "capabilities.resource" (row.get "resource")).map fun resource =>
    row.insert "resource" (.str resource)

/-! ## Messages and candidates -/

/-- The document is written whenever its carrier is mapped. -/
def remapMessageCarriers (codec : Codec) (objectMap : IdentityMap) (row : Row) :
    Except ValidationError Row :=
  if objectMap.isEmpty ∨ (row.get "metadata_json").isNone then .ok row
  else do
    let metadata ←
      jsonContainer codec "process_messages.metadata_json" .object (row.get "metadata_json")
    match metadata.get "label_carrier_oid" with
    | .str carrierOid =>
        match objectMap.get? carrierOid with
        | some target =>
            .ok (row.insert "metadata_json"
              (.str (codec.dumps (.dict (setEntry metadata "label_carrier_oid" (.str target))))))
        | none => .ok row
    | _ => .ok row

def rewriteRequested (identities : SnapshotIdentityMap) (item : Value × Nat) :
    Except ValidationError Value :=
  match item.1 with
  | .dict requested =>
      (expectedResource identities
        s!"tool_candidates.requested_capabilities_json[{item.2}].resource"
        (Dict.get requested "resource")).map fun resource =>
          .dict (setEntry requested "resource" (.str resource))
  | other => .ok other

def remapCandidateCarriers (codec : Codec) (identities : SnapshotIdentityMap) (row : Row) :
    Except ValidationError Row :=
  rewriteDocument codec "requested_capabilities_json" "tool_candidates.requested_capabilities_json"
    .list (fun requested => do
      ensure (requested.all isObject)
        "snapshot tool_candidates.requested_capabilities_json must be a list of objects"
      requested.zipIdx.mapM (rewriteRequested identities)) row

/-! ## Rows -/

def remapNestedRow (codec : Codec) (identities : SnapshotIdentityMap) (table : SnapshotTable)
    (row : Row) : Except ValidationError Row :=
  match table with
  | .processes => remapProcessCarriers codec identities row
  | .objects => remapObjectCarriers codec identities row
  | .capabilities => remapCapabilityResource identities row
  | .processMessages => remapMessageCarriers codec (identities .objects) row
  | .toolCandidates => remapCandidateCarriers codec identities row
  | _ => .ok row

def remapTableRow (codec : Codec) (identities : SnapshotIdentityMap) (table : SnapshotTable)
    (row : Row) : Except ValidationError Row := do
  let remapped ← remapRow codec identities row
  remapNestedRow codec identities table remapped

end SnapshotRemapper

end AgentLibOS.Snapshots
