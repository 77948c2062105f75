import AgentLibOS.Processes.WaitCodec
import AgentLibOS.Snapshots.Rows

namespace AgentLibOS.Snapshots
open Capability Processes

/-! ## Fields of a state document -/

def stateLabel (value : Value) (field : String) : Except ValidationError Label :=
  match value with
  | .str text =>
      match nonEmptyString text with
      | some label => .ok label
      | none => .error s!"process state {field} must be a non-empty string"
  | _ => .error s!"process state {field} must be a non-empty string"

def optionalLabel (value : Value) (field : String) : Except ValidationError (Option Label) :=
  if value.isNone then .ok none else (stateLabel value field).map some

def nonnegativeInteger (value : Value) (field : String) : Except ValidationError Nat :=
  match value with
  | .int number =>
      if 0 ≤ number then .ok number.toNat
      else .error s!"process state {field} must be a non-negative integer"
  | _ => .error s!"process state {field} must be a non-negative integer"

def stateDigest (value : Value) (field : String) : Except ValidationError Digest := do
  let label ← stateLabel value field
  match Digest.ofText label.value with
  | some digest => .ok digest
  | none => .error s!"process state {field} must be a canonical SHA-256"

def optionalDigest (value : Value) (field : String) : Except ValidationError (Option Digest) :=
  if value.isNone then .ok none else (stateDigest value field).map some

mutual

/-- `_strict_json_value`: a tree of JSON values without infinite numbers. -/
def strictJson : Value → Bool
  | .float (.finite _) => true
  | .float _ => false
  | .list items => strictJsonList items
  | .dict entries => strictJsonDict entries
  | _ => true

def strictJsonList : List Value → Bool
  | [] => true
  | item :: items => strictJson item && strictJsonList items

def strictJsonDict : Dict → Bool
  | [] => true
  | (_, value) :: entries => strictJson value && strictJsonDict entries

end

/-- `_canonical_mapping`, for a mapping of the right kind. -/
def canonicalMapping (codec : Codec) (entries : Dict) (kind : String) (fields : List String) :
    Except ValidationError Unit :=
  let expected := "schema_version" :: "kind" :: fields
  let missing := expected.filter fun name => !entries.has name
  let unknown := (entries.map Prod.fst).filter fun name => name ∉ expected
  let texts (names : List String) := codec.repr (.list ((sortedKeys names).map .str))
  if missing ≠ [] ∨ unknown ≠ [] then
    .error s!"process state {kind} is not canonical; missing={texts missing}, unknown={texts unknown}"
  else match entries.get "schema_version" with
    | .int 1 => .ok ()
    | version => .error
        s!"unsupported process state schema_version: {codec.repr version}; expected 1"

/-! ## Wait states -/

inductive WaitState
  | child (childPid : Label)
  | message (filters : Dict)
  | human (requestIds : RequestIds)
  | tool (operationId : Label)
  | paused (reasonOid : Option Label)
  | hostResume (reasonOid : Label)
  | staleExecution (receipt : StaleExecution)

namespace WaitState

def kind : WaitState → String
  | .child _ => "child"
  | .message _ => "message"
  | .human _ => "human"
  | .tool _ => "tool"
  | .paused _ => "paused"
  | .hostResume _ => "host_resume"
  | .staleExecution _ => "stale_execution"

def optionalText (label : Option Label) : Value := label.elim .none fun label => .str label.value

def optionalSha256 (digest : Option Digest) : Value :=
  digest.elim .none fun digest => .str digest.value

def mappingFields : WaitState → Dict
  | .child childPid => [("child_pid", .str childPid.value)]
  | .message filters => [("filters", .dict filters)]
  | .human requestIds => [("request_ids", .list (requestIds.ids.map (.str ·.value)))]
  | .tool operationId => [("operation_id", .str operationId.value)]
  | .paused reasonOid => [("reason_oid", optionalText reasonOid)]
  | .hostResume reasonOid => [("reason_oid", .str reasonOid.value)]
  | .staleExecution receipt =>
      [("pid", .str receipt.pid.value),
        ("recovered_by_owner_sha256", .str receipt.recoveredByOwnerSha256.value),
        ("prior_owner_sha256", optionalSha256 receipt.priorOwnerSha256),
        ("prior_lease_sha256", optionalSha256 receipt.priorLeaseSha256),
        ("prior_execution_generation", .int receipt.priorExecutionGeneration),
        ("recovered_execution_generation", .int receipt.recoveredExecutionGeneration),
        ("recovered_state_generation", .int receipt.recoveredStateGeneration)]

/-- `process_wait_state_to_mapping`. -/
def toMapping (waitState : Option WaitState) : Value :=
  waitState.elim .none fun value =>
    .dict ([("schema_version", .int 1), ("kind", .str value.kind)] ++ value.mappingFields)

def requestIdsOf (value : Value) : Except ValidationError RequestIds :=
  match value with
  | .list items => do
      let ids ← items.mapM (stateLabel · "request_ids[]")
      if filled : ids ≠ [] then
        if distinct : ids.Nodup then .ok ⟨ids, filled, distinct⟩
        else .error "process state human request_ids must not contain duplicates"
      else .error "process state human request_ids must not be empty"
  | _ => .error "process state human request_ids must be a list"

def staleOf (entries : Dict) : Except ValidationError StaleExecution := do
  let pid ← stateLabel (entries.get "pid") "pid"
  let recoveredByOwner ←
    stateDigest (entries.get "recovered_by_owner_sha256") "recovered_by_owner_sha256"
  let priorOwner ← optionalDigest (entries.get "prior_owner_sha256") "prior_owner_sha256"
  let priorLease ← optionalDigest (entries.get "prior_lease_sha256") "prior_lease_sha256"
  let priorExecution ←
    nonnegativeInteger (entries.get "prior_execution_generation") "prior_execution_generation"
  let recoveredExecution ← nonnegativeInteger (entries.get "recovered_execution_generation")
    "recovered_execution_generation"
  let recoveredState ←
    nonnegativeInteger (entries.get "recovered_state_generation") "recovered_state_generation"
  if execution : 0 < recoveredExecution then
    if state : 0 < recoveredState then
      .ok ⟨pid, recoveredByOwner, priorOwner, priorLease, priorExecution, recoveredExecution,
        recoveredState, execution, state⟩
    else .error "process state recovered_state_generation must be positive"
  else .error "process state recovered_execution_generation must be positive"

def ofEntries (codec : Codec) (entries : Dict) : Except ValidationError WaitState := do
  match entries.get "kind" with
  | .str "child" => do
      canonicalMapping codec entries "child" ["child_pid"]
      (stateLabel (entries.get "child_pid") "child_pid").map .child
  | .str "message" => do
      canonicalMapping codec entries "message" ["filters"]
      match entries.get "filters" with
      | .dict filters =>
          if strictJsonDict filters then .ok (.message filters)
          else .error "process state message filters contain a non-finite number"
      | _ => .error "process state message filters must be an object"
  | .str "human" => do
      canonicalMapping codec entries "human" ["request_ids"]
      (requestIdsOf (entries.get "request_ids")).map .human
  | .str "tool" => do
      canonicalMapping codec entries "tool" ["operation_id"]
      (stateLabel (entries.get "operation_id") "operation_id").map .tool
  | .str "paused" => do
      canonicalMapping codec entries "paused" ["reason_oid"]
      (optionalLabel (entries.get "reason_oid") "reason_oid").map .paused
  | .str "host_resume" => do
      canonicalMapping codec entries "host_resume" ["reason_oid"]
      (stateLabel (entries.get "reason_oid") "reason_oid").map .hostResume
  | .str "stale_execution" => do
      canonicalMapping codec entries "stale_execution" ["pid", "recovered_by_owner_sha256",
        "prior_owner_sha256", "prior_lease_sha256", "prior_execution_generation",
        "recovered_execution_generation", "recovered_state_generation"]
      (staleOf entries).map .staleExecution
  | kind => .error s!"unsupported process wait state kind: {codec.repr kind}"

/-- `process_wait_state_from_mapping`. -/
def ofMapping (codec : Codec) : Value → Except ValidationError (Option WaitState)
  | .none => .ok none
  | .dict entries => (ofEntries codec entries).map some
  | _ => .error "process wait state must be an object or null"

end WaitState

/-! ## Outcomes -/

namespace Outcome

/-- `process_outcome_to_mapping`. -/
def toMapping (outcome : Option ProcessOutcome) : Value :=
  let document (kind : String) (fields : Dict) : Value :=
    .dict ([("schema_version", .int 1), ("kind", .str kind)] ++ fields)
  match outcome with
  | none => .none
  | some (.exited resultOid) =>
      document "exited" [("result_oid", WaitState.optionalText resultOid)]
  | some (.failed resultOid code) =>
      document "failed" [("result_oid", WaitState.optionalText resultOid),
        ("code", WaitState.optionalText code)]
  | some (.killed reasonOid code) =>
      document "killed" [("reason_oid", WaitState.optionalText reasonOid),
        ("code", WaitState.optionalText code)]

def ofEntries (codec : Codec) (entries : Dict) : Except ValidationError ProcessOutcome := do
  match entries.get "kind" with
  | .str "exited" => do
      canonicalMapping codec entries "exited" ["result_oid"]
      (optionalLabel (entries.get "result_oid") "result_oid").map .exited
  | .str "failed" => do
      canonicalMapping codec entries "failed" ["result_oid", "code"]
      let resultOid ← optionalLabel (entries.get "result_oid") "result_oid"
      (optionalLabel (entries.get "code") "code").map (.failed resultOid)
  | .str "killed" => do
      canonicalMapping codec entries "killed" ["reason_oid", "code"]
      let reasonOid ← optionalLabel (entries.get "reason_oid") "reason_oid"
      (optionalLabel (entries.get "code") "code").map (.killed reasonOid)
  | kind => .error s!"unsupported process outcome kind: {codec.repr kind}"

/-- `process_outcome_from_mapping`. -/
def ofMapping (codec : Codec) : Value → Except ValidationError (Option ProcessOutcome)
  | .none => .ok none
  | .dict entries => (ofEntries codec entries).map some
  | _ => .error "process outcome must be an object or null"

end Outcome

/-- `process_wait_state_from_json` and `process_outcome_from_json`, by what they read. -/
def stateFromJson {α : Type} (codec : Codec) (label : String)
    (read : Codec → Value → Except ValidationError (Option α)) (raw : Value) :
    Except ValidationError (Option α) :=
  match raw with
  | .none => .ok none
  | .str text =>
      match codec.loadStrict text with
      | some document => read codec document
      | none => .error s!"persisted process {label} is not valid JSON"
  | _ => .error "the JSON object must be str, bytes or bytearray"

def waitStateFromJson (codec : Codec) (raw : Value) : Except ValidationError (Option WaitState) :=
  stateFromJson codec "wait state" WaitState.ofMapping raw

def outcomeFromJson (codec : Codec) (raw : Value) :
    Except ValidationError (Option ProcessOutcome) :=
  stateFromJson codec "outcome" Outcome.ofMapping raw

/-! ## Remapping -/

def remapLabel (selected : IdentityMap) (field : String) (label : Label) :
    Except ValidationError Label :=
  stateLabel (.str (selected.apply label.value)) field

def remapOptional (selected : IdentityMap) (field : String) :
    Option Label → Except ValidationError (Option Label)
  | none => .ok none
  | some label => (remapLabel selected field label).map some

/-- `remap_process_wait_state`: a takeover receipt is not transferred. -/
def remapWaitState (pids objects : IdentityMap) :
    Option WaitState → Except ValidationError (Option WaitState)
  | some (.child childPid) => (remapLabel pids "child_pid" childPid).map fun pid => some (.child pid)
  | some (.paused reasonOid) =>
      (remapOptional objects "reason_oid" reasonOid).map fun oid => some (.paused oid)
  | some (.hostResume reasonOid) =>
      (remapLabel objects "reason_oid" reasonOid).map fun oid => some (.hostResume oid)
  | some (.staleExecution _) => .ok (some (.paused none))
  | other => .ok other

def remapOutcome (objects : IdentityMap) :
    Option ProcessOutcome → Except ValidationError (Option ProcessOutcome)
  | some (.exited resultOid) =>
      (remapOptional objects "result_oid" resultOid).map fun oid => some (.exited oid)
  | some (.failed resultOid code) =>
      (remapOptional objects "result_oid" resultOid).map fun oid => some (.failed oid code)
  | some (.killed reasonOid code) =>
      (remapOptional objects "reason_oid" reasonOid).map fun oid => some (.killed oid code)
  | none => .ok none

def resultText (label : Label) : Value := .str s!"result_oid:{label.value}"

/-- `legacy_status_message`. -/
def legacyStatusMessage (codec : Codec) (waitState : Option WaitState)
    (outcome : Option ProcessOutcome) (fallback : Value) : Value :=
  match waitState with
  | some (.child childPid) => .str s!"waiting for {childPid.value}"
  | some (.message filters) => .str s!"waiting_message:{codec.sortedText filters}"
  | some (.human requestIds) =>
      let intro_ :=
        if requestIds.ids.length = 1 then "waiting for human request "
        else "waiting for human requests "
      .str (intro_ ++ ",".intercalate (requestIds.ids.map (·.value)))
  | some (.hostResume reasonOid) => .str s!"host_resume_required:{reasonOid.value}"
  | some (.staleExecution _) => .str "stale_execution_recovery"
  | some (.paused (some reasonOid)) => resultText reasonOid
  | _ =>
      match outcome with
      | some (.exited (some resultOid)) | some (.failed (some resultOid) _) => resultText resultOid
      | some (.killed (some reasonOid) _) => resultText reasonOid
      | _ => fallback

end AgentLibOS.Snapshots
