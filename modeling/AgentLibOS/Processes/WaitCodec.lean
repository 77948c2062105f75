import AgentLibOS.Processes.State

namespace AgentLibOS.Processes
open Library.Text

/-! ## JSON trees -/

inductive Json
  | null
  | text (value : String)
  | number (value : Nat)
  | array (items : List Json)
  | object (fields : List (String × Json))

namespace Json

def ofText (value : Option String) : Json := value.elim .null .text

def asText : Json → Option String
  | .text value => some value
  | _ => none

def asNumber : Json → Option Nat
  | .number value => some value
  | _ => none

def asArray : Json → Option (List Json)
  | .array items => some items
  | _ => none

/-- A value that is null or what `read` makes of it. -/
def optional {α : Type} (read : Json → Option α) : Json → Option (Option α)
  | .null => some none
  | value => (read value).map some

def asLabel (value : Json) : Option Label := value.asText.bind nonEmptyString

end Json

/-- `_sha256`. -/
def Digest.ofText (value : String) : Option Digest :=
  (nonEmptyString value).bind fun selected =>
    if canonical : (decide (selected.value.length = 64) &&
        selected.value.toList.all fun c => c ∈ "0123456789abcdef".toList) = true then
      some ⟨selected.value, canonical⟩
    else none

def Json.asDigest (value : Json) : Option Digest := value.asText.bind Digest.ofText

/-! ## Mappings of wait states -/

def MessageFilters.toMapping (filters : MessageFilters) : Json :=
  .object [("kind", .ofText filters.kind), ("sender", .ofText filters.sender),
    ("channel", .ofText filters.channel), ("correlation_id", .ofText filters.correlationId),
    ("reply_to", .ofText filters.replyTo),
    ("message_ids", filters.messageIds.elim .null fun ids => .array (ids.map .text))]

def MessageFilters.ofMapping : Json → Option MessageFilters
  | .object fields => do
      let read (name : String) : Option (Option String) :=
        (fields.lookup name).bind (Json.optional Json.asText)
      let kind ← read "kind"
      let sender ← read "sender"
      let channel ← read "channel"
      let correlationId ← read "correlation_id"
      let replyTo ← read "reply_to"
      let messageIds ← (fields.lookup "message_ids").bind <| Json.optional fun value =>
        value.asArray.bind (·.mapM Json.asText)
      some ⟨kind, sender, channel, correlationId, replyTo, messageIds⟩
  | _ => none

def digestMapping (digest : Option Digest) : Json := .ofText (digest.map (·.value))

namespace ProcessWaitState

def kind : ProcessWaitState → String
  | .child _ => "child"
  | .message _ => "message"
  | .human _ => "human"
  | .tool _ => "tool"
  | .paused _ => "paused"
  | .hostResume _ => "host_resume"
  | .staleExecution _ => "stale_execution"

def mappingFields : ProcessWaitState → List (String × Json)
  | .child childPid => [("child_pid", .text childPid.value)]
  | .message filters => [("filters", filters.toMapping)]
  | .human requestIds => [("request_ids", .array (requestIds.ids.map (.text ·.value)))]
  | .tool operationId => [("operation_id", .text operationId.value)]
  | .paused reasonOid => [("reason_oid", .ofText (reasonOid.map (·.value)))]
  | .hostResume reasonOid => [("reason_oid", .text reasonOid.value)]
  | .staleExecution receipt =>
      [("pid", .text receipt.pid.value),
        ("recovered_by_owner_sha256", .text receipt.recoveredByOwnerSha256.value),
        ("prior_owner_sha256", digestMapping receipt.priorOwnerSha256),
        ("prior_lease_sha256", digestMapping receipt.priorLeaseSha256),
        ("prior_execution_generation", .number receipt.priorExecutionGeneration),
        ("recovered_execution_generation", .number receipt.recoveredExecutionGeneration),
        ("recovered_state_generation", .number receipt.recoveredStateGeneration)]

/-- `process_wait_state_to_mapping`. -/
def toMapping (waitState : Option ProcessWaitState) : Json :=
  waitState.elim .null fun value =>
    .object ([("schema_version", .number 1), ("kind", .text value.kind)] ++ value.mappingFields)

/-- `_canonical_mapping`, for a mapping of the right kind. -/
def canonical (fields : List (String × Json)) (names : List String) : Bool :=
  let expected := "schema_version" :: "kind" :: names
  (fields.all fun field => expected.contains field.1) &&
    (expected.all fun name => (fields.map Prod.fst).contains name) &&
    ((fields.lookup "schema_version").bind Json.asNumber == some 1)

def humanOfLabels (ids : List Label) : Option RequestIds :=
  if valid : ids ≠ [] ∧ ids.Nodup then some ⟨ids, valid.1, valid.2⟩ else none

def staleOfFields (field : String → Option Json) : Option StaleExecution := do
  let pid ← (field "pid").bind Json.asLabel
  let recoveredByOwner ← (field "recovered_by_owner_sha256").bind Json.asDigest
  let priorOwner ← (field "prior_owner_sha256").bind (Json.optional Json.asDigest)
  let priorLease ← (field "prior_lease_sha256").bind (Json.optional Json.asDigest)
  let priorExecution ← (field "prior_execution_generation").bind Json.asNumber
  let recoveredExecution ← (field "recovered_execution_generation").bind Json.asNumber
  let recoveredState ← (field "recovered_state_generation").bind Json.asNumber
  if positive : 0 < recoveredExecution ∧ 0 < recoveredState then
    some ⟨pid, recoveredByOwner, priorOwner, priorLease, priorExecution, recoveredExecution,
      recoveredState, positive.1, positive.2⟩
  else none

def ofFields (fields : List (String × Json)) (kind : String) : Option ProcessWaitState :=
  let field (name : String) : Option Json := fields.lookup name
  match kind with
  | "child" =>
      if canonical fields ["child_pid"] then ((field "child_pid").bind Json.asLabel).map .child
      else none
  | "message" =>
      if canonical fields ["filters"] then
        ((field "filters").bind MessageFilters.ofMapping).map .message
      else none
  | "human" =>
      if canonical fields ["request_ids"] then
        (((field "request_ids").bind Json.asArray).bind (·.mapM Json.asLabel)).bind fun ids =>
          (humanOfLabels ids).map .human
      else none
  | "tool" =>
      if canonical fields ["operation_id"] then ((field "operation_id").bind Json.asLabel).map .tool
      else none
  | "paused" =>
      if canonical fields ["reason_oid"] then
        ((field "reason_oid").bind (Json.optional Json.asLabel)).map .paused
      else none
  | "host_resume" =>
      if canonical fields ["reason_oid"] then
        ((field "reason_oid").bind Json.asLabel).map .hostResume
      else none
  | "stale_execution" =>
      if canonical fields ["pid", "recovered_by_owner_sha256", "prior_owner_sha256",
          "prior_lease_sha256", "prior_execution_generation", "recovered_execution_generation",
          "recovered_state_generation"] then (staleOfFields field).map .staleExecution
      else none
  | _ => none

/-- `process_wait_state_from_mapping`. -/
def ofMapping : Json → Option (Option ProcessWaitState)
  | .null => some none
  | .object fields =>
      (((fields.lookup "kind").bind Json.asText).bind (ofFields fields)).map some
  | _ => none

end ProcessWaitState

/-! ## Round trips -/

@[simp] theorem asText_text (value : String) : (Json.text value).asText = some value := rfl

@[simp] theorem asNumber_number (value : Nat) : (Json.number value).asNumber = some value := rfl

@[simp] theorem asArray_array (items : List Json) : (Json.array items).asArray = some items := rfl

section
variable {α : Type} (read : Json → Option α)

@[simp] theorem optional_null : Json.optional read .null = some none := rfl

@[simp] theorem optional_text (value : String) :
    Json.optional read (.text value) = (read (.text value)).map some := rfl

@[simp] theorem optional_array (items : List Json) :
    Json.optional read (.array items) = (read (.array items)).map some := rfl

end

@[simp] theorem nonEmptyString_value (label : Label) : nonEmptyString label.value = some label := by
  have same : String.ofList (strip isSpace label.value.toList) = label.value := by
    rw [label.stripped, String.ofList_toList]
  unfold nonEmptyString
  rw [dif_pos (by rw [same]; exact label.filled)]
  congr 1
  cases label
  simpa using same

@[simp] theorem asLabel_text (label : Label) : (Json.text label.value).asLabel = some label :=
  nonEmptyString_value label

/-- A canonical digest has no whitespace to strip. -/
@[simp] theorem asDigest_text (digest : Digest) : (Json.text digest.value).asDigest = some digest := by
  obtain ⟨value, canonical⟩ := digest
  have digits := canonical
  rw [Bool.and_eq_true, decide_eq_true_iff, List.all_eq_true] at digits
  have same : strip isSpace value.toList = value.toList := by
    apply strip_eq_self
    intro c member
    have listed : ∀ c ∈ "0123456789abcdef".toList, isSpace c = false := by simp [isSpace]
    exact listed c (of_decide_eq_true (digits.2 c member))
  have filled : value.toList ≠ [] := by
    intro empty
    rw [← String.length_toList, empty] at digits
    exact absurd digits.1 (by decide)
  have label : nonEmptyString value = some ⟨value, filled, same⟩ :=
    nonEmptyString_value ⟨value, filled, same⟩
  rw [Json.asDigest, asText_text, Option.bind_some, Digest.ofText, label, Option.bind_some,
    dif_pos canonical]

@[simp] theorem optional_ofText (value : Option String) :
    Json.optional Json.asText (.ofText value) = some value := by
  cases value <;> simp [Json.ofText]

@[simp] theorem optional_label (label : Option Label) :
    Json.optional Json.asLabel (.ofText (label.map (·.value))) = some label := by
  cases label <;> simp [Json.ofText]

@[simp] theorem optional_digest (digest : Option Digest) :
    Json.optional Json.asDigest (digestMapping digest) = some digest := by
  cases digest <;> simp [digestMapping, Json.ofText]

@[simp] theorem mapM_text (values : List String) :
    values.mapM (Json.asText ∘ Json.text) = some values := by
  induction values with
  | nil => rfl
  | cons value values ih => simp [ih]

@[simp] theorem mapM_label (labels : List Label) :
    labels.mapM (Json.asLabel ∘ fun label => Json.text label.value) = some labels := by
  induction labels with
  | nil => rfl
  | cons label labels ih => simp [ih]

theorem MessageFilters.ofMapping_toMapping (filters : MessageFilters) :
    MessageFilters.ofMapping filters.toMapping = some filters := by
  obtain ⟨kind, sender, channel, correlationId, replyTo, messageIds⟩ := filters
  cases messageIds <;> simp [ofMapping, toMapping, List.lookup_cons]

namespace ProcessWaitState

theorem ofFields_mapping (value : ProcessWaitState) :
    ofFields ([("schema_version", .number 1), ("kind", .text value.kind)] ++ value.mappingFields)
      value.kind = some value := by
  cases value with
  | child childPid => simp [ofFields, kind, mappingFields, List.lookup_cons, canonical]
  | message filters =>
      simp [ofFields, kind, mappingFields, List.lookup_cons, canonical,
        MessageFilters.ofMapping_toMapping]
  | human requestIds =>
      simp [ofFields, kind, mappingFields, List.lookup_cons, canonical, humanOfLabels,
        requestIds.nonempty, requestIds.distinct]
  | tool operationId => simp [ofFields, kind, mappingFields, List.lookup_cons, canonical]
  | paused reasonOid => simp [ofFields, kind, mappingFields, List.lookup_cons, canonical]
  | hostResume reasonOid => simp [ofFields, kind, mappingFields, List.lookup_cons, canonical]
  | staleExecution receipt =>
      simp [ofFields, kind, mappingFields, List.lookup_cons, canonical, staleOfFields,
        receipt.executionPositive, receipt.statePositive]

/-- Every wait state comes back from its mapping. -/
theorem ofMapping_toMapping (waitState : Option ProcessWaitState) :
    ofMapping (toMapping waitState) = some waitState := by
  cases waitState with
  | none => rfl
  | some value =>
      have read := ofFields_mapping value
      simp only [toMapping, Option.elim_some, ofMapping]
      simp only [List.cons_append, List.nil_append] at read ⊢
      simp [List.lookup_cons, read]

end ProcessWaitState
end AgentLibOS.Processes
