import AgentLibOS.Llm.ContextText
import AgentLibOS.Library.Counter

namespace AgentLibOS.Llm
open Library Library.Json Library.Counter

/-- What the projection takes from the language's library: the floats, their sum with other
numbers, and `hashlib.sha256` of a text's UTF-8 bytes. -/
structure PromptEncoding extends ContextFloats where
  finite : Value → Bool
  zero : Value → Bool
  plus : Scalar Value → Scalar Value → Value
  sha256 : Text → Text

inductive ProjectionError
  | value (text : String)
  | unicodeEncode
  deriving DecidableEq

variable (E : PromptEncoding)

abbrev PromptJson := Json E.toContextFloats

/-! ## Canonical JSON -/

variable {E} in
/-- A float that JSON has no number for, by its text. -/
def normalizeScalar : Scalar E.Value → PromptJson E
  | .float value =>
      if E.finite value then .leaf (.float value)
      else .dict [(codes "_non_finite_number", Json.text (E.repr value))]
  | value => .leaf value

mutual

/-- `_normalize_json`. -/
def normalizeJson : PromptJson E → PromptJson E
  | .leaf value => normalizeScalar value
  | .list items => .list (normalizeItems items)
  | .dict entries => .dict ((normalizeEntries entries).insertionSort keyLe)

def normalizeItems : List (PromptJson E) → List (PromptJson E)
  | [] => []
  | item :: items => normalizeJson item :: normalizeItems items

def normalizeEntries : List (Text × PromptJson E) → List (Text × PromptJson E)
  | [] => []
  | (key, value) :: entries => (key, normalizeJson value) :: normalizeEntries entries

end

def canonicalPromptJson (value : PromptJson E) : Text :=
  dumps E.repr ⟨false, 0, 0, none⟩ (normalizeJson E value)

/-- `hashlib.sha256(text.encode("utf-8")).hexdigest()`: a surrogate cannot be encoded. -/
def digestText (text : Text) : Except ProjectionError Text :=
  if text.any fun c => isHigh c || isLow c then .error .unicodeEncode else .ok (E.sha256 text)

def digestJson (value : PromptJson E) : Except ProjectionError Text :=
  digestText E (canonicalPromptJson E value)

/-! ## Bounded payloads -/

/-- `_bounded_identifier`. A slice up to a negative index leaves so many characters at the end out. -/
def boundedIdentifier (selected : Text) (maxChars : Nat) : Except ProjectionError Text := do
  if selected.length ≤ maxChars then .ok selected
  else
    let kept := if 81 ≤ maxChars then maxChars - 81 else selected.length - (81 - maxChars)
    .ok (selected.take kept ++ codes "...[sha256:" ++ (← digestText E selected) ++ codes "]")

def jsonType : PromptJson E → String
  | .leaf .null => "null"
  | .leaf (.bool _) => "boolean"
  | .leaf (.int _) => "number"
  | .leaf (.float _) => "number"
  | .leaf (.str _) => "string"
  | .list _ => "array"
  | .dict _ => "object"

/-- `_value_summary`. -/
def valueSummary (value : PromptJson E) : Except ProjectionError (PromptJson E) := do
  let summary : Fields E.toContextFloats :=
    [(codes "_type", Json.text (codes (jsonType E value))),
      (codes "_sha256", Json.text (← digestJson E value)),
      (codes "_chars", Json.int (canonicalPromptJson E value).length)]
  match value with
  | .list items => .ok (.dict (summary ++ [(codes "_item_count", Json.int items.length)]))
  | .dict entries => .ok (.dict (summary ++ [(codes "_item_count", Json.int entries.length)]))
  | .leaf _ => .ok (.dict summary)

def collectionLimit : Nat := 12

/-- What is left of a collection behind its first elements. -/
def withRest {α : Type} (items : List α) (short : PromptJson E) (kept count : String)
    (rest : List α → PromptJson E) : Except ProjectionError (PromptJson E) := do
  if items.length ≤ collectionLimit then .ok short
  else
    .ok (.dict [(codes kept, short), (codes count, Json.int (items.length - collectionLimit : Nat)),
      (codes "_omitted_sha256", Json.text (← digestJson E (rest (items.drop collectionLimit))))])

mutual

/-- `_compact_value` of a normalised value, whose keys are in order. -/
def compactValue (maxChars : Nat) : PromptJson E → Except ProjectionError (PromptJson E)
  | .leaf (.str value) => do
      let stringLimit := min 512 (max 64 (maxChars / 4))
      if value.length ≤ stringLimit then .ok (.leaf (.str value))
      else
        .ok (.dict [(codes "_text_preview", Json.text (value.take stringLimit)),
          (codes "_omitted_chars", Json.int (value.drop stringLimit).length),
          (codes "_omitted_sha256", Json.text (← digestText E (value.drop stringLimit)))])
  | .leaf value => .ok (.leaf value)
  | .list items => do
      withRest E items (.list (← compactItems maxChars collectionLimit items)) "_items"
        "_omitted_item_count" .list
  | .dict entries => do
      withRest E entries (.dict (← compactEntries maxChars collectionLimit entries)) "_fields"
        "_omitted_field_count" .dict

def compactItems (maxChars : Nat) :
    Nat → List (PromptJson E) → Except ProjectionError (List (PromptJson E))
  | 0, _ => .ok []
  | _ + 1, [] => .ok []
  | limit + 1, item :: items => do
      .ok ((← compactValue maxChars item) :: (← compactItems maxChars limit items))

def compactEntries (maxChars : Nat) :
    Nat → List (Text × PromptJson E) → Except ProjectionError (List (Text × PromptJson E))
  | 0, _ => .ok []
  | _ + 1, [] => .ok []
  | limit + 1, (key, value) :: entries => do
      .ok ((key, ← compactValue maxChars value) :: (← compactEntries maxChars limit entries))

end

/-- `_ACTIONABLE_FIELD_ORDER`. -/
def actionableFieldOrder : List Text :=
  ["outcome", "reason", "code", "status", "path", "sink", "direction", "labels", "trust_id",
    "release_capability_id", "result_oid", "error", "kind", "count", "phase"].map codes

/-- `_ordered_payload_keys`, with the values. -/
def orderedPayload (payload : List (Text × PromptJson E)) : List (Text × PromptJson E) :=
  payload.insertionSort fun left right =>
    let place := fun entry : Text × PromptJson E => actionableFieldOrder.idxOf entry.1
    place left < place right ∨ (place left = place right ∧ textLe left.1 right.1 = true)

/-- The envelope of a payload that is too long. -/
def projectionEnvelope (projection fields : Fields E.toContextFloats) : PromptJson E :=
  .dict [(codes "_projection", .dict projection), (codes "fields", .dict fields)]

/-- Does the envelope with these fields fit? -/
def fitsEnvelope (projection : Fields E.toContextFloats) (maxChars : Nat)
    (fields : Fields E.toContextFloats) : Bool :=
  (canonicalPromptJson E (projectionEnvelope E projection fields)).length ≤ maxChars

/-- The loop over the fields in their order: whole, summarised, or left out. -/
def fitFields (projection : Fields E.toContextFloats) (maxChars : Nat) :
    List (Text × PromptJson E) → Fields E.toContextFloats →
      Except ProjectionError (Fields E.toContextFloats)
  | [], fields => .ok fields
  | (key, value) :: rest, fields => do
      let candidate := fields ++ [(key, ← compactValue E maxChars value)]
      if fitsEnvelope E projection maxChars candidate then
        fitFields projection maxChars rest candidate
      else
        let summarised := fields ++ [(key, ← valueSummary E value)]
        if fitsEnvelope E projection maxChars summarised then
          fitFields projection maxChars rest summarised
        else fitFields projection maxChars rest fields

/-- What is left when nothing else fits. -/
def lastEnvelope (digest : Text) (chars : Nat) : PromptJson E :=
  .dict [(codes "_projection", .dict [(codes "truncated", .leaf (.bool true)),
    (codes "payload_sha256", Json.text digest), (codes "original_chars", Json.int chars),
    (codes "omitted_chars", Json.int chars)])]

/-- `_bounded_payload_projection`: the payload, and whether it was cut. -/
def boundedPayloadProjection (payload : PromptJson E) (maxChars : Nat) :
    Except ProjectionError (PromptJson E × Bool) := do
  let normalized := normalizeJson E payload
  let fullJson := canonicalPromptJson E normalized
  if fullJson.length ≤ maxChars then .ok (normalized, false)
  else
    let fullDigest ← digestText E fullJson
    let projection : Fields E.toContextFloats :=
      [(codes "truncated", .leaf (.bool true)), (codes "payload_sha256", Json.text fullDigest),
        (codes "original_chars", Json.int fullJson.length)]
    let (projection, fields) ← (match normalized with
      | .dict entries => do
          let fields ← fitFields E projection maxChars (orderedPayload E entries) []
          let omittedFields := entries.length - fields.length
          .ok (if omittedFields = 0 then projection
            else projection ++ [(codes "omitted_field_count", Json.int omittedFields)], fields)
      | value => do
          .ok (projection, ← fitFields E projection maxChars [(codes "value", value)] []) :
        Except ProjectionError (Fields E.toContextFloats × Fields E.toContextFloats))
    let rendered := canonicalPromptJson E (projectionEnvelope E projection fields)
    let envelope := projectionEnvelope E
      (projection ++ [(codes "omitted_chars", Json.int (fullJson.length - rendered.length : Nat))]) fields
    if (canonicalPromptJson E envelope).length ≤ maxChars then .ok (envelope, true)
    else .ok (lastEnvelope E fullDigest fullJson.length, true)

/-! ## Events -/

/-- The event types that the projection tells apart. -/
inductive EventType
  | processMessagePosted | processMessageNotice | processMessageAcked | processSignal
  | objectCreated | objectUpdated | toolCompleted | capabilityGranted | resourceCharged
  | dataFlowDecision | other (value : String)
  deriving DecidableEq

def EventType.value : EventType → String
  | .processMessagePosted => "process_message_posted"
  | .processMessageNotice => "process_message_notice"
  | .processMessageAcked => "process_message_acked"
  | .processSignal => "process_signal"
  | .objectCreated => "object_created"
  | .objectUpdated => "object_updated"
  | .toolCompleted => "tool_completed"
  | .capabilityGranted => "capability_granted"
  | .resourceCharged => "resource_charged"
  | .dataFlowDecision => "data_flow_decision"
  | .other value => value

structure Event (E : PromptEncoding) where
  eventId : Text
  type : EventType
  source : Text
  target : Option Text
  payload : Fields E.toContextFloats

variable {E}

/-- The field holds this text. -/
def Event.says (event : Event E) (key value : String) : Bool :=
  match Fields.get event.payload key with
  | some (.leaf (.str text)) => text = codes value
  | _ => false

/-- `_prompt_event_omission_reason`. -/
def omissionReason (contextObjectName : Option String) (event : Event E) : Option String :=
  let context := match contextObjectName with
    | some name => name ≠ "" && event.says "name" name
    | none => false
  let objectResource := match Fields.get event.payload "resource" with
    | some (.leaf (.str resource)) => (codes "object:").isPrefixOf resource
    | _ => false
  match event.type with
  | .resourceCharged => some event.type.value
  | .objectCreated =>
      if context then some ("llm_context_" ++ event.type.value)
      else if event.says "type" "tool_result" then some "tool_result_object_created"
      else none
  | .objectUpdated => if context then some ("llm_context_" ++ event.type.value) else none
  | .processMessagePosted => some ("delegated_" ++ event.type.value)
  | .processMessageAcked => some ("delegated_" ++ event.type.value)
  | .toolCompleted => some event.type.value
  | .capabilityGranted => if objectResource then some "object_capability_granted" else none
  | .dataFlowDecision => if event.says "outcome" "allow" then some "allowed_data_flow_decision" else none
  | _ => none

/-- `_project_process_message_notice`. -/
def projectProcessMessageNotice (payload : Fields E.toContextFloats) :
    Except ProjectionError (Fields E.toContextFloats) := do
  let count := match Fields.get payload "count" with
    | some (.leaf (.int count)) => if 0 ≤ count then count else 1
    | _ => 1
  let projected := [(codes "control", Json.text (codes "read_pending_process_messages")),
    (codes "count", Json.int count)]
  match Fields.get payload "kind" with
  | some (.leaf (.str kind)) =>
      if kind = [] then .ok projected
      else .ok (projected ++ [(codes "kind", Json.text (← boundedIdentifier E kind 64))])
  | _ => .ok projected

/-- `_project_process_signal`. -/
def projectProcessSignal (payload : Fields E.toContextFloats) :
    Except ProjectionError (Fields E.toContextFloats) := do
  let signal := match Fields.get payload "signal" with
    | some (.leaf (.str signal)) => if signal = [] then codes "runtime_control" else signal
    | _ => codes "runtime_control"
  let projected := [(codes "signal", Json.text signal)]
  let reasonRef := match Fields.get payload "reason_oid" with
    | some value => if value.truthy then some value else none
    | none => none
  let nestedRef := match Fields.get payload "payload" with
    | some (.dict nested) => Fields.get nested "reason_oid"
    | _ => none
  match reasonRef.or nestedRef with
  | some (.leaf (.str reason)) =>
      if reason = [] then .ok projected
      else .ok (projected ++ [(codes "reason_ref", Json.text (← boundedIdentifier E reason 256))])
  | _ => .ok projected

def dataFlowFields : List String :=
  ["decision_id", "direction", "outcome", "reason", "sink", "labels", "trust_id",
    "release_capability_id"]

/-- What of an event's payload is shown. -/
def rawPayload (event : Event E) : Except ProjectionError (Fields E.toContextFloats) :=
  match event.type with
  | .dataFlowDecision => .ok (dataFlowFields.filterMap fun key =>
      (Fields.get event.payload key).map fun value => (codes key, value))
  | .processSignal => projectProcessSignal event.payload
  | _ => .ok event.payload

/-- `_project_visible_event`: the record, and whether its payload was cut. -/
def projectVisibleEvent (event : Event E) (maxChars : Nat) :
    Except ProjectionError (Fields E.toContextFloats × Bool) := do
  if event.type = .processMessageNotice then
    let notice ← projectProcessMessageNotice event.payload
    .ok ([(codes "type", Json.text (codes event.type.value)), (codes "payload", .dict notice)], false)
  else
    let raw ← rawPayload event
    let (payload, wasTruncated) ← boundedPayloadProjection E (.dict raw) maxChars
    let eventId ← boundedIdentifier E event.eventId 256
    let source ← boundedIdentifier E event.source 256
    let target ← (match event.target with
      | some target => (boundedIdentifier E target 256).map Json.text
      | none => .ok Json.null : Except ProjectionError (PromptJson E))
    .ok ([(codes "event_id", Json.text eventId), (codes "type", Json.text (codes event.type.value)),
      (codes "source", Json.text source), (codes "target", target), (codes "payload", payload)],
      wasTruncated)

/-! ## Resource usage -/

/-- The fields of `ResourceUsage`, in order. -/
def resourceUsageFields : List String :=
  ["child_processes", "context_materialized_tokens", "deno_syscalls", "external_read_bytes",
    "external_write_bytes", "jsonrpc_request_bytes", "jsonrpc_response_bytes", "llm_calls",
    "llm_completion_tokens", "llm_prompt_tokens", "llm_total_tokens", "mcp_request_bytes",
    "mcp_response_bytes", "runtime_seconds", "subprocess_cpu_seconds",
    "subprocess_peak_memory_bytes", "subprocess_wall_seconds", "tool_calls"]

def addNumbers : Scalar E.Value → Scalar E.Value → Scalar E.Value
  | .int left, .int right => .int (left + right)
  | left, right => .float (E.plus left right)

def isZero : Scalar E.Value → Bool
  | .int value => value = 0
  | .float value => E.zero value
  | _ => false

/-- A finite number other than zero. -/
def usageValue (usage : Fields E.toContextFloats) (name : String) : Option (Scalar E.Value) :=
  match Fields.get usage name with
  | some (.leaf (.int value)) => if value = 0 then none else some (.int value)
  | some (.leaf (.float value)) => if E.finite value ∧ E.zero value = false then some (.float value) else none
  | _ => none

def addUsage (usage : Fields E.toContextFloats) (totals : List (String × Scalar E.Value))
    (name : String) : List (String × Scalar E.Value) :=
  match usageValue usage name with
  | none => totals
  | some value =>
      let total := addNumbers ((Assoc.get totals name).getD (.int 0)) value
      let others := totals.filter fun entry => entry.1 ≠ name
      if isZero total then others else others ++ [(name, total)]

/-- `_accumulate_resource_usage`. -/
def accumulateResourceUsage (totals : List (String × Scalar E.Value)) :
    Option (PromptJson E) → List (String × Scalar E.Value)
  | some (.dict usage) => resourceUsageFields.foldl (addUsage usage) totals
  | _ => totals

/-! ## Batches -/

/-- `dict(sorted(counts.items()))`. -/
def sortedByKey {α : Type} (entries : List (String × α)) : List (String × α) :=
  entries.insertionSort fun left right => left.1 ≤ right.1

def descriptor (event : Event E) : PromptJson E :=
  .dict [(codes "event_id", Json.text event.eventId), (codes "type", Json.text (codes event.type.value)),
    (codes "source", Json.text event.source),
    (codes "target", event.target.elim Json.null Json.text),
    (codes "payload", normalizeJson E (.dict event.payload))]

structure ProjectionSummary where
  inputEventCount : Nat
  representedEventCount : Nat
  omittedEventCount : Nat
  payloadTruncatedEventCount : Nat
  representedTypeCounts : List (String × Nat)
  omittedReasonCounts : List (String × Nat)
  inputEventIdsSha256 : Text
  representedThroughEventId : Option Text
  omittedEventsSha256 : Option Text

structure ProjectedEventBatch (E : PromptEncoding) where
  visibleRecords : List (Fields E.toContextFloats)
  representedThroughEventId : Option Text
  omittedCounts : List (String × Nat)
  resourceUsageDelta : List (String × Scalar E.Value)
  summary : ProjectionSummary

/-- What the loop over the events has gathered. -/
structure Gathered (E : PromptEncoding) where
  projected : List (Fields E.toContextFloats) := []
  projectedSources : List (Event E) := []
  omittedCounts : List (String × Nat) := []
  omittedSources : List (Event E) := []
  resourceUsageDelta : List (String × Scalar E.Value) := []
  payloadTruncatedCount : Nat := 0

def gather (contextObjectName : Option String) (maxChars : Nat) (gathered : Gathered E)
    (event : Event E) : Except ProjectionError (Gathered E) := do
  match omissionReason contextObjectName event with
  | some reason =>
      .ok { gathered with
        omittedCounts := addCount gathered.omittedCounts reason 1
        omittedSources := gathered.omittedSources ++ [event]
        resourceUsageDelta :=
          if event.type = .resourceCharged then
            accumulateResourceUsage gathered.resourceUsageDelta (Fields.get event.payload "usage")
          else gathered.resourceUsageDelta }
  | none => do
      let (record, wasTruncated) ← projectVisibleEvent event maxChars
      .ok { gathered with
        projected := gathered.projected ++ [record]
        projectedSources := gathered.projectedSources ++ [event]
        payloadTruncatedCount := gathered.payloadTruncatedCount + if wasTruncated then 1 else 0 }

/-- The oldest visible records beyond the window are counted instead. -/
def keepNewest (maxVisible : Option Nat) (gathered : Gathered E) : Gathered E :=
  match maxVisible with
  | none => gathered
  | some window =>
      if gathered.projected.length ≤ window then gathered
      else
        let dropped := gathered.projected.length - window
        { gathered with
          projected := gathered.projected.drop dropped
          projectedSources := gathered.projectedSources.drop dropped
          omittedCounts := addCount gathered.omittedCounts "recent_window" dropped
          omittedSources := gathered.omittedSources ++ gathered.projectedSources.take dropped }

def projectPromptEvents (events : List (Event E)) (contextObjectName : Option String)
    (payloadMaxChars : Nat) (maxVisible : Option Nat) :
    Except ProjectionError (ProjectedEventBatch E) := do
  if payloadMaxChars < 512 then .error (.value "payload_max_chars must be at least 512")
  else if maxVisible = some 0 then .error (.value "max_visible must be at least 1")
  else
    let gathered ← events.foldlM (gather contextObjectName payloadMaxChars) {}
    let kept := keepNewest maxVisible gathered
    let typeCounts := kept.projectedSources.foldl
      (fun counts event => addCount counts event.type.value 1) []
    let through := events.getLast?.map Event.eventId
    let idsDigest ← digestJson E (.list (events.map fun event => Json.text event.eventId))
    let omittedDigest ← (if kept.omittedSources = [] then .ok none
      else do .ok (some (← digestJson E (.list (kept.omittedSources.map descriptor)))) :
      Except ProjectionError (Option Text))
    .ok
      { visibleRecords := kept.projected
        representedThroughEventId := through
        omittedCounts := sortedByKey kept.omittedCounts
        resourceUsageDelta := sortedByKey kept.resourceUsageDelta
        summary :=
          { inputEventCount := events.length
            representedEventCount := kept.projected.length
            omittedEventCount := events.length - kept.projected.length
            payloadTruncatedEventCount := kept.payloadTruncatedCount
            representedTypeCounts := sortedByKey typeCounts
            omittedReasonCounts := sortedByKey kept.omittedCounts
            inputEventIdsSha256 := idsDigest
            representedThroughEventId := through
            omittedEventsSha256 := omittedDigest } }

end AgentLibOS.Llm
