import AgentLibOS.Capability.Evaluator
import AgentLibOS.Library.KeyedDelta
import AgentLibOS.Llm.EventProjection

namespace AgentLibOS.Llm
open Library Library.Json Library.KeyedDelta

/-! ## Signatures

Values are taken up to Python's `==`, and `none` is Python's `None`. -/

variable {V : Type} [DecidableEq V]

/-- What is read of a process and its image. -/
structure PromptProcess (V : Type) where
  status : V
  statusMessage : Option V
  waitState : Option V
  outcome : Option V
  checkpointHead : Option V
  imageId : V
  workingDirectory : V

abbrev ProcessFields (V : Type) := List (String × Option V)

def processSignature (process : PromptProcess V) : ProcessFields V :=
  [("status", some process.status), ("status_message", process.statusMessage),
    ("wait_state", process.waitState), ("outcome", process.outcome),
    ("checkpoint_head", process.checkpointHead), ("image_id", some process.imageId),
    ("working_directory", some process.workingDirectory)]

/-- `fields.get(key)`. -/
def ProcessFields.get (fields : ProcessFields V) (key : String) : Option V := (Assoc.get fields key).join

/-- Equality of dictionaries, whatever the order of their entries. -/
def sameFields (left right : ProcessFields V) : Bool :=
  decide (∀ key ∈ left.map Prod.fst ++ right.map Prod.fst, Assoc.get left key = Assoc.get right key)

structure PromptCapability (V : Type) where
  capId : String
  resource : String
  rights : List String
  effect : Capability.CapabilityEffect
  status : Capability.CapabilityStatus
  constraints : V
  usesRemaining : Option Nat
  delegable : Bool
  delegationDepth : Nat
  issuedBy : String
  parentCapId : Option String
  expiresAt : Option String

structure CapabilitySignature (V : Type) where
  capId : String
  resource : String
  rights : List String
  effect : Capability.CapabilityEffect
  status : Capability.CapabilityStatus
  policy : String
  constraints : V
  usesRemaining : Option Nat
  delegable : Bool
  delegationDepth : Nat
  issuer : String
  parentCapId : Option String
  expiresAt : Option String
  deriving DecidableEq

def capabilityPolicy (cap : PromptCapability V) : String :=
  match cap.effect with
  | .allow => if cap.usesRemaining.isSome then "allow_once" else "always_allow"
  | .deny => "always_deny"
  | .ask => "ask_each_time"

def signatureOf (cap : PromptCapability V) : CapabilitySignature V where
  capId := cap.capId
  resource := cap.resource
  rights := cap.rights.insertionSort (· ≤ ·)
  effect := cap.effect
  status := cap.status
  policy := capabilityPolicy cap
  constraints := cap.constraints
  usesRemaining := cap.usesRemaining
  delegable := cap.delegable
  delegationDepth := cap.delegationDepth
  issuer := cap.issuedBy
  parentCapId := cap.parentCapId
  expiresAt := cap.expiresAt

/-- The order of resource, joined rights and identifier. -/
def signatureLe (left right : CapabilitySignature V) : Bool :=
  let joined := fun signature : CapabilitySignature V => ",".intercalate signature.rights
  decide (left.resource < right.resource) || decide (left.resource = right.resource) &&
    (decide (joined left < joined right) || decide (joined left = joined right) &&
      decide (left.capId ≤ right.capId))

/-- `_capability_signature`. -/
def capabilitySignature (capabilities : List (PromptCapability V)) : List (CapabilitySignature V) :=
  ((capabilities.filter fun cap => cap.status = .active).map signatureOf).insertionSort fun left right =>
    signatureLe left right = true

/-- The decoded `spec_json` of a tool row; an absent name or version is empty. -/
structure ToolSpec (V : Type) where
  name : String
  version : String
  inputSchema : V

structure ToolRow (V : Type) where
  name : String
  spec : Option (ToolSpec V)

structure ToolSignature where
  name : String
  version : String
  schemaSha256 : String
  deriving DecidableEq

/-- `_tool_name`. -/
def toolName (tool : ToolRow V) : String :=
  match tool.spec with
  | some spec => if spec.name = "" then tool.name else spec.name
  | none => tool.name

/-- `_tool_signature`; `schemaSha256` is the digest of a schema's canonical JSON. -/
def toolSignature (schemaSha256 : V → String) (noSchema : V) (tools : List (ToolRow V)) :
    List ToolSignature :=
  ((tools.filter fun tool => toolName tool ≠ "").map fun tool =>
    { name := toolName tool
      version := (tool.spec.map ToolSpec.version).getD ""
      schemaSha256 := schemaSha256 ((tool.spec.map ToolSpec.inputSchema).getD noSchema) : ToolSignature })
    |>.insertionSort fun left right => left.name ≤ right.name

inductive ObjectSignature
  | missing
  | current (version : Nat) (updatedAt : String)
  | legacyCaptured
  deriving DecidableEq

/-- An object as the prompt reads it. -/
structure PromptObject (V : Type) where
  name : String
  type : String
  version : Nat
  title : V
  summary : V
  payload : V
  transform : V
  updatedAt : String

inductive ObjectEntry (V : Type)
  | missing (oid : String)
  | shown (oid name type : String) (version : Nat) (title summary payload transform : V)
  deriving DecidableEq

/-- `_object_signature`. -/
def objectSignature (objects : String → Option (PromptObject V)) (oid : String) : ObjectSignature :=
  match objects oid with
  | none => .missing
  | some obj => .current obj.version obj.updatedAt

/-- `_object_entry`. -/
def objectEntry (objects : String → Option (PromptObject V)) (oid : String) : ObjectEntry V :=
  match objects oid with
  | none => .missing oid
  | some obj =>
      .shown oid obj.name obj.type obj.version obj.title obj.summary obj.payload obj.transform

structure MaterializedContext where
  objectRefs : List String
  omittedObjects : List String
  policyUsed : String
  tokenCount : Nat

/-! ## The context payload -/

variable {E : PromptEncoding}

inductive ContextEntry (V : Type) (E : PromptEncoding)
  | processStarted
  | processSnapshot (signature : ProcessFields V)
  | processDelta (changed : ProcessFields V)
  | capabilitiesSnapshot (capabilities : List (CapabilitySignature V))
  | capabilitiesDelta (upserted : List (CapabilitySignature V)) (removedCapabilityIds : List String)
  | toolTableSnapshot (tools : List ToolSignature) (toolCount : Nat)
  | toolTableDelta (upserted : List ToolSignature) (removedToolNames : List String) (toolCount : Nat)
  | eventsDelta (projection : ProjectedEventBatch E)
  | memoryDelta (policy : String) (tokenEstimate : Nat) (omittedObjects : List String)
      (objects : List (ObjectEntry V))
  | contextOmissions (omittedObjects : List String)
  | contextCompacted

/-- The captured record: what the entries have told so far. `objects` is absent in old payloads. -/
structure Captured (V : Type) where
  objectOids : List String
  objects : Option (List (String × ObjectSignature))
  eventIds : List Text
  capabilitySignature : Option (List (CapabilitySignature V))
  toolSignature : Option (List ToolSignature)
  processSignature : Option (ProcessFields V)
  omittedObjects : Option (List String)

structure ContextPayload (V : Type) (E : PromptEncoding) where
  /-- `static_prefix["tool_names"]`. -/
  toolNames : List String
  entries : List (ContextEntry V E)
  captured : Captured V

/-- What a call of `_append_deltas` reads. -/
structure DeltaInputs (V : Type) (E : PromptEncoding) where
  process : PromptProcess V
  capabilities : List (PromptCapability V)
  tools : List (ToolRow V)
  events : List (Event E)
  context : MaterializedContext
  objects : String → Option (PromptObject V)

/-- The configuration and the digests that calls share. -/
structure DeltaSettings (V : Type) where
  contextObjectName : String
  promptEventPayloadMaxChars : Nat
  schemaSha256 : V → String
  noSchema : V

variable (S : DeltaSettings V)

/-- `_initial_payload`. -/
def initialPayload (tools : List (ToolRow V)) : ContextPayload V E where
  toolNames := ((tools.map toolName).filter (· ≠ "")).insertionSort (· ≤ ·)
  entries := [.processStarted]
  captured :=
    { objectOids := []
      objects := some []
      eventIds := []
      capabilitySignature := none
      toolSignature := some (toolSignature S.schemaSha256 S.noSchema tools)
      processSignature := none
      omittedObjects := none }

/-! ## The five encoders -/

variable {S}

def ContextPayload.append (payload : ContextPayload V E) (entry : ContextEntry V E) :
    ContextPayload V E :=
  { payload with entries := payload.entries ++ [entry] }

def appendProcessDelta (process : PromptProcess V) (payload : ContextPayload V E) :
    ContextPayload V E × Bool :=
  let signature := processSignature process
  let recorded := { payload with captured.processSignature := some signature }
  match payload.captured.processSignature with
  | none => (recorded.append (.processSnapshot signature), true)
  | some previous =>
      if sameFields previous signature then (payload, false)
      else
        let changed := signature.filter fun field => previous.get field.1 ≠ field.2
        -- Fields that only older payloads have are dropped without an entry.
        if changed = [] then (recorded, true) else (recorded.append (.processDelta changed), true)

def appendCapabilityDelta (capabilities : List (PromptCapability V)) (payload : ContextPayload V E) :
    ContextPayload V E × Bool :=
  let signature := capabilitySignature capabilities
  let recorded := { payload with captured.capabilitySignature := some signature }
  match payload.captured.capabilitySignature with
  | none => (recorded.append (.capabilitiesSnapshot signature), true)
  | some previous =>
      if previous = signature then (payload, false)
      else
        let change := delta CapabilitySignature.capId previous signature
        (recorded.append (.capabilitiesDelta change.upserted change.removed), true)

variable (S) in
def appendToolDelta (tools : List (ToolRow V)) (payload : ContextPayload V E) :
    ContextPayload V E × Bool :=
  let signature := toolSignature S.schemaSha256 S.noSchema tools
  let recorded := { payload with captured.toolSignature := some signature }
  match payload.captured.toolSignature with
  | none => (recorded.append (.toolTableSnapshot signature signature.length), true)
  | some previous =>
      if previous = signature then (payload, false)
      else
        let change := delta ToolSignature.name previous signature
        (recorded.append (.toolTableDelta change.upserted change.removed signature.length), true)

variable (S) in
def appendEventDelta (events : List (Event E)) (payload : ContextPayload V E) :
    Except ProjectionError (ContextPayload V E × Bool) := do
  let newEvents := events.filter fun event => event.eventId ∉ payload.captured.eventIds
  if newEvents.isEmpty then .ok (payload, false)
  else
    let projection ← projectPromptEvents newEvents (some S.contextObjectName)
      S.promptEventPayloadMaxChars none
    let eventIds := (payload.captured.eventIds ++ newEvents.map Event.eventId).dedup.insertionSort
      fun left right => textLe left right = true
    .ok ({ payload with captured.eventIds := eventIds }.append (.eventsDelta projection), true)

/-- `_captured_object_signatures`. -/
def capturedObjectSignatures (captured : Captured V) : List (String × ObjectSignature) :=
  captured.objects.getD (captured.objectOids.map fun oid => (oid, .legacyCaptured))

/-- The objects of the context: the entries for those that changed, and what is remembered then. -/
def appendObjectEntries (context : MaterializedContext) (objects : String → Option (PromptObject V))
    (payload : ContextPayload V E) : ContextPayload V E × Bool :=
  let captured := capturedObjectSignatures payload.captured
  let changed := context.objectRefs.filter fun oid => Assoc.get captured oid ≠ some (objectSignature objects oid)
  let next := context.objectRefs.foldl
    (fun signatures oid => Assoc.put signatures oid (objectSignature objects oid)) captured
  if changed = [] then (payload, false)
  else
    ({ payload with
        captured.objects := some (sortedByKey next)
        captured.objectOids := (next.map Prod.fst).insertionSort (· ≤ ·) }.append
      (.memoryDelta context.policyUsed context.tokenCount context.omittedObjects
        (changed.map (objectEntry objects))), true)

/-- Omissions are told when there are some that were not told last. -/
def appendOmissions (context : MaterializedContext) (payload : ContextPayload V E) :
    ContextPayload V E × Bool :=
  let omitted := context.omittedObjects.dedup.insertionSort (· ≤ ·)
  if context.omittedObjects = [] ∨ payload.captured.omittedObjects = some omitted then (payload, false)
  else ({ payload with captured.omittedObjects := some omitted }.append (.contextOmissions omitted), true)

variable (S) in
/-- `_append_deltas`: the payload, and whether it changed. -/
def appendDeltas (inputs : DeltaInputs V E) (payload : ContextPayload V E) :
    Except ProjectionError (ContextPayload V E × Bool) := do
  let process := appendProcessDelta inputs.process payload
  let capabilities := appendCapabilityDelta inputs.capabilities process.1
  let tools := appendToolDelta S inputs.tools capabilities.1
  let events ← appendEventDelta S inputs.events tools.1
  let memory := appendObjectEntries inputs.context inputs.objects events.1
  let omissions := appendOmissions inputs.context memory.1
  .ok (omissions.1, process.2 || capabilities.2 || tools.2 || events.2 || memory.2 || omissions.2)

/-- What compaction makes of a payload with a suffix of its entries. -/
def compactedPayload (suffix : List (ContextEntry V E)) (payload : ContextPayload V E) :
    ContextPayload V E :=
  { payload with
    entries := .contextCompacted :: suffix
    captured.processSignature := none
    captured.capabilitySignature := none
    captured.toolSignature := none }

/-! ## Reading the entries -/

/-- What a reader of the prompt knows. -/
structure Reading (V : Type) where
  process : String → Option V
  capabilities : String → Option (CapabilitySignature V)
  tools : String → Prop
  omitted : List String

/-- A snapshot replaces, a delta upserts and removes by key. -/
def readEntry (known : Reading V) : ContextEntry V E → Reading V
  | .processSnapshot signature => { known with process := signature.get }
  | .processDelta changed =>
      { known with
        process := fun key => if key ∈ changed.map Prod.fst then changed.get key else known.process key }
  | .capabilitiesSnapshot capabilities =>
      { known with capabilities := latest CapabilitySignature.capId capabilities }
  | .capabilitiesDelta upserted removed =>
      { known with
        capabilities := applied CapabilitySignature.capId known.capabilities ⟨upserted, removed⟩ }
  | .toolTableSnapshot tools _ => { known with tools := fun name => name ∈ tools.map ToolSignature.name }
  | .toolTableDelta upserted removed _ =>
      { known with
        tools := fun name =>
          (known.tools name ∨ name ∈ upserted.map ToolSignature.name) ∧ name ∉ removed }
  | .contextOmissions omitted => { known with omitted := omitted }
  | _ => known

def reading (payload : ContextPayload V E) : Reading V :=
  payload.entries.foldl readEntry ⟨fun _ => none, fun _ => none, (· ∈ payload.toolNames), []⟩

end AgentLibOS.Llm
