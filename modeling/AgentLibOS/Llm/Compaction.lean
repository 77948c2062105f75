import AgentLibOS.Library.Climb
import AgentLibOS.Llm.ContextText

namespace AgentLibOS.Llm
open Library Library.Json Library.Climb

variable {F : ContextFloats}

/-- The arguments of `_build_compacted_payload`. -/
structure CompactionRequest (F : ContextFloats) where
  contextOid : Text
  expectedVersion : Int
  payload : Fields F
  summary : Json F
  compactionMethod : Text
  compactionMetadata : Option (Json F)
  preserveRecentEntries : Int
  sourceTokens : Int
  targetTokens : Int
  compressorPids : List Text

/-! ## Validation -/

/-- The fields that a summary has to have, in order. -/
def requiredSummaryFields : List String :=
  ["completed", "constraints", "goal", "key_references", "next_steps", "pending",
    "recent_decisions", "risks", "uncertainties", "user_preferences"]

/-- `repr` of a list of field names. -/
def namesText (names : List String) : String :=
  "[" ++ ", ".intercalate (names.map fun name => "'" ++ name ++ "'") ++ "]"

def validateCompactSummary : Json F → Except ContextError (Json F)
  | .dict summary =>
      let missing := requiredSummaryFields.filter fun name => (Fields.get summary name).isNone
      if missing ≠ [] then
        .error (.validation ("context compaction summary missing fields: " ++ namesText missing))
      else if requiredSummaryFields.any fun name => ((Fields.get summary name).map Json.truthy).getD false then
        .ok (.dict summary)
      else .error (.validation "context compaction summary is empty")
  | _ => .error (.validation "context compaction summary must be a JSON object")

def validateCompactionMethod (method : Text) : Except ContextError Text :=
  let selected := stripText method
  if selected = [] then
    .error (.validation "context compaction method must be a non-empty string")
  else if 128 < selected.length then
    .error (.validation "context compaction method is too long")
  else .ok selected

def validateCompactionMetadata : Option (Json F) → Except ContextError (Json F)
  | none => .ok (.dict [])
  | some (.dict metadata) => .ok (.dict metadata)
  | some _ => .error (.validation "context compaction metadata must be a JSON object")

/-- `dict(value or {})` of a field that holds an object wherever it holds something. -/
def objectOf : Option (Json F) → Except ContextError (Fields F)
  | none => .ok []
  | some (.dict entries) => .ok entries
  | some value => if Json.truthy value then .error .typeError else .ok []

/-! ## The new payload -/

/-- The entry that takes the place of what is dropped. -/
def compactEntry (request : CompactionRequest F) (now : Text) (entryCount : Nat) (method : Text)
    (metadata summary : Json F) (preserved tokens : Nat) : Fields F :=
  [(codes "kind", Json.text (codes "context_compacted")),
    (codes "at", Json.text now),
    (codes "source_oid", Json.text request.contextOid),
    (codes "source_version", Json.int request.expectedVersion),
    (codes "source_entry_count", Json.int entryCount),
    (codes "source_tokens", Json.int request.sourceTokens),
    (codes "target_tokens", Json.int request.targetTokens),
    (codes "compaction_method", Json.text method),
    (codes "compaction_metadata", metadata),
    (codes "compressor_pids", .list (request.compressorPids.map Json.text)),
    (codes "summary", summary)] ++
  [(codes "preserved_recent_entries", Json.int preserved),
    (codes "compacted_tokens", Json.int tokens)]

/-- What the captured record keeps: the signatures are forgotten, the rest stays. -/
def compactedCaptured (captured : Fields F) : Fields F :=
  ((Fields.put captured "process_signature" Json.null).put "capability_signature" Json.null).put
    "tool_signature" .null

def compactedStrategy (now : Text) (strategy : Fields F) : Fields F :=
  [("mode", Json.text (codes "compacted_stable_prefix")),
    ("reason", Json.text (codes ("Older append-only entries were summarized by context compaction; " ++
      "recent entries remain verbatim."))),
    ("compacted_at", Json.text now),
    ("storage_compaction_rearm_pending", .leaf (.bool true)),
    ("storage_compaction_baseline_bytes", Json.null),
    ("storage_compaction_rearm_at_bytes", Json.null)].foldl
      (fun fields (field : String × Json F) => Fields.put fields field.1 field.2) strategy

/-- `compacted_payload["entries"] = ...`. -/
def withEntries (payload : Fields F) (entries : List (Json F)) : Fields F :=
  Fields.put payload "entries" (.list entries)

/-- The payload before the last entries are fitted into it. -/
def compactedBase (payload captured strategy : Fields F) (now : Text) (entry : Fields F) : Fields F :=
  ((withEntries (Fields.without payload "entries") [.dict entry]).put
    "captured" (.dict (compactedCaptured captured))).put
    "cache_strategy" (.dict (compactedStrategy now strategy))

/-- The last entries, as many as the limit allows. -/
def recentCandidates (preserveRecentEntries : Int) (entries : List (Json F)) : List (Json F) :=
  let recentLimit := (max 0 (min preserveRecentEntries entries.length)).toNat
  if recentLimit = 0 then [] else entries.drop (entries.length - recentLimit)

/-! ## Measuring -/

/-- `payload["entries"][0]["compacted_tokens"] = tokens`. -/
def setCompactedTokens (payload : Fields F) (tokens : Nat) : Fields F :=
  match Fields.get payload "entries" with
  | some (.list (.dict entry :: rest)) =>
      withEntries payload (.dict (Fields.put entry "compacted_tokens" (Json.int tokens)) :: rest)
  | _ => payload

def measuredTokens (payload : Fields F) (tokens : Nat) : Except ContextError Nat := do
  .ok (estimateTokens (← render (setCompactedTokens payload tokens)))

/-- `_measure_compacted_payload`: the reported count is part of what is measured. -/
def measureCompactedPayload (fuel : Nat) (payload : Fields F) : Except ContextError Nat :=
  climb (measuredTokens payload) .unfinished fuel 0

def isCompacted : Json F → Bool
  | .dict entry =>
      match Fields.get entry "kind" with
      | some (.leaf (.str kind)) => kind = codes "context_compacted"
      | _ => false
  | _ => false

/-- The loop over the candidates, the last entry first. `payloadWith` is the payload with these
entries behind the compact one. -/
def keepFitting (fuel : Nat) (payloadWith : List (Json F) → Fields F) (targetTokens : Int) :
    List (Json F) → List (Json F) → Except ContextError (List (Json F))
  | [], preserved => .ok preserved
  | entry :: older, preserved =>
      if isCompacted entry then .ok preserved
      else do
        let measured ← measureCompactedPayload fuel (payloadWith (entry :: preserved))
        if targetTokens < measured then .ok preserved
        else keepFitting fuel payloadWith targetTokens older (entry :: preserved)

/-- The payload, the stored token count and the number of preserved entries. -/
structure CompactedPayload (F : ContextFloats) where
  payload : Fields F
  compactedTokens : Nat
  preservedCount : Nat

def buildCompactedPayload (fuel : Nat) (now : Text) (request : CompactionRequest F) :
    Except ContextError (CompactedPayload F) := do
  let summary ← validateCompactSummary request.summary
  let method ← validateCompactionMethod request.compactionMethod
  let metadata ← validateCompactionMetadata request.compactionMetadata
  let entries ← Json.elements ((Fields.get request.payload "entries").getD (.list []))
  let captured ← objectOf (Fields.get request.payload "captured")
  let strategy ← objectOf (Fields.get request.payload "cache_strategy")
  let entry := compactEntry request now entries.length method metadata summary
  let base := compactedBase request.payload captured strategy now (entry 0 0)
  let payloadWith := fun preserved : List (Json F) =>
    withEntries base (.dict (entry preserved.length 0) :: preserved)
  let candidates := recentCandidates request.preserveRecentEntries entries
  let preserved ← keepFitting fuel payloadWith request.targetTokens candidates.reverse []
  let tokens ← measureCompactedPayload fuel (payloadWith preserved)
  .ok ⟨setCompactedTokens (payloadWith preserved) tokens, tokens, preserved.length⟩

end AgentLibOS.Llm
