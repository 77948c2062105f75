import AgentLibOS.Library.Pairing
import AgentLibOS.Responses.WireCopy

namespace AgentLibOS.Responses
open Capability Library Library.Run

/-! ## Fields -/

def itemFields (kind : String) : Option (List String) :=
  if kind = "reasoning" then
    some ["type", "id", "summary", "content", "encrypted_content", "status"]
  else if kind = "message" then some ["type", "id", "role", "content", "phase", "status"]
  else if kind = "function_call" then
    some ["type", "id", "call_id", "name", "arguments", "status"]
  else if kind = "function_call_output" then some ["type", "id", "call_id", "output", "status"]
  else none

def providerItemFields (kind : String) : Option (List String) :=
  if kind = "web_search_call" then some ["type", "id", "status", "action"]
  else if kind = "web_extractor_call" then some webExtractorFields
  else none

/-- `_PROVIDER_ITEM_TYPES`. -/
def providerItemTypes (provider : String) : Option (List String) :=
  if provider = "openai" then some ["web_search_call"]
  else if provider = "aliyun" then some ["web_search_call", "web_extractor_call"]
  else none

def allowedFields (provider : Option String) (kind : String) : Option (List String) :=
  if kind ∈ (provider.bind providerItemTypes).getD [] then providerItemFields kind
  else itemFields kind

/-! ## Values -/

def isNone : Value → Bool
  | .none => true
  | _ => false

def isStr : Value → Bool
  | .str _ => true
  | _ => false

def textIn (texts : List String) : Value → Bool
  | .str text => texts.contains text
  | _ => false

def filledStr : Value → Bool
  | .str text => text != ""
  | _ => false

def isList : Value → Bool
  | .list _ => true
  | _ => false

def keysWithin (names : List String) (entries : Dict) : Bool :=
  entries.all fun entry => names.contains entry.1

def keysAre (names : List String) (entries : Dict) : Bool :=
  keysWithin names entries && names.all entries.has

/-! ## Shape -/

/-- `item.get("type", "message" if "role" in item else None)`. -/
def itemKind (item : Dict) : Value :=
  if item.has "type" then item.get "type" else if item.has "role" then .str "message" else .none

/-- Routing metadata that an SDK model has filled in with nothing is dropped. -/
def dropRouting (kind : String) (item : Dict) : Dict :=
  if kind = "function_call" then
    ["caller", "namespace"].foldl
      (fun item key => if isNone (item.get key) then item.pop key else item) item
  else item

def itemStatuses (kind : String) : List String :=
  if kind = "web_search_call" then ["completed", "failed"] else ["completed"]

def validateItemShape (output : Bool) (provider : Option String) (item : Value) :
    Except ResponseItemsError (String × Dict) :=
  match item with
  | .dict item =>
      match itemKind item with
      | .str kind =>
          match allowedFields provider kind with
          | none => .error "Responses replay contains an unsupported item type"
          | some allowed => do
              ensure (¬ (output = true ∧ kind = "function_call_output"))
                "Responses replay contains an unsupported item type"
              let item := dropRouting kind item
              ensure (keysWithin allowed item = true)
                "Responses replay contains unsupported item fields"
              ensure (isNone (item.get "status") = true ∨
                  textIn (itemStatuses kind) (item.get "status") = true)
                "Responses replay contains an incomplete item"
              ensure (isNone (item.get "id") = true ∨ isStr (item.get "id") = true)
                "Responses replay contains an invalid item identifier"
              return (kind, item)
      | _ => .error "Responses replay contains an invalid item type"
  | _ => .error "Responses replay items must be objects"

/-! ## Hosted tools -/

def validateStringList : Value → Except ResponseItemsError Unit
  | .list entries => ensure (entries.all isStr = true)
      "Responses replay contains an invalid hosted tool text list"
  | _ => .error "Responses replay contains an invalid hosted tool text list"

def searchSource : Value → Bool
  | .dict source =>
      keysAre ["type", "url"] source && textIn ["url"] (Dict.get source "type") &&
        isStr (Dict.get source "url")
  | _ => false

def validateSearchAction (action : Dict) : Except ResponseItemsError Unit := do
  ensure (keysWithin ["type", "query", "queries", "sources"] action = true)
    "Responses replay contains unsupported search action fields"
  ensure (isNone (Dict.get action "query") = true ∨ isStr (Dict.get action "query") = true)
    "Responses replay contains an invalid search query"
  if isNone (Dict.get action "queries") then .ok () else validateStringList (Dict.get action "queries")
  match Dict.get action "sources" with
  | .none => .ok ()
  | .list sources =>
      ensure (sources.all searchSource = true) "Responses replay contains an invalid search source"
  | _ => .error "Responses replay contains invalid search sources"

def validateProviderItem (kind : String) (provider : Option String) (item : Dict) :
    Except ResponseItemsError Unit := do
  ensure (filledStr (item.get "id") = true ∧ isNone (item.get "status") = false)
    "Responses replay contains invalid hosted tool identity or status"
  if kind = "web_extractor_call" then
    ensure (isStr (item.get "goal") = true ∧ isStr (item.get "output") = true)
      "Responses replay contains invalid web extraction text"
    validateStringList (item.get "urls")
  else
    match item.get "action" with
    | .dict action =>
        if textIn ["search"] (Dict.get action "type") then validateSearchAction action
        else if textIn ["open_page"] (Dict.get action "type") && provider == some "openai" then
          ensure (keysWithin ["type", "url"] action = true ∧
              (isNone (Dict.get action "url") = true ∨ isStr (Dict.get action "url") = true))
            "Responses replay contains invalid open-page fields"
        else if textIn ["find_in_page"] (Dict.get action "type") && provider == some "openai" then
          ensure (keysAre ["type", "url", "pattern"] action = true ∧
              isStr (Dict.get action "url") = true ∧ isStr (Dict.get action "pattern") = true)
            "Responses replay contains invalid find-in-page fields"
        else .error "Responses replay contains an unsupported search action"
    | _ => .error "Responses replay contains an invalid search action"

/-! ## Reasoning and messages -/

def reasoningBlock (expected : String) : Value → Bool
  | .dict block =>
      keysAre ["type", "text"] block && textIn [expected] (Dict.get block "type") &&
        isStr (Dict.get block "text")
  | _ => false

/-- The blocks of one key of a reasoning item. -/
def validateReasoningBlocks (item : Dict) (key expected : String) :
    Except ResponseItemsError Unit :=
  match item.get key with
  | .none => .ok ()
  | .list blocks => ensure (blocks.all (reasoningBlock expected) = true)
      "Responses replay contains an unsupported reasoning block"
  | _ => .error "Responses replay contains invalid reasoning blocks"

def validateReasoning (item : Dict) : Except ResponseItemsError Unit := do
  ensure (isNone (item.get "encrypted_content") = true ∨ isStr (item.get "encrypted_content") = true)
    "Responses replay contains invalid encrypted reasoning"
  validateReasoningBlocks item "summary" "summary_text"
  validateReasoningBlocks item "content" "reasoning_text"

def messageBlockFields (kind : String) : Option (List String) :=
  if kind = "output_text" then some ["type", "text", "annotations", "logprobs"]
  else if kind = "refusal" then some ["type", "refusal"]
  else if kind = "input_text" then some ["type", "text", "prompt_cache_breakpoint"]
  else none

/-- `{"mode": "explicit"}`. -/
def explicitBreakpoint : Value → Bool
  | .dict entries => keysAre ["mode"] entries && textIn ["explicit"] (Dict.get entries "mode")
  | _ => false

def validateMessageBlock (output : Bool) (block : Value) : Except ResponseItemsError Unit :=
  match block with
  | .dict block =>
      match Dict.get block "type" with
      | .str kind =>
          match messageBlockFields kind with
          | none => .error "Responses replay contains an unsupported message block"
          | some allowed => do
              ensure (¬ (output = true ∧ kind = "input_text"))
                "Responses replay contains an unsupported message block"
              ensure (keysWithin allowed block = true ∧
                  isStr (Dict.get block (if kind = "refusal" then "refusal" else "text")) = true)
                "Responses replay contains invalid message block fields"
              ensure (isNone (Dict.get block "annotations") = true ∨ isList (Dict.get block "annotations") = true)
                "Responses replay contains invalid message block metadata"
              ensure (isNone (Dict.get block "logprobs") = true ∨ isList (Dict.get block "logprobs") = true)
                "Responses replay contains invalid message block metadata"
              ensure (Dict.has block "prompt_cache_breakpoint" = true →
                  explicitBreakpoint (Dict.get block "prompt_cache_breakpoint") = true)
                "Responses replay contains an unsupported cache breakpoint"
      | _ => .error "Responses replay contains an unsupported message block"
  | _ => .error "Responses replay contains an invalid message block"

def messageRoles (output : Bool) : List String :=
  if output then ["assistant"] else ["system", "developer", "user", "assistant"]

def validateMessage (output : Bool) (item : Dict) : Except ResponseItemsError Unit := do
  ensure (textIn (messageRoles output) (item.get "role") = true ∧
      (isStr (item.get "content") = true ∨ isList (item.get "content") = true))
    "Responses replay contains an invalid message"
  ensure (isNone (item.get "phase") = true ∨
      textIn ["commentary", "final_answer"] (item.get "phase") = true)
    "Responses replay contains an unsupported assistant phase"
  match item.get "content" with
  | .list blocks => blocks.forM (validateMessageBlock output)
  | _ => .ok ()

/-! ## Tool items -/

def validateToolItem (kind : String) (item : Dict) (pairing : Pairing String) :
    Except ResponseItemsError (Pairing String) :=
  match item.get "call_id" with
  | .str callId => do
      ensure (callId ≠ "") "Responses replay contains an invalid tool call identifier"
      if kind = "function_call" then
        ensure (filledStr (item.get "name") = true ∧ isStr (item.get "arguments") = true)
          "Responses replay contains an invalid function call"
        match pairing.advance (.call callId) with
        | none => .error "Responses replay contains duplicate tool calls"
        | some next => .ok next
      else
        match pairing.advance (.result callId) with
        | none => .error "Responses replay contains an unpaired tool result"
        | some next => do
            ensure (isStr (item.get "output") = true)
              "Responses replay tool results must be safe text"
            return next
  | _ => .error "Responses replay contains an invalid tool call identifier"

/-! ## Lists of items -/

/-- The checks of an item of a kind. -/
def validateKind (output : Bool) (provider : Option String) (kind : String) (item : Dict)
    (pairing : Pairing String) : Except ResponseItemsError (Pairing String) :=
  if kind = "reasoning" then (validateReasoning item).map fun _ => pairing
  else if kind = "message" then (validateMessage output item).map fun _ => pairing
  else if (providerItemFields kind).isSome then
    (validateProviderItem kind provider item).map fun _ => pairing
  else validateToolItem kind item pairing

def validateItem (output : Bool) (provider : Option String) (pairing : Pairing String)
    (item : Value) : Except ResponseItemsError (Value × Pairing String) := do
  let (kind, item) ← validateItemShape output provider item
  let next ← validateKind output provider kind item pairing
  return (.dict item, next)

def validateItems (output : Bool) (provider : Option String) :
    List Value → Pairing String → Except ResponseItemsError (List Value × Pairing String)
  | [], pairing => .ok ([], pairing)
  | item :: rest, pairing => do
      let (item, next) ← validateItem output provider pairing item
      let (rest, last) ← validateItems output provider rest next
      return (item :: rest, last)

/-- `calls == completed`, as sets. -/
def finished (pairing : Pairing String) : Bool :=
  pairing.calls.all (pairing.completed.contains ·) &&
    pairing.completed.all (pairing.calls.contains ·)

/-- `wireBytes` is the length of the JSON text of the items. -/
def validateResponseItems (wireBytes : List Value → Nat) (items : WireValue) (output : Bool)
    (provider : Option String) : Except ResponseItemsError (List Value) := do
  ensure (∀ name ∈ provider, (providerItemTypes name).isSome = true)
    "Responses replay provider is unsupported"
  match items with
  | .items values => do
      ensure (values.length ≤ responseItemsMaxItems)
        "Responses replay item count exceeds the supported bound"
      let (selected, _) ← copy (maxDepth + 1) items 0
      match selected with
      | .list selected => do
          let (selected, pairing) ← validateItems output provider selected .start
          ensure (output = true ∨ finished pairing = true)
            "Responses replay contains an unfinished tool group"
          ensure (wireBytes selected ≤ responseItemsMaxBytes)
            "Responses replay exceeds the supported byte bound"
          return selected
      -- a list is copied to a list
      | _ => .error "Responses replay items must be objects"
  | _ => .error "Responses replay item count exceeds the supported bound"

end AgentLibOS.Responses
