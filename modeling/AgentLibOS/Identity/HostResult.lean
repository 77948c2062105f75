import AgentLibOS.Library.Framing
import AgentLibOS.Library.Run
import Mathlib.Data.List.Sort

namespace AgentLibOS.Identity
open Library.Framing Library.Run

/-! ## Results -/

/-- The results that a Host boundary returns. `φ` are the finite floats; an enum stands by its
class, with no value if it is not a string, and a dataclass by its identity and storage. -/
inductive HostValue (φ : Type)
  | none
  | bool (value : Bool)
  | int (value : Int)
  | float (value : φ)
  | nonFinite
  | str (text : String)
  | bytes (mutable : Bool) (raw : List UInt8)
  | enum (type : String) (value : Option String)
  | list (items : List (HostValue φ))
  | tuple (items : List (HostValue φ))
  | dict (entries : List (String × HostValue φ))
  | dataclass (identity : String) (storage : List (String × HostValue φ))

/-- The classes that the loaded modules bind: the Host's enums, and the fields of dataclasses. -/
structure HostTypes where
  enums : String → Bool
  dataclassFields : String → Option (List String)

inductive HostFault
  | valueError (message : String)
  | typeError (message : String)
  | overflowError
  deriving DecidableEq

def trustedResultDataclasses : List String :=
  ["agent_libos.primitives.filesystem.DeleteResult",
    "agent_libos.primitives.filesystem.DirectoryEntry",
    "agent_libos.primitives.filesystem.DirectoryReadResult",
    "agent_libos.primitives.filesystem.DirectoryWriteResult",
    "agent_libos.primitives.filesystem.FileBytesReadResult",
    "agent_libos.primitives.filesystem.FileReadResult",
    "agent_libos.primitives.filesystem.FileWriteResult",
    "agent_libos.models.data_flow.DataFlowContext",
    "agent_libos.models.data_flow.DataLabels",
    "agent_libos.models.data_flow.DataSourceRef",
    "agent_libos.models.git.GitCommit",
    "agent_libos.models.git.GitDiffResult",
    "agent_libos.models.git.GitOperationResult",
    "agent_libos.models.git.GitPatchArtifact",
    "agent_libos.models.git.GitPath",
    "agent_libos.models.git.GitPullRequest",
    "agent_libos.models.git.GitPullRequestReview",
    "agent_libos.models.git.GitRef",
    "agent_libos.models.git.GitRemoteInfo",
    "agent_libos.models.git.GitRepositoryInfo",
    "agent_libos.models.git.GitStateToken",
    "agent_libos.models.git.GitStatusEntry",
    "agent_libos.models.git.GitStatusResult",
    "agent_libos.models.git.GitWorktreeInfo",
    "agent_libos.primitives.git._GitCleanSnapshot",
    "agent_libos.primitives.git._GitFlowSnapshot",
    "agent_libos.primitives.git._GitReadFlowSnapshot",
    "agent_libos.substrate.base.CommandMetrics",
    "agent_libos.substrate.base.CommandResult",
    "agent_libos.substrate.base.DirectoryEntrySnapshot",
    "agent_libos.substrate.base.GitCommandResult",
    "agent_libos.substrate.base.PathState",
    "agent_libos.models.jsonrpc.JsonRpcCallResult",
    "agent_libos.models.mcp.McpCallResult",
    "agent_libos.models.mcp.McpConnectionInfo",
    "agent_libos.models.mcp.McpDiscoveryResult",
    "agent_libos.models.mcp.McpExchangeReceipt",
    "agent_libos.models.mcp.McpProviderCallResult",
    "agent_libos.models.mcp.McpProviderDiscoveryResult",
    "agent_libos.models.mcp.McpProviderTool",
    "agent_libos.models.mcp.McpToolListResult",
    "agent_libos.llm.client.LLMCompletion"]

def hostResultIgnoredFields (identity : String) : List String :=
  if identity = "agent_libos.primitives.git._GitFlowSnapshot" then ["state_version_resolver"]
  else if identity = "agent_libos.primitives.git._GitReadFlowSnapshot" then ["refresh"]
  else if identity = "agent_libos.llm.client.LLMCompletion" then
    ["raw", "reasoning", "response_items", "responses_items", "provider_request_options",
      "compatibility_removed_options", "provider_trace", "_provider_attempt_sequence"]
  else []

def hostResultDigestMaxBytes : Nat := 64 * 1024 * 1024

def hostResultDigestMaxNodes : Nat := 500000

/-! ## The stream -/

/-- What is left of the budget, and what the digest has been fed with. -/
structure Sink where
  nodes : Nat
  bytes : Nat
  written : List UInt8

abbrev Writer := Sink → Except HostFault Sink

def utf8 (text : String) : List UInt8 := text.toByteArray.data.toList

def consumeHostResultBudget (nodes bytes : Nat) : Writer := fun sink => do
  ensure (nodes ≤ sink.nodes ∧ bytes ≤ sink.bytes)
    (HostFault.valueError "Host result identity exceeds its bounded budget")
  .ok { sink with nodes := sink.nodes - nodes, bytes := sink.bytes - bytes }

/-- `_stream_host_frame`. A length that does not fit into its bytes raises. -/
def streamHostFrame (frame : Frame) : Writer := fun sink => do
  let sink ← consumeHostResultBudget 0 (frame.tag.length + frame.payload.length + 9) sink
  ensure (frame.tag.length < 256 ∧ frame.payload.length < 256 ^ 8) HostFault.overflowError
  .ok { sink with written := sink.written ++ frame.bytes }

def framed (tag : String) (payload : List UInt8) : Frame := ⟨utf8 tag, payload⟩

def writeAll : List Writer → Writer
  | [], sink => .ok sink
  | writer :: rest, sink => do
      let sink ← writer sink
      writeAll rest sink

def raising (fault : HostFault) : Writer := fun _ => .error fault

/-- `sorted(value)`, with what belongs to the keys. -/
def sortedByKey {β : Type} (entries : List (String × β)) : List (String × β) :=
  entries.insertionSort fun left right => left.1 ≤ right.1

/-- `_host_dataclass_field`. -/
def hostDataclassField {β : Type} (storage : List (String × β)) (name : String) :
    Except HostFault (String × β) :=
  match storage.lookup name with
  | some value => .ok (name, value)
  | none => .error (.typeError "Host result slot storage is not safe")

/-- `_validate_host_dataclass_identity`, and the names of the fields. -/
def boundFieldNames (types : HostTypes) (identity : String) : Except HostFault (List String) := do
  ensure (identity ∈ trustedResultDataclasses)
    (HostFault.typeError "Host result dataclass is not allowlisted")
  match types.dataclassFields identity with
  | some names => .ok names
  | none => .error (.typeError "Host result dataclass identity is not Host bound")

/-- `_host_dataclass_fields`: what the storage has for each field that counts. -/
def hostDataclassFields {β : Type} (types : HostTypes) (identity : String)
    (storage : List (String × β)) : Except HostFault (List (String × β)) := do
  let names ← boundFieldNames types identity
  (names.filter (· ∉ hostResultIgnoredFields identity)).mapM (hostDataclassField storage)

/-- The frame of an enum, by `_trusted_host_enum_value`. -/
def streamHostEnum (types : HostTypes) (type : String) (value : Option String) : Writer :=
  if ¬ types.enums type then raising (.typeError "Host result enum is not Host owned")
  else match value with
    | some value => streamHostFrame (framed "enum" (utf8 value))
    | none => raising (.typeError "Host result enum value must be a string")

section
variable {φ : Type} (types : HostTypes) (repr : φ → String)

mutual

/-- `_stream_host_result`. -/
def streamHostResult : HostValue φ → Writer
  | .none => writeAll [consumeHostResultBudget 1 0, streamHostFrame (framed "none" [])]
  | .bool value => writeAll [consumeHostResultBudget 1 0,
      streamHostFrame (framed "bool" (utf8 (if value then "1" else "0")))]
  | .int value => writeAll [consumeHostResultBudget 1 0,
      streamHostFrame (framed "int" (utf8 value.repr))]
  | .float value => writeAll [consumeHostResultBudget 1 0,
      streamHostFrame (framed "float" (utf8 (repr value)))]
  | .nonFinite => writeAll [consumeHostResultBudget 1 0,
      raising (.valueError "Host result contains a non-finite number")]
  | .str text => writeAll [consumeHostResultBudget 1 0, streamHostFrame (framed "str" (utf8 text))]
  | .bytes _ raw => writeAll [consumeHostResultBudget 1 0, streamHostFrame (framed "bytes" raw)]
  | .enum type value => writeAll [consumeHostResultBudget 1 0, streamHostEnum types type value]
  | .list items => writeAll ([consumeHostResultBudget 1 0, streamHostFrame (framed "list" []),
      streamHostFrame (framed "length" (utf8 items.length.repr))] ++ streamHostChildren items)
  | .tuple items => writeAll ([consumeHostResultBudget 1 0, streamHostFrame (framed "tuple" []),
      streamHostFrame (framed "length" (utf8 items.length.repr))] ++ streamHostChildren items)
  | .dict entries => writeAll ([consumeHostResultBudget 1 0, streamHostFrame (framed "dict" []),
      streamHostFrame (framed "length" (utf8 entries.length.repr))] ++
      (sortedByKey (streamHostEntries entries)).flatMap fun entry =>
        [streamHostFrame (framed "key" (utf8 entry.1)), entry.2])
  | .dataclass identity storage => fun sink => do
      let sink ← consumeHostResultBudget 1 0 sink
      let fields ← hostDataclassFields types identity (streamHostEntries storage)
      writeAll (streamHostFrame (framed "dataclass" (utf8 identity)) ::
        fields.flatMap fun field =>
          [streamHostFrame (framed "field" (utf8 field.1)), field.2]) sink

def streamHostChildren : List (HostValue φ) → List Writer
  | [] => []
  | item :: rest => streamHostResult item :: streamHostChildren rest

def streamHostEntries : List (String × HostValue φ) → List (String × Writer)
  | [] => []
  | (name, value) :: rest => (name, streamHostResult value) :: streamHostEntries rest

end

/-- The bytes that the digest of a result is made of. -/
def hostResultBytes (value : HostValue φ) : Except HostFault (List UInt8) := do
  let sink ← streamHostResult types repr value
    ⟨hostResultDigestMaxNodes, hostResultDigestMaxBytes, []⟩
  .ok sink.written

theorem streamHostChildren_map (items : List (HostValue φ)) :
    streamHostChildren types repr items = items.map (streamHostResult types repr) := by
  induction items with
  | nil => rfl
  | cons item rest ih => rw [streamHostChildren, ih, List.map_cons]

theorem streamHostEntries_map (entries : List (String × HostValue φ)) :
    streamHostEntries types repr entries =
      entries.map fun entry => (entry.1, streamHostResult types repr entry.2) := by
  induction entries with
  | nil => rfl
  | cons entry rest ih =>
      obtain ⟨name, value⟩ := entry
      rw [streamHostEntries, ih, List.map_cons]

end

/-! ## Fields -/

/-- What belongs to sorted keys is sorted with them. -/
theorem sortedByKey_map {β γ : Type} (f : β → γ) (entries : List (String × β)) :
    sortedByKey (entries.map fun entry => (entry.1, f entry.2)) =
      (sortedByKey entries).map fun entry => (entry.1, f entry.2) :=
  (List.map_insertionSort (fun left right : String × β => left.1 ≤ right.1)
    (fun left right : String × γ => left.1 ≤ right.1) (fun entry => (entry.1, f entry.2)) entries
    fun _ _ _ _ => Iff.rfl).symm

theorem sortedByKey_perm {β : Type} (entries : List (String × β)) :
    (sortedByKey entries).Perm entries :=
  List.perm_insertionSort _ entries

theorem lookup_map {β γ : Type} (f : β → γ) (entries : List (String × β)) (name : String) :
    (entries.map fun entry => (entry.1, f entry.2)).lookup name = (entries.lookup name).map f := by
  induction entries with
  | nil => rfl
  | cons entry rest ih =>
      rw [List.map_cons, List.lookup_cons, List.lookup_cons]
      cases name == entry.1 with
      | true => rfl
      | false => exact ih

section
variable {β γ : Type} {types : HostTypes} {identity : String} {storage : List (String × β)}

theorem hostDataclassField_ok {name : String} {field : String × β} :
    hostDataclassField storage name = .ok field ↔
      field.1 = name ∧ storage.lookup name = some field.2 := by
  obtain ⟨name', value⟩ := field
  unfold hostDataclassField
  cases storage.lookup name with
  | none => simp
  | some found => simp [eq_comm]

/-- The fields of one class have the same names in all its instances. -/
theorem hostDataclassFields_names {fields : List (String × β)} {storage' : List (String × γ)}
    {fields' : List (String × γ)} (found : hostDataclassFields types identity storage = .ok fields)
    (found' : hostDataclassFields types identity storage' = .ok fields') :
    fields.map Prod.fst = fields'.map Prod.fst := by
  obtain ⟨names, bound, each⟩ := bind_eq_ok.mp found
  obtain ⟨names', bound', each'⟩ := bind_eq_ok.mp found'
  cases bound.symm.trans bound'
  have listed {β : Type} {storage : List (String × β)} {names : List String}
      {fields : List (String × β)} (each : names.mapM (hostDataclassField storage) = .ok fields) :
      fields.map Prod.fst = names := by
    have related := mapM_eq_ok.mp each
    clear each
    induction related with
    | nil => rfl
    | cons head _ ih => rw [List.map_cons, ih, (hostDataclassField_ok.mp head).1]
  rw [listed each, listed each']

/-- Fields of mapped storage are the mapped fields, whose values are in the storage. -/
theorem hostDataclassFields_map {f : β → γ} {fields' : List (String × γ)}
    (found : hostDataclassFields types identity
      (storage.map fun entry => (entry.1, f entry.2)) = .ok fields') :
    ∃ fields, hostDataclassFields types identity storage = .ok fields ∧
      fields' = fields.map (fun field => (field.1, f field.2)) ∧
      ∀ field ∈ fields, field ∈ storage := by
  obtain ⟨names, bound, each⟩ := bind_eq_ok.mp found
  have related := mapM_eq_ok.mp each
  suffices back : ∃ fields : List (String × β),
      List.Forall₂ (fun name field => hostDataclassField storage name = .ok field)
        (names.filter (· ∉ hostResultIgnoredFields identity)) fields ∧
      fields' = fields.map (fun field => (field.1, f field.2)) ∧ ∀ field ∈ fields, field ∈ storage by
    obtain ⟨fields, each, same, inside⟩ := back
    exact ⟨fields, bind_eq_ok.mpr ⟨names, bound, mapM_eq_ok.mpr each⟩, same, inside⟩
  clear each found
  generalize names.filter (· ∉ hostResultIgnoredFields identity) = counting at related ⊢
  induction related with
  | nil => exact ⟨[], .nil, rfl, nofun⟩
  | @cons name field' _ _ head _ ih =>
      obtain ⟨fields, each, rfl, inside⟩ := ih
      obtain ⟨same, found⟩ := hostDataclassField_ok.mp head
      rw [lookup_map] at found
      obtain ⟨value, here, there⟩ := Option.map_eq_some_iff.mp found
      refine ⟨(name, value) :: fields, .cons (hostDataclassField_ok.mpr ⟨rfl, here⟩) each, ?_, ?_⟩
      · rw [List.map_cons, there, ← same]
      · obtain ⟨before, after, whole, _⟩ := List.lookup_eq_some_iff.mp here
        rw [List.forall_mem_cons]
        exact ⟨whole ▸ List.mem_append_right before List.mem_cons_self, inside⟩

end

end AgentLibOS.Identity
