import AgentLibOS.Capability.Value

namespace AgentLibOS.Snapshots
open Capability

/-- `ValidationError`, by its message. -/
abbrev ValidationError := String

/-! ## Identity maps -/

inductive IdentityKind
  | pids | objects | namespaces | capabilities | tools | candidates
  deriving DecidableEq, Repr

namespace IdentityKind

def all : List IdentityKind := [.pids, .objects, .namespaces, .capabilities, .tools, .candidates]

def name : IdentityKind → String
  | .pids => "pids"
  | .objects => "objects"
  | .namespaces => "namespaces"
  | .capabilities => "capabilities"
  | .tools => "tools"
  | .candidates => "candidates"

end IdentityKind

/-- A mapping of one kind of identities, as `SnapshotIdentityMap` admits it. -/
structure IdentityMap where
  entries : List (String × String)
  sources : (entries.map Prod.fst).Nodup
  oneToOne : (entries.map Prod.snd).Nodup
  filled : ∀ entry ∈ entries, entry.1 ≠ "" ∧ entry.2 ≠ ""

namespace IdentityMap

def get? (selected : IdentityMap) (id : String) : Option String := selected.entries.lookup id

/-- `selected.get(id, id)`. -/
def apply (selected : IdentityMap) (id : String) : String := (selected.get? id).getD id

def isEmpty (selected : IdentityMap) : Bool := selected.entries.isEmpty

def empty : IdentityMap := ⟨[], List.nodup_nil, List.nodup_nil, fun _ inside => nomatch inside⟩

end IdentityMap

abbrev SnapshotIdentityMap := IdentityKind → IdentityMap

/-! ## Tables -/

inductive SnapshotTable
  | processes | objectNamespaces | objects | objectLinks | capabilities
  | processResourceReservations | processMessages | llmPendingActions | skills | tools
  | toolCandidates
  deriving DecidableEq, Repr

namespace SnapshotTable

def all : List SnapshotTable :=
  [.processes, .objectNamespaces, .objects, .objectLinks, .capabilities,
    .processResourceReservations, .processMessages, .llmPendingActions, .skills, .tools,
    .toolCandidates]

def name : SnapshotTable → String
  | .processes => "processes"
  | .objectNamespaces => "object_namespaces"
  | .objects => "objects"
  | .objectLinks => "object_links"
  | .capabilities => "capabilities"
  | .processResourceReservations => "process_resource_reservations"
  | .processMessages => "process_messages"
  | .llmPendingActions => "llm_pending_actions"
  | .skills => "skills"
  | .tools => "tools"
  | .toolCandidates => "tool_candidates"

/-- `ROW_COLUMNS`. -/
def columns : SnapshotTable → List String
  | .processes => ["pid", "parent_pid", "image_id", "status", "goal_oid", "memory_view_json",
      "capabilities_json", "loaded_skills_json", "tool_table_json", "model_tool_table_json",
      "event_cursor", "checkpoint_head", "status_message", "resource_budget_json",
      "resource_usage_json", "working_directory", "llm_profile_id", "wait_state_json",
      "outcome_json", "state_generation", "revision", "execution_generation",
      "execution_owner_id", "execution_lease_id", "task_run_id", "task_run_epoch",
      "task_run_role", "created_at", "updated_at"]
  | .objectNamespaces => ["namespace", "parent_namespace", "metadata_json", "created_by",
      "created_at", "updated_at"]
  | .objects => ["oid", "namespace", "name", "type", "schema_version", "payload_json",
      "metadata_json", "provenance_json", "version", "immutable", "created_by", "owner_kind",
      "owner_id", "lifecycle_state", "deleted_at", "created_at", "updated_at"]
  | .objectLinks => ["id", "src_oid", "relation", "dst_oid", "metadata_json", "created_by",
      "created_at"]
  | .capabilities => ["cap_id", "subject", "resource", "rights_json", "constraints_json",
      "issued_by", "issued_at", "expires_at", "delegable", "revocable", "effect",
      "issuer_cap_id", "parent_cap_id", "delegation_depth", "max_delegation_depth",
      "uses_remaining", "status", "metadata_json"]
  | .processResourceReservations => ["parent_pid", "child_pid", "reservation_json", "created_at",
      "updated_at"]
  | .processMessages => ["message_id", "sender", "recipient_pid", "kind", "channel",
      "correlation_id", "reply_to", "subject", "body", "payload_json", "metadata_json", "status",
      "created_at", "updated_at", "acked_at"]
  | .llmPendingActions => ["pid", "resume_token", "llm_operation_id", "tool_operation_id",
      "wait_type", "request_id", "child_pid", "response_id", "tool_call_id", "tool_name",
      "filters_json", "action_json", "data_flow_context_json", "content_preview",
      "tool_call_count", "status", "created_at", "updated_at"]
  | .skills => ["skill_id", "name", "version", "package_json", "source_type", "source",
      "package_sha256", "registered_by", "created_at", "updated_at"]
  | .tools => ["tool_id", "name", "spec_json", "scope", "registered_by", "created_at",
      "ephemeral"]
  | .toolCandidates => ["candidate_id", "pid", "spec_json", "source_code", "tests_json",
      "requested_capabilities_json", "status", "registered_tool_id", "validation_json",
      "created_at", "updated_at"]

end SnapshotTable

/-- The columns that `remap_row` maps, whatever the table. -/
def fieldMaps : List (String × IdentityKind) :=
  [("pid", .pids), ("parent_pid", .pids), ("subject", .pids), ("creator_pid", .pids),
    ("recipient_pid", .pids), ("sender", .pids), ("sender_pid", .pids), ("owner_pid", .pids),
    ("runner_pid", .pids), ("child_pid", .pids), ("created_by", .pids), ("oid", .objects),
    ("src_oid", .objects), ("dst_oid", .objects), ("result_oid", .objects),
    ("goal_oid", .objects), ("namespace", .namespaces), ("parent_namespace", .namespaces),
    ("cap_id", .capabilities), ("parent_cap_id", .capabilities),
    ("issuer_cap_id", .capabilities), ("capability_id", .capabilities), ("tool_id", .tools),
    ("registered_tool_id", .tools), ("candidate_id", .candidates)]

def primaryRowIdentities : List (IdentityKind × SnapshotTable × String) :=
  [(.pids, .processes, "pid"), (.objects, .objects, "oid"),
    (.namespaces, .objectNamespaces, "namespace"), (.capabilities, .capabilities, "cap_id"),
    (.tools, .tools, "tool_id"), (.candidates, .toolCandidates, "candidate_id")]

/-! ## Mappings -/

/-- `mapping[key] = value`. -/
def setEntry {α : Type} (entries : List (String × α)) (key : String) (value : α) :
    List (String × α) :=
  if key ∈ entries.map Prod.fst then
    entries.map fun entry => if entry.1 = key then (key, value) else entry
  else entries ++ [(key, value)]

theorem setEntry_keys {α : Type} (entries : List (String × α)) (key : String) (value : α) :
    (setEntry entries key value).map Prod.fst =
      if key ∈ entries.map Prod.fst then entries.map Prod.fst else entries.map Prod.fst ++ [key] := by
  unfold setEntry
  split
  · rw [List.map_map]
    apply List.map_congr_left
    intro entry _
    by_cases same : entry.1 = key
    · simp [same]
    · simp [same]
  · simp

theorem lookup_replaced {α : Type} {entries : List (String × α)} {key : String} {value : α}
    (known : key ∈ entries.map Prod.fst) :
    (entries.map fun entry => if entry.1 = key then (key, value) else entry).lookup key =
      some value := by
  induction entries with
  | nil => exact absurd known List.not_mem_nil
  | cons entry entries ih =>
      rw [List.map_cons, List.lookup_cons]
      by_cases here : entry.1 = key
      · simp [here]
      · have later : key ∈ entries.map Prod.fst := by
          rw [List.map_cons, List.mem_cons] at known
          exact known.resolve_left fun same => here same.symm
        rw [if_neg here, beq_eq_false_iff_ne.mpr (Ne.symm here)]
        exact ih later

theorem lookup_beside {α : Type} {entries : List (String × α)} {key other : String} {value : α}
    (different : other ≠ key) :
    (entries.map fun entry => if entry.1 = key then (key, value) else entry).lookup other =
      entries.lookup other := by
  induction entries with
  | nil => rfl
  | cons entry entries ih =>
      rw [List.map_cons, List.lookup_cons, List.lookup_cons, ih]
      by_cases here : entry.1 = key
      · rw [if_pos here, here, beq_eq_false_iff_ne.mpr different]
      · rw [if_neg here]

theorem setEntry_lookup {α : Type} (entries : List (String × α)) (key other : String) (value : α) :
    (setEntry entries key value).lookup other =
      if other = key then some value else entries.lookup other := by
  unfold setEntry
  by_cases known : key ∈ entries.map Prod.fst
  · rw [if_pos known]
    by_cases same : other = key
    · rw [if_pos same, same]
      exact lookup_replaced known
    · rw [if_neg same]
      exact lookup_beside same
  · rw [if_neg known, List.lookup_append, List.lookup_cons]
    by_cases same : other = key
    · have missing : entries.lookup other = none := by
        rw [List.lookup_eq_none_iff]
        intro entry inside
        have different : other ≠ entry.1 := fun equal =>
          known (same ▸ equal ▸ List.mem_map_of_mem inside)
        simpa using different
      rw [missing, if_pos same, same, beq_self_eq_true]
      rfl
    · rw [if_neg same, beq_eq_false_iff_ne.mpr same]
      exact Option.or_none

structure Mapping (α : Type) where
  entries : List (String × α)
  distinct : (entries.map Prod.fst).Nodup

namespace Mapping

def keys {α : Type} (mapping : Mapping α) : List String := mapping.entries.map Prod.fst

def values {α : Type} (mapping : Mapping α) : List α := mapping.entries.map Prod.snd

def empty {α : Type} : Mapping α := ⟨[], List.nodup_nil⟩

def insert {α : Type} (mapping : Mapping α) (key : String) (value : α) : Mapping α where
  entries := setEntry mapping.entries key value
  distinct := by
    have distinct := mapping.distinct
    rw [setEntry_keys]
    split
    · exact distinct
    · rename_i absent
      refine List.nodup_append.mpr ⟨distinct, List.nodup_singleton key, ?_⟩
      intro known inside other same equal
      rw [equal, List.mem_singleton.mp same] at inside
      exact absent inside

/-- `{selected.get(key, key): value for key, value in mapping.items()}`. -/
def rekey {α : Type} (mapping : Mapping α) (selected : IdentityMap) : Mapping α :=
  mapping.entries.foldl (fun built entry => built.insert (selected.apply entry.1) entry.2) empty

theorem rekey_entries {α : Type} (mapping : Mapping α) (selected : IdentityMap)
    (apart : (mapping.keys.map selected.apply).Nodup) :
    (mapping.rekey selected).entries =
      mapping.entries.map fun entry => (selected.apply entry.1, entry.2) := by
  suffices built : ∀ (rest : List (String × α)) (done : Mapping α),
      (done.entries.map Prod.fst ++ rest.map fun entry => selected.apply entry.1).Nodup →
      (rest.foldl (fun built entry => built.insert (selected.apply entry.1) entry.2) done).entries =
        done.entries ++ rest.map fun entry => (selected.apply entry.1, entry.2) by
    have all := built mapping.entries empty (by simpa [empty, keys, Function.comp_def] using apart)
    simpa [rekey, empty] using all
  intro rest
  induction rest with
  | nil => intro done _; simp
  | cons entry rest ih =>
      intro done apart
      have fresh : selected.apply entry.1 ∉ done.entries.map Prod.fst := by
        intro known
        exact (List.nodup_append.mp apart).2.2 _ known _ (by simp) rfl
      have inserted : (done.insert (selected.apply entry.1) entry.2).entries =
          done.entries ++ [(selected.apply entry.1, entry.2)] := by
        show setEntry _ _ _ = _
        rw [setEntry, if_neg fresh]
      rw [List.foldl_cons, ih _ (by rw [inserted]; simpa using apart), inserted]
      simp

end Mapping

/-! ## Rows -/

abbrev Row := Mapping Value

namespace Row

/-- The value of a column; `none` if the row does not have it. -/
def column (row : Row) (name : String) : Option Value := row.entries.lookup name

def get (row : Row) (name : String) : Value := (row.column name).getD .none

theorem column_of_get {row : Row} {name : String} (given : (row.get name).isNone = false) :
    row.column name = some (row.get name) := by
  unfold get at given ⊢
  cases known : row.column name with
  | none =>
      rw [known] at given
      cases given
  | some value => rfl

theorem insert_column (row : Row) (name other : String) (value : Value) :
    column (row.insert name value) other = if other = name then some value else row.column other :=
  setEntry_lookup row.entries name other value

end Row

/-! ## Texts of values -/

inductive DocumentType
  | list | object
  deriving DecidableEq, Repr

/-- The JSON functions, `str` and `repr`. `loads` is `bounded_json_loads` under the limit for nested
documents, `loadStrict` the decoder of process states and `loadPlain` is `json.loads`; they are
`none` on a `ValueError`. -/
structure Codec where
  loads : String → Option Value
  loadStrict : String → Option Value
  loadPlain : String → Option Value
  dumps : Value → String
  sortedText : Dict → String
  repr : Value → String
  str : Value → String
  str_text : ∀ text, str (.str text) = text

namespace DocumentType

abbrev Content : DocumentType → Type
  | list => List Value
  | object => Dict

def value : (shape : DocumentType) → shape.Content → Value
  | list, items => .list items
  | object, entries => .dict entries

def content? : (shape : DocumentType) → Value → Option shape.Content
  | list, .list items => some items
  | object, .dict entries => some entries
  | _, _ => none

def label : DocumentType → String
  | list => "a list"
  | object => "an object"

end DocumentType

/-- `_json_container`. -/
def jsonContainer (codec : Codec) (label : String) (expected : DocumentType) (raw : Value) :
    Except ValidationError expected.Content :=
  match raw with
  | .str text =>
      match codec.loads text with
      | none => .error s!"snapshot {label} contains malformed JSON"
      | some document =>
          match expected.content? document with
          | some content => .ok content
          | none => .error s!"snapshot {label} must decode to {expected.label}"
  | _ => .error s!"snapshot {label} must be canonical JSON text"

end AgentLibOS.Snapshots
