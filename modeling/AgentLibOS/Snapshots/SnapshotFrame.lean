import AgentLibOS.Snapshots.RowFrame
import Mathlib.Data.List.Dedup

namespace AgentLibOS.Snapshots
open Capability Library.Run

/-- A snapshot changes in its identities only. -/
structure SnapshotKept (codec : Codec) (source target : ProcessSnapshot) : Prop where
  header : target.header = { source.header with rootPid := target.header.rootPid }
  rows : ∀ table, List.Forall₂ (RowKept codec table) (source.rows table) (target.rows table)
  types : target.referencedObjectTypes.values = source.referencedObjectTypes.values
  payloads : target.objectPayloads.values = source.objectPayloads.values
  images : target.images = source.images
  imageArtifacts : target.imageArtifacts = source.imageArtifacts
  jitSources : target.jitSources.values = source.jitSources.values
  modules : target.modules = source.modules
  responsesReplayRefs : target.responsesReplayRefs = source.responsesReplayRefs
  providerContinuationRefs : target.providerContinuationRefs = source.providerContinuationRefs

namespace SnapshotRemapper

/-! ## Snapshots -/

theorem lookup_of_mapM {f : SnapshotTable → Except ValidationError (List Row)}
    {tables : List SnapshotTable} {results : List (SnapshotTable × List Row)}
    {table : SnapshotTable} (inside : table ∈ tables)
    (done : tables.mapM (fun table => (f table).map fun rows => (table, rows)) = .ok results) :
    ∃ rows, f table = .ok rows ∧ results.lookup table = some rows := by
  have related := mapM_eq_ok.mp done
  clear done
  induction related with
  | nil => exact absurd inside List.not_mem_nil
  | @cons first result tables results head _ ih =>
      obtain ⟨rows, here, rfl⟩ := map_eq_ok.mp head
      rw [List.lookup_cons]
      by_cases same : table = first
      · subst same
        exact ⟨rows, here, by rw [beq_self_eq_true]⟩
      · rw [beq_eq_false_iff_ne.mpr same]
        exact ih ((List.mem_cons.mp inside).resolve_left same)

theorem remapRows_ok {codec : Codec} {identities : SnapshotIdentityMap}
    {rows rows' : SnapshotRows} (done : remapRows codec identities rows = .ok rows')
    (table : SnapshotTable) :
    List.Forall₂ (fun row row' => remapTableRow codec identities table row = .ok row')
      (rows table) (rows' table) := by
  obtain ⟨tables, remapped, done⟩ := bind_eq_ok.mp done
  obtain ⟨_, _, done⟩ := bind_eq_ok.mp done
  have inside : table ∈ SnapshotTable.all := by cases table <;> decide
  obtain ⟨found, here, known⟩ := lookup_of_mapM inside remapped
  have same : rows' table = found := by
    rw [← Except.ok.inj done]
    simp only [known, Option.getD_some]
  rw [same]
  exact mapM_eq_ok.mp here

/-- Listed identities stay apart, since no identity is mapped to an unchanged one. -/
theorem apply_distinct {codec : Codec} {identities : SnapshotIdentityMap}
    {snapshot : ProcessSnapshot} {kind : IdentityKind} {ids : List String}
    (valid : validateIdentityCollisions codec identities snapshot = .ok ())
    (distinct : ids.Nodup) (listed : ids ⊆ listedIds snapshot kind) :
    (ids.map (identities kind).apply).Nodup := by
  have known : kind ∈ IdentityKind.all := by cases kind <;> decide
  have apart := ensure_ok.mp (forM_eq_ok.mp valid kind known)
  have source {id : String} (inside : id ∈ ids) :
      id ∈ snapshotIdentitySources codec snapshot kind :=
    List.mem_dedup.mpr (List.mem_append_left _ (listed inside))
  apply List.Nodup.map_on _ distinct
  intro first firstInside second secondInside same
  exact List.inj_on_of_nodup_map apart (source firstInside) (source secondInside) same

theorem rekey_values {α : Type} {mapping : Mapping α} {selected : IdentityMap}
    (apart : (mapping.keys.map selected.apply).Nodup) :
    (mapping.rekey selected).values = mapping.values := by
  rw [Mapping.values, Mapping.rekey_entries mapping selected apart, List.map_map]
  rfl

/-- What a remapping that returns has passed. -/
theorem remap_ok {codec : Codec} {identities : SnapshotIdentityMap}
    {source target : ProcessSnapshot} (done : remap codec identities source = .ok target) :
    ∃ rows, validateIdentityCollisions codec identities source = .ok () ∧
      remapRows codec identities source.rows = .ok rows ∧
      target = renamed identities source rows := by
  obtain ⟨_, apart, done⟩ := bind_eq_ok.mp done
  obtain ⟨_, _, done⟩ := bind_eq_ok.mp done
  obtain ⟨_, _, done⟩ := bind_eq_ok.mp done
  obtain ⟨rows, remapped, done⟩ := bind_eq_ok.mp done
  obtain ⟨_, _, done⟩ := bind_eq_ok.mp done
  obtain ⟨_, _, done⟩ := bind_eq_ok.mp done
  obtain ⟨_, _, done⟩ := bind_eq_ok.mp done
  exact ⟨rows, apart, remapped, (Except.ok.inj done).symm⟩

theorem remap_kept {codec : Codec} {identities : SnapshotIdentityMap}
    {source target : ProcessSnapshot} (done : remap codec identities source = .ok target)
    (unmoved : ∀ row ∈ source.rows .processMessages,
      ¬ SubjectMoved codec (identities .pids) row) :
    SnapshotKept codec source target := by
  obtain ⟨rows, apart, remapped, rfl⟩ := remap_ok done
  constructor
  case rows =>
    intro table
    have related := remapRows_ok remapped table
    rw [List.forall₂_iff_get] at related ⊢
    refine ⟨related.1, fun i inside inside' => ?_⟩
    refine remapTableRow_kept (related.2 i inside inside') fun messages => ?_
    subst messages
    exact unmoved _ (List.get_mem _ _)
  case types =>
    refine rekey_values (apply_distinct apart source.referencedObjectTypes.distinct ?_)
    exact List.Subset.trans (List.subset_append_right _ _) (List.subset_append_left _ _)
  case payloads =>
    refine rekey_values (apply_distinct apart source.objectPayloads.distinct ?_)
    exact List.subset_append_right _ _
  case jitSources =>
    exact rekey_values (apply_distinct apart source.jitSources.distinct (List.Subset.refl _))
  all_goals rfl

/-- A remapping changes identities only, exactly when no message has a subject that is one of the
process identities it moves. -/
theorem remap_changes_identities_only {codec : Codec} {identities : SnapshotIdentityMap}
    {source target : ProcessSnapshot} (done : remap codec identities source = .ok target) :
    SnapshotKept codec source target ↔
      ∀ row ∈ source.rows .processMessages, ¬ SubjectMoved codec (identities .pids) row := by
  constructor
  · intro kept row inside
    obtain ⟨rows, _, remapped, rfl⟩ := remap_ok done
    obtain ⟨i, here⟩ := List.get_of_mem inside
    have related := List.forall₂_iff_get.mp (remapRows_ok remapped .processMessages)
    have rewritten := related.2 i i.isLt (related.1 ▸ i.isLt)
    have same := ((List.forall₂_iff_get.mp (kept.rows .processMessages)).2 i i.isLt
      (related.1 ▸ i.isLt)).plain "subject" (by decide) (by decide)
    have unchanged := (remapTableRow_subject rewritten).symm.trans same
    subst here
    exact (subject_column codec identities _).mp unchanged
  · exact remap_kept done

/-! ## A message whose subject is a process identity -/

/-- The functions on the few texts of the snapshot below. -/
def smallCodec : Codec where
  loads text := if text = "{}" then some (.dict []) else none
  loadStrict text := if text = "null" then some .none else none
  loadPlain text := if text = "{}" then some (.dict []) else none
  dumps _ := "null"
  sortedText _ := "{}"
  repr _ := "None"
  str
    | .str text => text
    | _ => "None"
  str_text _ := rfl

def forkedPid : SnapshotIdentityMap
  | .pids => ⟨[("pid_1", "pid_2")], by decide, by decide, by decide⟩
  | _ => IdentityMap.empty

def smallProcess : Row where
  entries := [("pid", .str "pid_1"), ("parent_pid", .none), ("image_id", .str "image"),
    ("status", .str "runnable"), ("goal_oid", .none), ("memory_view_json", .str "{}"),
    ("capabilities_json", .str "[]"), ("loaded_skills_json", .str "{}"),
    ("tool_table_json", .str "{}"), ("model_tool_table_json", .str "{}"), ("event_cursor", .none),
    ("checkpoint_head", .none), ("status_message", .none), ("resource_budget_json", .str "{}"),
    ("resource_usage_json", .str "{}"), ("working_directory", .str "."), ("llm_profile_id", .none),
    ("wait_state_json", .str "null"), ("outcome_json", .str "null"), ("state_generation", .int 0),
    ("revision", .int 0), ("execution_generation", .int 0), ("execution_owner_id", .none),
    ("execution_lease_id", .none), ("task_run_id", .none), ("task_run_epoch", .none),
    ("task_run_role", .none), ("created_at", .str "t"), ("updated_at", .str "t")]
  distinct := by decide +kernel

def smallMessage : Row where
  entries := [("message_id", .str "msg_1"), ("sender", .str "pid_1"),
    ("recipient_pid", .str "pid_1"), ("kind", .str "normal"), ("channel", .str "default"),
    ("correlation_id", .none), ("reply_to", .none), ("subject", .str "pid_1"),
    ("body", .str "pid_1"), ("payload_json", .str "{}"), ("metadata_json", .str "{}"),
    ("status", .str "unread"), ("created_at", .str "t"), ("updated_at", .str "t"),
    ("acked_at", .none)]
  distinct := by decide +kernel

def smallSnapshot : ProcessSnapshot where
  header := ⟨1, "checkpoint_1", "pid_1", "", "t", "pid_1"⟩
  subtreePids := ["pid_1"]
  objectOids := []
  ownedObjectOids := []
  referencedObjectOids := []
  referencedObjectTypes := Mapping.empty
  namespaces := []
  ownedNamespaces := []
  rows
    | .processes => [smallProcess]
    | .processMessages => [smallMessage]
    | _ => []
  objectPayloads := Mapping.empty
  images := Mapping.empty
  imageArtifacts := Mapping.empty
  jitSources := Mapping.empty
  modules := []
  responsesReplayRefs := Mapping.empty
  providerContinuationRefs := Mapping.empty

theorem smallSnapshot_remapped : ∃ target, remap smallCodec forkedPid smallSnapshot = .ok target := by
  have returns : (remap smallCodec forkedPid smallSnapshot).isOk = true := by decide +kernel
  cases remapped : remap smallCodec forkedPid smallSnapshot with
  | ok target => exact ⟨target, rfl⟩
  | error err =>
      rw [remapped] at returns
      cases returns

theorem remap_changes_identities_only_small :
    ∃ target, remap smallCodec forkedPid smallSnapshot = .ok target ∧
      (SnapshotKept smallCodec smallSnapshot target ↔
        ∀ row ∈ smallSnapshot.rows .processMessages,
          ¬ SubjectMoved smallCodec (forkedPid .pids) row) := by
  obtain ⟨target, done⟩ := smallSnapshot_remapped
  exact ⟨target, done, remap_changes_identities_only done⟩

/-- The subject of the message is its free text, and the remapping writes another into it. -/
theorem subject_rewritten :
    ∃ target, remap smallCodec forkedPid smallSnapshot = .ok target ∧
      ¬ SnapshotKept smallCodec smallSnapshot target ∧
      ∃ row ∈ target.rows .processMessages, row.column "subject" = some (.str "pid_2") := by
  obtain ⟨target, done⟩ := smallSnapshot_remapped
  obtain ⟨rows, _, remapped, rfl⟩ := remap_ok done
  have related := remapRows_ok remapped .processMessages
  change List.Forall₂ _ [smallMessage] _ at related
  obtain ⟨row', rest, rewritten, _, shape⟩ := List.forall₂_cons_left_iff.mp related
  have inside : ("subject", IdentityKind.pids) ∈ fieldMaps := by decide +kernel
  have moved : row'.column "subject" = some (.str "pid_2") := by
    rw [remapTableRow_subject rewritten, remapFields_column inside]
    rfl
  refine ⟨_, done, fun kept => ?_, row', ?_, moved⟩
  · have rowsKept := kept.rows .processMessages
    change List.Forall₂ _ [smallMessage] (rows .processMessages) at rowsKept
    rw [shape] at rowsKept
    have same := (List.forall₂_cons.mp rowsKept).1.plain "subject" (by decide) (by decide)
    rw [moved] at same
    have texts := Value.str.inj (Option.some.inj same)
    exact absurd texts (by decide)
  · change row' ∈ rows .processMessages
    rw [shape]
    exact List.mem_cons_self

end SnapshotRemapper

end AgentLibOS.Snapshots
