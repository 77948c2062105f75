import AgentLibOS.Snapshots.Documents
import AgentLibOS.Snapshots.References

namespace AgentLibOS.Snapshots
open Capability Processes Library.Run

/-! ## What a remapped row keeps -/

/-- Rows that agree but for some columns. -/
def SameBut (columns : List String) (source target : Row) : Prop :=
  ∀ name, name ∉ columns → target.column name = source.column name

namespace SameBut

theorem refl (columns : List String) (row : Row) : SameBut columns row row := fun _ _ => rfl

theorem trans {columns more : List String} {first second third : Row}
    (front : SameBut columns first second) (back : SameBut more second third) :
    SameBut (columns ++ more) first third := by
  intro name outside
  rw [List.mem_append, not_or] at outside
  rw [back name outside.2, front name outside.1]

theorem insert (row : Row) (name : String) (value : Value) : SameBut [name] row (row.insert name value) := by
  intro other outside
  rw [Row.insert_column, if_neg fun same => outside (List.mem_singleton.mpr same)]

theorem get {columns : List String} {source target : Row} (same : SameBut columns source target)
    {name : String} (outside : name ∉ columns) : target.get name = source.get name :=
  congrArg (Option.getD · Value.none) (same name outside)

end SameBut

/-- A document is as it was, or was written again with what the relation allows. -/
def DocumentKept (codec : Codec) (document : Document.Part) (source target : Row) : Prop :=
  target.column document.1 = source.column document.1 ∨
    ∃ text before after, source.get document.1 = .str text ∧ codec.loads text = some before ∧
      document.2 before after ∧ target.column document.1 = some (.str (codec.dumps after))

inductive WaitKept : Option WaitState → Option WaitState → Prop
  | absent : WaitKept none none
  | child (before after : Label) : WaitKept (some (.child before)) (some (.child after))
  | message (filters : Dict) : WaitKept (some (.message filters)) (some (.message filters))
  | human (requestIds : RequestIds) :
      WaitKept (some (.human requestIds)) (some (.human requestIds))
  | tool (operationId : Label) : WaitKept (some (.tool operationId)) (some (.tool operationId))
  | paused {before after : Option Label} (given : after.isSome = before.isSome) :
      WaitKept (some (.paused before)) (some (.paused after))
  | hostResume (before after : Label) :
      WaitKept (some (.hostResume before)) (some (.hostResume after))
  | receipt (receipt : StaleExecution) :
      WaitKept (some (.staleExecution receipt)) (some (.paused none))

inductive OutcomeKept : Option ProcessOutcome → Option ProcessOutcome → Prop
  | absent : OutcomeKept none none
  | exited {before after : Option Label} (given : after.isSome = before.isSome) :
      OutcomeKept (some (.exited before)) (some (.exited after))
  | failed {before after : Option Label} (code : Option Label)
      (given : after.isSome = before.isSome) :
      OutcomeKept (some (.failed before code)) (some (.failed after code))
  | killed {before after : Option Label} (code : Option Label)
      (given : after.isSome = before.isSome) :
      OutcomeKept (some (.killed before code)) (some (.killed after code))

def stateColumns : List String := ["wait_state_json", "outcome_json", "status_message"]

/-- The state of a process and the text that shows it. -/
def StateKept (codec : Codec) (source target : Row) : Prop :=
  (∀ name ∈ stateColumns, target.column name = source.column name) ∨
    ∃ waitState waitState' outcome outcome',
      waitStateFromJson codec (source.get "wait_state_json") = .ok waitState ∧
      outcomeFromJson codec (source.get "outcome_json") = .ok outcome ∧
      WaitKept waitState waitState' ∧ OutcomeKept outcome outcome' ∧
      target.get "wait_state_json" = .str (codec.dumps (WaitState.toMapping waitState')) ∧
      target.get "outcome_json" = .str (codec.dumps (Outcome.toMapping outcome')) ∧
      target.get "status_message" = legacyStatusMessage codec waitState' outcome'
        (if SnapshotRemapper.isStale waitState then .none else source.get "status_message")

namespace SnapshotTable
open Document SnapshotRemapper

/-- The columns that hold identities: plain ones, documents and texts with identities in them. -/
def identityColumns : SnapshotTable → List String
  | .processes => ["pid", "parent_pid", "goal_oid", "capabilities_json", "tool_table_json",
      "model_tool_table_json", "loaded_skills_json", "memory_view_json", "wait_state_json",
      "outcome_json", "status_message"]
  | .objectNamespaces => ["namespace", "parent_namespace", "created_by"]
  | .objects => ["oid", "namespace", "created_by", "owner_id", "provenance_json"]
  | .objectLinks => ["src_oid", "dst_oid", "created_by"]
  | .capabilities => ["cap_id", "subject", "resource", "issuer_cap_id", "parent_cap_id"]
  | .processResourceReservations => ["parent_pid", "child_pid"]
  | .processMessages => ["sender", "recipient_pid", "metadata_json"]
  | .llmPendingActions => ["pid", "child_pid"]
  | .skills => []
  | .tools => ["tool_id"]
  | .toolCandidates => ["candidate_id", "pid", "requested_capabilities_json", "registered_tool_id"]

/-- The documents with identities in them, with what else stays of each. -/
def documents : SnapshotTable → List Part
  | .processes => [("capabilities_json", Itemwise anything),
      ("tool_table_json", Entrywise anything), ("model_tool_table_json", Entrywise anything),
      ("loaded_skills_json", Entrywise (Outside skillParts)),
      ("memory_view_json", Outside viewParts)]
  | .objects => [("provenance_json", Outside [("parent_oids", anything)])]
  | .processMessages => [("metadata_json", Outside [("label_carrier_oid", anything)])]
  | .toolCandidates =>
      [("requested_capabilities_json", Itemwise (Outside [("resource", ResourceKept)]))]
  | _ => []

end SnapshotTable

/-- A row changes in its identities only. -/
structure RowKept (codec : Codec) (table : SnapshotTable) (source target : Row) : Prop where
  plain : ∀ name ∈ table.columns, name ∉ table.identityColumns →
    target.column name = source.column name
  documents : ∀ document ∈ table.documents, DocumentKept codec document source target
  state : table = .processes → StateKept codec source target
  owner : table = .objects → SnapshotRemapper.ownedByProcess (source.get "owner_kind") = false →
    target.column "owner_id" = source.column "owner_id"
  resource : table = .capabilities →
    SnapshotRemapper.ResourceKept (source.get "resource") (target.get "resource")

/-- The subject of a message is one of the process identities that are mapped to others. -/
def SubjectMoved (codec : Codec) (pids : IdentityMap) (row : Row) : Prop :=
  (row.get "subject").isNone = false ∧
    ∃ target, pids.get? (codec.str (row.get "subject")) = some target ∧
      row.get "subject" ≠ .str target

namespace SnapshotRemapper
open Document

/-! ## Plain columns -/

theorem remapField_column (codec : Codec) (identities : SnapshotIdentityMap) (row : Row)
    (field : String × IdentityKind) (name : String) :
    (remapField codec identities row field).column name =
      if name = field.1 ∧ (row.get field.1).isNone = false then
        some (mapped codec (identities field.2) (row.get field.1))
      else row.column name := by
  simp only [remapField, mapped]
  cases absent : (row.get field.1).isNone with
  | true => simp
  | false =>
      cases target : (identities field.2).get? (codec.str (row.get field.1)) with
      | some target => simp [Row.insert_column]
      | none =>
          simp only [Bool.false_eq_true, if_false, and_true]
          split
          · rename_i same
            rw [same, Row.column_of_get absent]
          · rfl

theorem remapField_other {codec : Codec} {identities : SnapshotIdentityMap} {row : Row}
    {field : String × IdentityKind} {name : String} (different : name ≠ field.1) :
    (remapField codec identities row field).column name = row.column name := by
  rw [remapField_column, if_neg fun both => different both.1]

theorem foldFields_other {codec : Codec} {identities : SnapshotIdentityMap} {name : String}
    {fields : List (String × IdentityKind)} (outside : name ∉ fields.map Prod.fst) (row : Row) :
    (fields.foldl (remapField codec identities) row).column name = row.column name := by
  induction fields generalizing row with
  | nil => rfl
  | cons field fields ih =>
      rw [List.map_cons, List.mem_cons, not_or] at outside
      rw [List.foldl_cons, ih outside.2, remapField_other outside.1]

theorem foldFields_column {codec : Codec} {identities : SnapshotIdentityMap} {name : String}
    {kind : IdentityKind} {fields : List (String × IdentityKind)}
    (distinct : (fields.map Prod.fst).Nodup) (inside : (name, kind) ∈ fields) (row : Row) :
    (fields.foldl (remapField codec identities) row).column name =
      if (row.get name).isNone = false then some (mapped codec (identities kind) (row.get name))
      else row.column name := by
  induction fields generalizing row with
  | nil => exact absurd inside List.not_mem_nil
  | cons field fields ih =>
      rw [List.map_cons] at distinct
      obtain ⟨fresh, distinct⟩ := List.nodup_cons.mp distinct
      rw [List.foldl_cons]
      rcases List.mem_cons.mp inside with here | later
      · subst here
        rw [foldFields_other fresh, remapField_column]
        simp only [true_and]
      · have different : name ≠ field.1 := fun same =>
          fresh (same ▸ List.mem_map_of_mem later)
        have same : (remapField codec identities row field).get name = row.get name :=
          congrArg (Option.getD · Value.none) (remapField_other different)
        rw [ih distinct later, same, remapField_other different]

theorem fieldMaps_distinct : (fieldMaps.map Prod.fst).Nodup := by decide +kernel

theorem remapFields_other {name : String} (outside : name ∉ fieldMaps.map Prod.fst)
    (codec : Codec) (identities : SnapshotIdentityMap) (row : Row) :
    (remapFields codec identities row).column name = row.column name :=
  foldFields_other outside row

theorem remapFields_column {name : String} {kind : IdentityKind} (inside : (name, kind) ∈ fieldMaps)
    (codec : Codec) (identities : SnapshotIdentityMap) (row : Row) :
    (remapFields codec identities row).column name =
      if (row.get name).isNone = false then some (mapped codec (identities kind) (row.get name))
      else row.column name :=
  foldFields_column fieldMaps_distinct inside row

/-! ## Process states -/

theorem remapOptional_given {selected : IdentityMap} {field : String} {label label' : Option Label}
    (done : remapOptional selected field label = .ok label') : label'.isSome = label.isSome := by
  cases label with
  | none =>
      cases done
      rfl
  | some label =>
      obtain ⟨_, _, rfl⟩ := map_eq_ok.mp done
      rfl

theorem remapWaitState_kept {pids objects : IdentityMap} {waitState waitState' : Option WaitState}
    (done : remapWaitState pids objects waitState = .ok waitState') :
    WaitKept waitState waitState' := by
  cases waitState with
  | none =>
      cases done
      exact .absent
  | some value =>
      cases value with
      | child childPid =>
          obtain ⟨pid, _, rfl⟩ := map_eq_ok.mp done
          exact .child childPid pid
      | paused reasonOid =>
          obtain ⟨oid, remapped, rfl⟩ := map_eq_ok.mp done
          exact .paused (remapOptional_given remapped)
      | hostResume reasonOid =>
          obtain ⟨oid, _, rfl⟩ := map_eq_ok.mp done
          exact .hostResume reasonOid oid
      | staleExecution receipt =>
          cases done
          exact .receipt receipt
      | message filters =>
          cases done
          exact .message filters
      | human requestIds =>
          cases done
          exact .human requestIds
      | tool operationId =>
          cases done
          exact .tool operationId

theorem remapOutcome_kept {objects : IdentityMap} {outcome outcome' : Option ProcessOutcome}
    (done : remapOutcome objects outcome = .ok outcome') : OutcomeKept outcome outcome' := by
  cases outcome with
  | none =>
      cases done
      exact .absent
  | some value =>
      cases value with
      | exited resultOid =>
          obtain ⟨oid, remapped, rfl⟩ := map_eq_ok.mp done
          exact .exited (remapOptional_given remapped)
      | failed resultOid code =>
          obtain ⟨oid, remapped, rfl⟩ := map_eq_ok.mp done
          exact .failed code (remapOptional_given remapped)
      | killed reasonOid code =>
          obtain ⟨oid, remapped, rfl⟩ := map_eq_ok.mp done
          exact .killed code (remapOptional_given remapped)

theorem remapState_kept {codec : Codec} {identities : SnapshotIdentityMap} {row row' : Row}
    (done : remapState codec identities row = .ok row') :
    SameBut stateColumns row row' ∧ StateKept codec row row' := by
  obtain ⟨waitState, decoded, done⟩ := bind_eq_ok.mp done
  obtain ⟨waitState', remapped, done⟩ := bind_eq_ok.mp done
  obtain ⟨outcome, decodedOutcome, done⟩ := bind_eq_ok.mp done
  obtain ⟨outcome', remappedOutcome, done⟩ := bind_eq_ok.mp done
  cases done
  constructor
  · intro name outside
    simp only [stateColumns, List.mem_cons, List.not_mem_nil, or_false, not_or] at outside
    simp only [Row.insert_column, outside, if_false]
  · refine .inr ⟨waitState, waitState', outcome, outcome', decoded, decodedOutcome,
      remapWaitState_kept remapped, remapOutcome_kept remappedOutcome, ?_, ?_, ?_⟩
    · simp [Row.get, Row.insert_column]
    · simp [Row.get, Row.insert_column]
    · simp [Row.get, Row.insert_column]

theorem remapRow_kept {codec : Codec} {identities : SnapshotIdentityMap} {row row' : Row}
    (done : remapRow codec identities row = .ok row') :
    SameBut stateColumns (remapFields codec identities row) row' ∧
      StateKept codec (remapFields codec identities row) row' := by
  simp only [remapRow] at done
  split at done
  · exact remapState_kept done
  · rw [← Except.ok.inj done]
    exact ⟨SameBut.refl _ _, .inl fun _ _ => rfl⟩

/-! ## Documents of a row -/

/-- The rewriting of one document of a row. -/
structure DocumentStep (codec : Codec) (document : Part) (source target : Row) : Prop where
  kept : DocumentKept codec document source target
  sameBut : SameBut [document.1] source target

theorem DocumentStep.refl (codec : Codec) (document : Part) (row : Row) :
    DocumentStep codec document row row := ⟨.inl rfl, SameBut.refl _ row⟩

inductive DocumentSteps (codec : Codec) : List Part → Row → Row → Prop
  | nil (row : Row) : DocumentSteps codec [] row row
  | cons {document : Part} {documents : List Part} {first second third : Row}
      (step : DocumentStep codec document first second)
      (rest : DocumentSteps codec documents second third) :
      DocumentSteps codec (document :: documents) first third

theorem DocumentKept.of_same {codec : Codec} {document : Part} {source target source' target' : Row}
    (kept : DocumentKept codec document source target)
    (front : source'.column document.1 = source.column document.1)
    (back : target'.column document.1 = target.column document.1) :
    DocumentKept codec document source' target' := by
  rcases kept with same | ⟨text, before, after, read, decoded, related, written⟩
  · exact .inl (by rw [back, same, front])
  · refine .inr ⟨text, before, after, ?_, decoded, related, by rw [back, written]⟩
    rw [Row.get, front]
    exact read

theorem DocumentSteps.sameBut {codec : Codec} {documents : List Part} {source target : Row}
    (steps : DocumentSteps codec documents source target) :
    SameBut (documents.map Prod.fst) source target := by
  induction steps with
  | nil row => exact SameBut.refl [] row
  | cons step rest ih => exact step.sameBut.trans ih

/-- Each document of the row is rewritten by its own step and untouched by the others. -/
theorem DocumentSteps.kept {codec : Codec} {documents : List Part} {source target : Row}
    (steps : DocumentSteps codec documents source target)
    (distinct : (documents.map Prod.fst).Nodup) :
    ∀ document ∈ documents, DocumentKept codec document source target := by
  induction steps with
  | nil row => exact fun _ inside => absurd inside List.not_mem_nil
  | @cons document documents first second third step rest ih =>
      rw [List.map_cons] at distinct
      obtain ⟨fresh, distinct⟩ := List.nodup_cons.mp distinct
      intro other inside
      rcases List.mem_cons.mp inside with rfl | later
      · exact DocumentKept.of_same step.kept rfl (rest.sameBut _ fresh)
      · have different : other.1 ≠ document.1 := fun same =>
          fresh (same ▸ List.mem_map_of_mem later)
        have front := step.sameBut other.1 fun same => different (List.mem_singleton.mp same)
        exact DocumentKept.of_same (ih distinct other later) front.symm rfl

theorem jsonContainer_ok {codec : Codec} {label : String} {shape : DocumentType} {raw : Value}
    {content : shape.Content} (done : jsonContainer codec label shape raw = .ok content) :
    ∃ text, raw = .str text ∧ codec.loads text = some (shape.value content) := by
  cases raw with
  | str text =>
      simp only [jsonContainer] at done
      cases decoded : codec.loads text with
      | none =>
          rw [decoded] at done
          cases done
      | some document =>
          rw [decoded] at done
          refine ⟨text, rfl, ?_⟩
          cases shape with
          | list =>
              cases document with
              | list items =>
                  cases done
                  exact decoded
              | none | bool _ | int _ | float _ | str _ | dict _ => cases done
          | object =>
              cases document with
              | dict entries =>
                  cases done
                  exact decoded
              | none | bool _ | int _ | float _ | str _ | list _ => cases done
  | none | bool _ | int _ | float _ | list _ | dict _ => cases done

theorem rewriteDocument_step {codec : Codec} {document : Part} {label : String}
    {shape : DocumentType} {rewrite : shape.Content → Except ValidationError shape.Content}
    {row row' : Row}
    (keeps : ∀ {before after}, rewrite before = .ok after →
      document.2 (shape.value before) (shape.value after))
    (done : rewriteDocument codec document.1 label shape rewrite row = .ok row') :
    DocumentStep codec document row row' := by
  unfold rewriteDocument at done
  split at done
  · cases done
    exact DocumentStep.refl codec document row
  · obtain ⟨before, read, done⟩ := bind_eq_ok.mp done
    obtain ⟨after, rewritten, done⟩ := bind_eq_ok.mp done
    obtain ⟨text, raw, decoded⟩ := jsonContainer_ok read
    split at done
    · cases done
      exact DocumentStep.refl codec document row
    · cases done
      refine ⟨.inr ⟨text, _, _, raw, decoded, keeps rewritten, ?_⟩, SameBut.insert row _ _⟩
      rw [Row.insert_column, if_pos rfl]

/-- A step that is left out where its identities are not mapped. -/
theorem guarded_step {codec : Codec} {document : Part} {guard : Prop} [Decidable guard]
    {step : Except ValidationError Row} {row row' : Row}
    (does : step = .ok row' → DocumentStep codec document row row')
    (done : (if guard then .ok row else step) = .ok row') :
    DocumentStep codec document row row' := by
  split at done
  · cases done
    exact DocumentStep.refl codec document row
  · exact does done

theorem remapProcessCarriers_steps {codec : Codec} {identities : SnapshotIdentityMap}
    {row row' : Row} (done : remapProcessCarriers codec identities row = .ok row') :
    DocumentSteps codec SnapshotTable.processes.documents row row' := by
  obtain ⟨row₁, index, done⟩ := bind_eq_ok.mp done
  obtain ⟨row₃, tables, done⟩ := bind_eq_ok.mp done
  obtain ⟨row₄, skills, view⟩ := bind_eq_ok.mp done
  have tableSteps : ∃ row₂,
      DocumentStep codec ("tool_table_json", Entrywise anything) row₁ row₂ ∧
        DocumentStep codec ("model_tool_table_json", Entrywise anything) row₂ row₃ := by
    unfold remapProcessToolTables at tables
    split at tables
    · cases tables
      exact ⟨row₁, DocumentStep.refl _ _ row₁, DocumentStep.refl _ _ row₁⟩
    · obtain ⟨row₂, first, second⟩ := bind_eq_ok.mp tables
      exact ⟨row₂, rewriteDocument_step rewriteStringMapping_kept first,
        rewriteDocument_step rewriteStringMapping_kept second⟩
  obtain ⟨row₂, table, modelTable⟩ := tableSteps
  have indexStep : DocumentStep codec ("capabilities_json", Itemwise anything) row row₁ :=
    guarded_step (rewriteDocument_step rewriteIds_kept) index
  have skillStep : DocumentStep codec ("loaded_skills_json", Entrywise (Outside skillParts))
      row₃ row₄ :=
    guarded_step (rewriteDocument_step rewriteLoadedSkills_kept) skills
  have viewStep : DocumentStep codec ("memory_view_json", Outside viewParts) row₄ row' :=
    guarded_step (rewriteDocument_step rewriteMemoryView_kept) view
  exact .cons indexStep (.cons table (.cons modelTable (.cons skillStep (.cons viewStep (.nil row')))))

theorem remapOwner_kept {pidMap : IdentityMap} {row row' : Row}
    (done : remapOwner pidMap row = .ok row') :
    SameBut ["owner_id"] row row' ∧
      (ownedByProcess (row.get "owner_kind") = false →
        row'.column "owner_id" = row.column "owner_id") := by
  unfold remapOwner at done
  split at done
  · cases done
    exact ⟨SameBut.refl _ row, fun _ => rfl⟩
  split at done
  · cases done
  split at done
  · rename_i owned
    cases owner : row.get "owner_id" with
    | str ownerId =>
        rw [owner] at done
        cases done
        exact ⟨SameBut.insert row _ _, fun other => absurd owned (by rw [other]; decide)⟩
    | none | bool _ | int _ | float _ | list _ | dict _ =>
        rw [owner] at done
        cases done
        exact ⟨SameBut.refl _ row, fun _ => rfl⟩
  · cases done
    exact ⟨SameBut.refl _ row, fun _ => rfl⟩

theorem remapMessageCarriers_step {codec : Codec} {objectMap : IdentityMap} {row row' : Row}
    (done : remapMessageCarriers codec objectMap row = .ok row') :
    DocumentStep codec ("metadata_json", Outside [("label_carrier_oid", anything)]) row row' := by
  refine guarded_step (fun done => ?_) done
  obtain ⟨metadata, read, done⟩ := bind_eq_ok.mp done
  obtain ⟨text, raw, decoded⟩ := jsonContainer_ok read
  cases carrier : Dict.get metadata "label_carrier_oid" with
  | str carrierOid =>
      rw [carrier] at done
      simp only [] at done
      cases mapping : objectMap.get? carrierOid with
      | none =>
          rw [mapping] at done
          cases done
          exact DocumentStep.refl codec _ row
      | some target =>
          rw [mapping] at done
          cases done
          have part : ("label_carrier_oid", anything) ∈ [(("label_carrier_oid", anything) : Part)] :=
            List.mem_cons_self
          have outside : OutsideEntries [("label_carrier_oid", anything)] metadata
              (setEntry metadata "label_carrier_oid" (.str target)) :=
            (OutsideEntries.refl _ metadata).setEntry part trivial
          refine ⟨.inr ⟨text, _, _, raw, decoded, ⟨metadata, _, rfl, rfl, outside⟩, ?_⟩,
            SameBut.insert row _ _⟩
          rw [Row.insert_column, if_pos rfl]
  | none | bool _ | int _ | float _ | list _ | dict _ =>
      rw [carrier] at done
      cases done
      exact DocumentStep.refl codec _ row

theorem rewriteAllRequested_kept {identities : SnapshotIdentityMap} {items items' : List Value}
    {start : Nat} (objects : ∀ item ∈ items, isObject item = true)
    (rewritten : List.Forall₂ (fun item item' => rewriteRequested identities item = .ok item')
      (items.zipIdx start) items') :
    List.Forall₂ (Outside [("resource", ResourceKept)]) items items' := by
  induction items generalizing start items' with
  | nil =>
      rw [List.zipIdx_nil, List.forall₂_nil_left_iff] at rewritten
      rw [rewritten]
      exact .nil
  | cons item items ih =>
      rw [List.zipIdx_cons, List.forall₂_cons_left_iff] at rewritten
      obtain ⟨item', rest, head, tail, rfl⟩ := rewritten
      have shape := objects item List.mem_cons_self
      exact .cons (rewriteRequested_kept shape head)
        (ih (fun other inside => objects other (List.mem_cons_of_mem _ inside)) tail)

theorem remapCandidateCarriers_step {codec : Codec} {identities : SnapshotIdentityMap}
    {row row' : Row} (done : remapCandidateCarriers codec identities row = .ok row') :
    DocumentStep codec
      ("requested_capabilities_json", Itemwise (Outside [("resource", ResourceKept)])) row row' := by
  refine rewriteDocument_step (fun {before after} rewritten => ?_) done
  obtain ⟨_, shapes, rewritten⟩ := bind_eq_ok.mp rewritten
  have objects := List.all_eq_true.mp (ensure_ok.mp shapes)
  exact ⟨before, after, rfl, rfl, rewriteAllRequested_kept objects (mapM_eq_ok.mp rewritten)⟩

/-! ## Rows -/

def nestedColumns : SnapshotTable → List String
  | .objects => ["owner_id", "provenance_json"]
  | .capabilities => ["resource"]
  | table => table.documents.map Prod.fst

/-- The rewriting that depends on the table. -/
structure NestedKept (codec : Codec) (table : SnapshotTable) (source target : Row) : Prop where
  sameBut : SameBut (nestedColumns table) source target
  documents : ∀ document ∈ table.documents, DocumentKept codec document source target
  owner : table = .objects → ownedByProcess (source.get "owner_kind") = false →
    target.column "owner_id" = source.column "owner_id"
  resource : table = .capabilities → ResourceKept (source.get "resource") (target.get "resource")

theorem DocumentStep.single {codec : Codec} {document : Part} {source target : Row}
    (step : DocumentStep codec document source target) :
    ∀ other ∈ [document], DocumentKept codec other source target := by
  intro other inside
  rw [List.mem_singleton.mp inside]
  exact step.kept

theorem remapObjectCarriers_kept {codec : Codec} {identities : SnapshotIdentityMap} {row row' : Row}
    (done : remapObjectCarriers codec identities row = .ok row') :
    NestedKept codec .objects row row' := by
  obtain ⟨owned, owner, provenance⟩ := bind_eq_ok.mp done
  obtain ⟨ownerSame, ownerKept⟩ := remapOwner_kept owner
  have step : DocumentStep codec ("provenance_json", Outside [("parent_oids", anything)]) owned row' :=
    guarded_step (rewriteDocument_step rewriteProvenance_kept) provenance
  refine ⟨ownerSame.trans step.sameBut, ?_, ?_, nofun⟩
  · intro document inside
    rw [List.mem_singleton.mp inside]
    exact DocumentKept.of_same step.kept (ownerSame _ (by decide)).symm rfl
  · intro _ other
    rw [step.sameBut _ (by decide), ownerKept other]

theorem remapCapabilityResource_kept {codec : Codec} {identities : SnapshotIdentityMap}
    {row row' : Row} (done : remapCapabilityResource identities row = .ok row') :
    NestedKept codec .capabilities row row' := by
  obtain ⟨resource, expected, rfl⟩ := map_eq_ok.mp done
  refine ⟨SameBut.insert row _ _, fun _ inside => absurd inside List.not_mem_nil, nofun, ?_⟩
  intro _
  have written : Row.get (row.insert "resource" (.str resource)) "resource" = .str resource := by
    simp [Row.get, Row.insert_column]
  rw [written]
  exact expectedResource_kept expected

theorem remapNestedRow_kept {codec : Codec} {identities : SnapshotIdentityMap}
    {table : SnapshotTable} {row row' : Row}
    (done : remapNestedRow codec identities table row = .ok row') :
    NestedKept codec table row row' := by
  cases table with
  | processes =>
      have steps := remapProcessCarriers_steps done
      exact ⟨steps.sameBut, steps.kept (by decide), nofun, nofun⟩
  | objects => exact remapObjectCarriers_kept done
  | capabilities => exact remapCapabilityResource_kept done
  | processMessages =>
      have step := remapMessageCarriers_step done
      exact ⟨step.sameBut, step.single, nofun, nofun⟩
  | toolCandidates =>
      have step := remapCandidateCarriers_step done
      exact ⟨step.sameBut, step.single, nofun, nofun⟩
  | objectNamespaces | objectLinks | processResourceReservations | llmPendingActions | skills
  | tools =>
      cases done
      exact ⟨SameBut.refl _ row, fun _ inside => absurd inside List.not_mem_nil, nofun, nofun⟩

theorem nested_identity (table : SnapshotTable) :
    ∀ name ∈ nestedColumns table, name ∈ table.identityColumns := by
  cases table <;> decide +kernel

theorem state_identity (table : SnapshotTable) :
    ∀ name ∈ table.columns, name ∉ table.identityColumns → name ∉ stateColumns := by
  cases table <;> decide +kernel

/-- The subject of a message is the one column that is mapped and holds no identity. -/
theorem mapped_identity (table : SnapshotTable) :
    ∀ name ∈ table.columns, name ∉ table.identityColumns → name ∈ fieldMaps.map Prod.fst →
      table = .processMessages ∧ name = "subject" := by
  cases table <;> decide +kernel

theorem documents_unmapped (table : SnapshotTable) :
    ∀ name ∈ table.documents.map Prod.fst, name ∉ fieldMaps.map Prod.fst ∧ name ∉ stateColumns := by
  cases table <;> decide +kernel

theorem subject_column (codec : Codec) (identities : SnapshotIdentityMap) (row : Row) :
    (remapFields codec identities row).column "subject" = row.column "subject" ↔
      ¬ SubjectMoved codec (identities .pids) row := by
  have inside : ("subject", IdentityKind.pids) ∈ fieldMaps := by decide +kernel
  rw [remapFields_column inside]
  cases absent : (row.get "subject").isNone with
  | true => simp [SubjectMoved, absent]
  | false =>
      rw [if_pos rfl, Row.column_of_get absent]
      simp only [SubjectMoved, absent, true_and, mapped]
      cases target : (identities .pids).get? (codec.str (row.get "subject")) with
      | none => simp
      | some target => simp [eq_comm]

theorem StateKept.of_same {codec : Codec} {source target source' target' : Row}
    (kept : StateKept codec source target)
    (front : ∀ name ∈ stateColumns, source'.column name = source.column name)
    (back : ∀ name ∈ stateColumns, target'.column name = target.column name) :
    StateKept codec source' target' := by
  have read {name : String} (inside : name ∈ stateColumns) : source'.get name = source.get name :=
    congrArg (Option.getD · Value.none) (front name inside)
  have shown {name : String} (inside : name ∈ stateColumns) : target'.get name = target.get name :=
    congrArg (Option.getD · Value.none) (back name inside)
  have wait : "wait_state_json" ∈ stateColumns := by decide
  have ending : "outcome_json" ∈ stateColumns := by decide
  have status : "status_message" ∈ stateColumns := by decide
  rcases kept with same | states
  · exact .inl fun name inside => by rw [back name inside, same name inside, front name inside]
  · refine .inr ?_
    rw [read wait, read ending, read status, shown wait, shown ending, shown status]
    exact states

/-- Before the rewriting that depends on the table, and after it. -/
theorem remapTableRow_ok {codec : Codec} {identities : SnapshotIdentityMap} {table : SnapshotTable}
    {row row' : Row} (done : remapTableRow codec identities table row = .ok row') :
    ∃ between, SameBut stateColumns (remapFields codec identities row) between ∧
      StateKept codec (remapFields codec identities row) between ∧
      NestedKept codec table between row' := by
  obtain ⟨between, plain, nested⟩ := bind_eq_ok.mp done
  obtain ⟨same, state⟩ := remapRow_kept plain
  exact ⟨between, same, state, remapNestedRow_kept nested⟩

theorem remapTableRow_subject {codec : Codec} {identities : SnapshotIdentityMap} {row row' : Row}
    (done : remapTableRow codec identities .processMessages row = .ok row') :
    row'.column "subject" = (remapFields codec identities row).column "subject" := by
  obtain ⟨between, same, _, nested⟩ := remapTableRow_ok done
  rw [nested.sameBut _ (by decide), same _ (by decide)]

theorem remapTableRow_kept {codec : Codec} {identities : SnapshotIdentityMap} {table : SnapshotTable}
    {row row' : Row} (done : remapTableRow codec identities table row = .ok row')
    (unmoved : table = .processMessages → ¬ SubjectMoved codec (identities .pids) row) :
    RowKept codec table row row' := by
  obtain ⟨between, same, state, nested⟩ := remapTableRow_ok done
  have fields {name : String} (outside : name ∉ fieldMaps.map Prod.fst) :
      (remapFields codec identities row).column name = row.column name :=
    remapFields_other outside codec identities row
  have before {name : String} (outside : name ∉ fieldMaps.map Prod.fst)
      (stateless : name ∉ stateColumns) : between.column name = row.column name := by
    rw [same name stateless, fields outside]
  constructor
  · intro name inside plain
    rw [nested.sameBut name fun nested => plain (nested_identity table name nested),
      same name (state_identity table name inside plain)]
    by_cases mapped : name ∈ fieldMaps.map Prod.fst
    · obtain ⟨messages, rfl⟩ := mapped_identity table name inside plain mapped
      exact (subject_column codec identities row).mpr (unmoved messages)
    · exact fields mapped
  · intro document inside
    obtain ⟨outside, stateless⟩ :=
      documents_unmapped table document.1 (List.mem_map_of_mem inside)
    exact DocumentKept.of_same (nested.documents document inside) (before outside stateless).symm rfl
  · intro processes
    subst processes
    apply StateKept.of_same state
    · intro name inside
      exact (fields ((by decide +kernel : ∀ name ∈ stateColumns, name ∉ fieldMaps.map Prod.fst)
        name inside)).symm
    · intro name inside
      exact nested.sameBut name
        ((by decide : ∀ name ∈ stateColumns, name ∉ nestedColumns .processes) name inside)
  · intro objects other
    have kind : between.get "owner_kind" = row.get "owner_kind" :=
      congrArg (Option.getD · Value.none) (before (by decide +kernel) (by decide))
    rw [nested.owner objects (by rw [kind, other]), before (by decide +kernel) (by decide)]
  · intro capabilities
    have read : between.get "resource" = row.get "resource" :=
      congrArg (Option.getD · Value.none) (before (by decide +kernel) (by decide))
    rw [← read]
    exact nested.resource capabilities

end SnapshotRemapper

end AgentLibOS.Snapshots
