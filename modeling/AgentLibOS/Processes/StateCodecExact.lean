import AgentLibOS.Processes.StateCodec

namespace AgentLibOS.Processes.StateCodec
open Library Library.Json

section
variable {F : WrittenFloats}

/-! ## Reading fields -/

/-- A value without the whitespace around its texts. -/
def trimText : Json F → Json F
  | .leaf (.str value) => text (stripText value)
  | value => value

def trimValue : Json F → Json F
  | .list items => .list (items.map trimText)
  | value => trimText value

/-- A reader and a writer of a field: what is written is read, and only that up to whitespace. -/
structure Reads {α : Type} (read : Json F → Except StateError α) (write : α → Json F) :
    Prop where
  back : ∀ a, read (write a) = .ok a
  only : ∀ {value a}, read value = .ok a → trimValue value = write a

theorem nonEmptyString_ok {field : String} {value : Json F} {identifier : Identifier} :
    nonEmptyString field value = .ok identifier ↔
      ∃ source, value = text source ∧ stripText source = identifier.text := by
  constructor
  · intro read
    unfold nonEmptyString at read
    split at read
    · split_ifs at read
      cases read
      exact ⟨_, rfl, rfl⟩
    · cases read
  · rintro ⟨source, rfl, stripped⟩
    obtain ⟨text', filled, stripped'⟩ := identifier
    subst stripped
    exact dif_pos filled

theorem nonEmptyString_reads (field : String) :
    Reads (F := F) (nonEmptyString field) fun identifier => text identifier.text where
  back identifier := nonEmptyString_ok.mpr ⟨_, rfl, identifier.stripped⟩
  only read := by
    obtain ⟨source, rfl, stripped⟩ := nonEmptyString_ok.mp read
    exact congrArg text stripped

theorem optionally_present {α : Type} (read : Json F → Except StateError α)
    {value : Json F} (present : value ≠ .leaf .null) :
    optionally read value = (read value).map some := by
  unfold optionally
  split
  · exact absurd rfl present
  · rfl

theorem Reads.optionally {α : Type} {read : Json F → Except StateError α}
    {write : α → Json F} (reads : Reads read write) (present : ∀ a, write a ≠ .leaf .null) :
    Reads (StateCodec.optionally read) fun value => value.elim (.leaf .null) write where
  back value := by
    cases value with
    | none => rfl
    | some a =>
        rw [Option.elim, optionally_present read (present a), reads.back a]
        rfl
  only {value a} done := by
    by_cases absent : value = .leaf .null
    · subst absent
      cases done
      rfl
    · rw [optionally_present read absent, Run.map_eq_ok] at done
      obtain ⟨inner, read, rfl⟩ := done
      exact reads.only read

theorem optionalString_reads (field : String) :
    Reads (F := F) (optionalString field) optionalText :=
  (nonEmptyString_reads field).optionally fun _ same => nomatch same

theorem sha256_reads (field : String) :
    Reads (F := F) (sha256 field) fun digest => text digest.identifier.text where
  back digest := by
    rw [sha256, (nonEmptyString_reads field).back]
    exact dif_pos digest.canonical
  only {value digest} done := by
    obtain ⟨identifier, read, checked⟩ := Run.bind_eq_ok.mp done
    split_ifs at checked
    cases checked
    exact (nonEmptyString_reads field).only read

theorem optionalSha256_reads (field : String) :
    Reads (F := F) (optionalSha256 field)
      fun digest => optionalText (digest.map (·.identifier)) := by
  have reads := (sha256_reads (F := F) field).optionally fun _ same => nomatch same
  have same : (fun digest : Option Sha256 => optionalText (F := F)
      (digest.map (·.identifier))) = fun digest => digest.elim (.leaf .null)
        fun digest => text digest.identifier.text := by
    funext digest
    cases digest <;> rfl
  rw [same]
  exact reads

theorem nonnegativeInteger_reads (field : String) :
    Reads (F := F) (nonnegativeInteger field) fun value => integer value where
  back value := by
    change (if (value : Int) < 0 then Except.error (.notNonnegative field)
      else .ok (value : Int).toNat) = _
    rw [if_neg (Int.not_lt.mpr (Int.natCast_nonneg value)), Int.toNat_natCast]
  only {value a} done := by
    unfold nonnegativeInteger at done
    split at done
    · split_ifs at done with negative
      cases done
      exact congrArg integer (Int.toNat_of_nonneg (Int.not_lt.mp negative)).symm
    · cases done

theorem positiveInteger_reads (field : String) :
    Reads (F := F) (positiveInteger field) fun value => integer value where
  back value := by
    rw [positiveInteger, (nonnegativeInteger_reads field).back]
    exact dif_pos value.property
  only {value a} done := by
    obtain ⟨selected, read, checked⟩ := Run.bind_eq_ok.mp done
    split_ifs at checked
    cases checked
    exact (nonnegativeInteger_reads field).only read

/-! ## Canonical mappings -/

theorem lookup_iff {entries : Entries F} (distinct : (entries.map Prod.fst).Nodup) {name : Text}
    {value : Json F} : entries.lookup name = some value ↔ (name, value) ∈ entries := by
  induction entries with
  | nil => simp
  | cons entry entries ih =>
      obtain ⟨key, first⟩ := entry
      rw [List.map_cons, List.nodup_cons] at distinct
      rw [List.lookup_cons, List.mem_cons, Prod.mk.injEq]
      by_cases same : name = key
      · subst same
        have later : (name, value) ∉ entries := fun inside =>
          distinct.1 (List.mem_map.mpr ⟨_, inside, rfl⟩)
        simp [later, eq_comm]
      · rw [beq_false_of_ne same, ih distinct.2]
        simp [same]

/-- The entries hold the rows, in some order. -/
structure Holds (entries rows : Entries F) : Prop where
  perm : entries.Perm rows
  distinct : (entries.map Prod.fst).Nodup

theorem Holds.item {entries rows : Entries F} (holds : Holds entries rows) {name : Text}
    {value : Json F} (row : (name, value) ∈ rows) : item entries name = .ok value := by
  have found := (lookup_iff holds.distinct).mpr (holds.perm.mem_iff.mpr row)
  rw [StateCodec.item, found]

theorem textAt_eq {entries : Entries F} {name value : Text} :
    textAt entries name = some value ↔ entries.lookup name = some (text value) := by
  rw [textAt, Option.bind_eq_some_iff]
  constructor
  · rintro ⟨found, here, read⟩
    split at read
    · cases read
      exact here
    · cases read
  · exact fun here => ⟨_, here, rfl⟩

theorem integerAt_eq {entries : Entries F} {name : Text} {value : Int} :
    integerAt entries name = some value ↔ entries.lookup name = some (integer value) := by
  rw [integerAt, Option.bind_eq_some_iff]
  constructor
  · rintro ⟨found, here, read⟩
    split at read
    · cases read
      exact here
    · cases read
  · exact fun here => ⟨_, here, rfl⟩

theorem canonicalMapping_ok {entries selected : Entries F} {kind : Text} {fields : List Text} :
    canonicalMapping entries kind fields = .ok selected ↔
      selected = entries ∧
        (∀ name, name ∈ entries.map Prod.fst ↔
          name ∈ codes "schema_version" :: codes "kind" :: fields) ∧
        entries.lookup (codes "schema_version") = some (integer processStateSchemaVersion) ∧
        entries.lookup (codes "kind") = some (text kind) := by
  rw [canonicalMapping]
  simp only [Run.bind_eq_ok, Run.ensure_ok, List.filter_eq_nil_iff, decide_eq_true_iff, not_not,
    textAt_eq, integerAt_eq, Except.ok.injEq]
  constructor
  · rintro ⟨-, ⟨missing, unknown⟩, -, version, -, named, rfl⟩
    exact ⟨rfl, fun name => ⟨unknown name, missing name⟩, version, named⟩
  · rintro ⟨rfl, keys, version, named⟩
    exact ⟨(), ⟨fun name => (keys name).mpr, fun name => (keys name).mp⟩, (), version, (), named, rfl⟩

theorem item_ok {selected : Entries F} {name : Text} {value : Json F} :
    item selected name = .ok value ↔ selected.lookup name = some value := by
  rw [item]
  cases selected.lookup name <;> simp

/-- The names of the fields that hold identifiers. -/
def identifierFields : List Text :=
  [codes "child_pid", codes "request_ids", codes "operation_id", codes "reason_oid", codes "pid",
    codes "recovered_by_owner_sha256", codes "prior_owner_sha256", codes "prior_lease_sha256",
    codes "result_oid", codes "code"]

def trimEntry (entry : Text × Json F) : Text × Json F :=
  if entry.1 ∈ identifierFields then (entry.1, trimValue entry.2) else entry

theorem trimEntry_name (entry : Text × Json F) : (trimEntry entry).1 = entry.1 := by
  rw [trimEntry]
  split_ifs <;> rfl

/-- A canonical mapping holds its version, its kind and the fields that are read from it. -/
theorem holds_of_canonical {entries selected fields : Entries F} {kind : Text}
    {names : List Text} (distinct : (entries.map Prod.fst).Nodup)
    (canonical : canonicalMapping entries kind names = .ok selected)
    (unique : (codes "schema_version" :: codes "kind" :: names).Nodup)
    (named : fields.map Prod.fst = names)
    (each : ∀ field ∈ fields, item selected field.1 = .ok field.2) :
    Holds entries (mappingEntries kind fields) := by
  subst named
  obtain ⟨kept, keys, version, named⟩ := canonicalMapping_ok.mp canonical
  rw [kept] at each
  refine ⟨?_, distinct⟩
  have rows : ∀ row ∈ mappingEntries kind fields, row ∈ entries := by
    intro row listed
    rcases List.mem_cons.mp listed with rfl | listed
    · exact (lookup_iff distinct).mp version
    · rcases List.mem_cons.mp listed with rfl | listed
      · exact (lookup_iff distinct).mp named
      · exact (lookup_iff distinct).mp (item_ok.mp (each row listed))
  have same : (mappingEntries kind fields).map Prod.fst =
      codes "schema_version" :: codes "kind" :: fields.map Prod.fst := rfl
  rw [← same] at unique keys
  refine (List.perm_ext_iff_of_nodup distinct.of_map unique.of_map).mpr fun row => ⟨?_, rows row⟩
  intro inside
  obtain ⟨row', listed, name⟩ := List.mem_map.mp ((keys row.1).mp (List.mem_map.mpr ⟨row, inside, rfl⟩))
  have agree : row' = row := List.inj_on_of_nodup_map distinct (rows row' listed) inside name
  exact agree ▸ listed

/-! ## Wait states -/

/-- A mapping of a kind and its fields, whatever their order. -/
theorem canonicalMapping_of_holds {entries fields : Entries F} {kind : Text}
    (holds : Holds entries (mappingEntries kind fields)) :
    textAt entries (codes "kind") = some kind ∧
      canonicalMapping entries kind (fields.map Prod.fst) = .ok entries := by
  have version : item entries (codes "schema_version") = .ok (integer processStateSchemaVersion) :=
    holds.item List.mem_cons_self
  have named : item entries (codes "kind") = .ok (text kind) :=
    holds.item (List.mem_cons_of_mem _ List.mem_cons_self)
  rw [item_ok] at version named
  refine ⟨textAt_eq.mpr named, canonicalMapping_ok.mpr ⟨rfl, fun name => ?_, version, named⟩⟩
  exact (holds.perm.map Prod.fst).mem_iff

/-- A mapping whose one field is read by `construct`. -/
theorem oneField_ok {α : Type} {entries : Entries F} {kind name : Text}
    {construct : Json F → Except StateError α} {result : α} :
    (do let selected ← canonicalMapping entries kind [name]
        (item selected name >>= construct).map some) = .ok (some result) ↔
      ∃ selected value, canonicalMapping entries kind [name] = .ok selected ∧
        item selected name = .ok value ∧ construct value = .ok result := by
  simp only [Run.bind_eq_ok, Run.map_eq_ok, Option.some.injEq, exists_eq_right]
  constructor
  · rintro ⟨selected, canonical, value, found, made⟩
    exact ⟨selected, value, canonical, found, made⟩
  · rintro ⟨selected, value, canonical, found, made⟩
    exact ⟨selected, canonical, value, found, made⟩

theorem messageProcessWait_ok {value : Json F} {wait : ProcessWaitState F} :
    messageProcessWait value = .ok wait ↔
      ∃ filters : MessageFilters F, value = .dict filters.entries ∧ wait = .message filters := by
  constructor
  · intro made
    unfold messageProcessWait at made
    split at made
    · obtain ⟨_, _, kept⟩ := andThen_ok.mp made
      split_ifs at kept
      cases kept
      exact ⟨_, rfl, rfl⟩
    · cases made
  · rintro ⟨filters, rfl, rfl⟩
    exact andThen_ok.mpr ⟨_, strictJsonValue_ok.mpr ⟨rfl, filters.finite⟩, dif_pos filters.distinct⟩

theorem humanMapping_ok {entries : Entries F} {wait : ProcessWaitState F} :
    (do let selected ← canonicalMapping entries (codes "human") [codes "request_ids"]
        match ← item selected (codes "request_ids") with
        | .list requestIds => (humanProcessWait requestIds).map some
        | _ => .error .requestIdsNotList) = .ok (some wait) ↔
      ∃ selected items, canonicalMapping entries (codes "human") [codes "request_ids"] =
        .ok selected ∧ item selected (codes "request_ids") = .ok (.list items) ∧
        humanProcessWait items = .ok wait := by
  simp only [Run.bind_eq_ok]
  constructor
  · rintro ⟨selected, canonical, value, found, made⟩
    split at made
    · obtain ⟨wait, made, same⟩ := Run.map_eq_ok.mp made
      cases same
      exact ⟨selected, _, canonical, found, made⟩
    · cases made
  · rintro ⟨selected, items, canonical, found, made⟩
    exact ⟨selected, canonical, _, found, Run.map_eq_ok.mpr ⟨wait, made, rfl⟩⟩

theorem humanProcessWait_ok {items : List (Json F)} {wait : ProcessWaitState F} :
    humanProcessWait items = .ok wait ↔ ∃ requestIds : RequestIds,
      items.mapM (nonEmptyString "request_ids[]") = .ok requestIds.ids ∧
        wait = .human requestIds := by
  rw [humanProcessWait, Run.bind_eq_ok]
  constructor
  · rintro ⟨ids, read, made⟩
    split_ifs at made with nonempty distinct
    cases made
    exact ⟨⟨ids, nonempty, distinct⟩, read, rfl⟩
  · rintro ⟨requestIds, read, rfl⟩
    refine ⟨requestIds.ids, read, ?_⟩
    rw [dif_pos requestIds.nonempty, dif_pos requestIds.distinct]

theorem readsWait {entries : Entries F} {wait : ProcessWaitState F}
    (holds : Holds entries (mappingEntries wait.kind wait.fields)) :
    processWaitStateFromMapping (.dict entries) = .ok (some wait) := by
  obtain ⟨kind, canonical⟩ := canonicalMapping_of_holds holds
  have found {name : Text} {value : Json F} (listed : (name, value) ∈ wait.fields) :
      item entries name = .ok value :=
    holds.item (List.mem_cons_of_mem _ (List.mem_cons_of_mem _ listed))
  rw [processWaitStateFromMapping, kind]
  cases wait with
  | child childPid =>
      exact oneField_ok.mpr ⟨entries, _, canonical, found List.mem_cons_self,
        Run.map_eq_ok.mpr ⟨childPid, (nonEmptyString_reads _).back childPid, rfl⟩⟩
  | message filters =>
      exact oneField_ok.mpr ⟨entries, _, canonical, found List.mem_cons_self,
        messageProcessWait_ok.mpr ⟨filters, rfl, rfl⟩⟩
  | human requestIds =>
      have read : (requestIds.ids.map fun id => text id.text).mapM
          (nonEmptyString (F := F) "request_ids[]") = .ok requestIds.ids := by
        rw [Run.mapM_eq_ok, List.forall₂_map_left_iff]
        exact List.forall₂_same.mpr fun id _ => (nonEmptyString_reads _).back id
      exact humanMapping_ok.mpr ⟨entries, _, canonical, found List.mem_cons_self,
        humanProcessWait_ok.mpr ⟨requestIds, read, rfl⟩⟩
  | tool operationId =>
      exact oneField_ok.mpr ⟨entries, _, canonical, found List.mem_cons_self,
        Run.map_eq_ok.mpr ⟨operationId, (nonEmptyString_reads _).back operationId, rfl⟩⟩
  | paused reasonOid =>
      exact oneField_ok.mpr ⟨entries, _, canonical, found List.mem_cons_self,
        Run.map_eq_ok.mpr ⟨reasonOid, (optionalString_reads _).back reasonOid, rfl⟩⟩
  | hostResume reasonOid =>
      exact oneField_ok.mpr ⟨entries, _, canonical, found List.mem_cons_self,
        Run.map_eq_ok.mpr ⟨reasonOid, (nonEmptyString_reads _).back reasonOid, rfl⟩⟩
  | staleExecution receipt =>
      have field {α : Type} {name : Text} {read : Json F → Except StateError α}
          {write : α → Json F} (reads : Reads read write) (a : α)
          (listed : (name, write a) ∈ (ProcessWaitState.staleExecution receipt).fields) :
          (item entries name >>= read) = .ok a :=
        Run.bind_eq_ok.mpr ⟨_, found listed, reads.back a⟩
      have pid := field (nonEmptyString_reads "pid") receipt.pid (.head _)
      have recoveredBy := field (sha256_reads "recovered_by_owner_sha256")
        receipt.recoveredByOwnerSha256 (.tail _ (.head _))
      have priorOwner := field (optionalSha256_reads "prior_owner_sha256")
        receipt.priorOwnerSha256 (.tail _ (.tail _ (.head _)))
      have priorLease := field (optionalSha256_reads "prior_lease_sha256")
        receipt.priorLeaseSha256 (.tail _ (.tail _ (.tail _ (.head _))))
      have priorGeneration := field (nonnegativeInteger_reads "prior_execution_generation")
        receipt.priorExecutionGeneration (.tail _ (.tail _ (.tail _ (.tail _ (.head _)))))
      have execution := field (positiveInteger_reads "recovered_execution_generation")
        receipt.recoveredExecutionGeneration
        (.tail _ (.tail _ (.tail _ (.tail _ (.tail _ (.head _))))))
      have state := field (positiveInteger_reads "recovered_state_generation")
        receipt.recoveredStateGeneration
        (.tail _ (.tail _ (.tail _ (.tail _ (.tail _ (.tail _ (.head _)))))))
      have made : staleExecutionProcessWait entries = .ok (.staleExecution receipt) :=
        Run.bind_eq_ok.mpr ⟨_, pid, Run.bind_eq_ok.mpr ⟨_, recoveredBy,
          Run.bind_eq_ok.mpr ⟨_, priorOwner, Run.bind_eq_ok.mpr ⟨_, priorLease,
            Run.bind_eq_ok.mpr ⟨_, priorGeneration, Run.bind_eq_ok.mpr ⟨_, execution,
              Run.bind_eq_ok.mpr ⟨_, state, rfl⟩⟩⟩⟩⟩⟩⟩
      exact Run.bind_eq_ok.mpr ⟨entries, canonical, Run.map_eq_ok.mpr ⟨_, made, rfl⟩⟩

/-- Entries of a kind whose fields are what is written for the value, up to whitespace. -/
def Written (entries : Entries F) (kind : Text) (fields : Entries F) : Prop :=
  ∃ rows, Holds entries (mappingEntries kind rows) ∧ rows.map trimEntry = fields

theorem oneField_writes {α β : Type} {entries : Entries F} {kind name : Text}
    {read : Json F → Except StateError α} {write : α → Json F} {make : α → β} {result : β}
    (distinct : (entries.map Prod.fst).Nodup) (reads : Reads read write)
    (known : name ∈ identifierFields)
    (unique : [codes "schema_version", codes "kind", name].Nodup)
    (done : (do let selected ← canonicalMapping entries kind [name]
                (item selected name >>= fun value => (read value).map make).map some) =
      .ok (some result)) :
    ∃ a, make a = result ∧ Written entries kind [(name, write a)] := by
  obtain ⟨selected, value, canonical, found, made⟩ := oneField_ok.mp done
  obtain ⟨a, read, same⟩ := Run.map_eq_ok.mp made
  refine ⟨a, same, [(name, value)], ?_, ?_⟩
  · have each : ∀ field ∈ [(name, value)], item selected field.1 = .ok field.2 := by simpa using found
    exact holds_of_canonical distinct canonical unique rfl each
  · rw [List.map_singleton, trimEntry, if_pos known, reads.only read]

theorem Reads.row {α : Type} {entries : Entries F} {name : Text}
    {read : Json F → Except StateError α} {write : α → Json F} {a : α}
    (reads : Reads read write) (known : name ∈ identifierFields)
    (done : (item entries name >>= read) = .ok a) :
    ∃ value, item entries name = .ok value ∧ trimEntry (name, value) = (name, write a) := by
  obtain ⟨value, found, read⟩ := Run.bind_eq_ok.mp done
  refine ⟨value, found, ?_⟩
  rw [trimEntry, if_pos known, reads.only read]

theorem Reads.integerRow {α : Type} {entries : Entries F} {name : Text}
    {read : Json F → Except StateError α} {write : α → Int} {a : α}
    (reads : Reads read fun a => integer (write a)) (plain : name ∉ identifierFields)
    (done : (item entries name >>= read) = .ok a) :
    ∃ value, item entries name = .ok value ∧
      trimEntry (name, value) = (name, integer (write a)) := by
  obtain ⟨value, found, read⟩ := Run.bind_eq_ok.mp done
  refine ⟨value, found, ?_⟩
  have same := reads.only read
  rw [trimEntry, if_neg plain]
  congr 1
  cases value with
  | leaf scalar =>
      cases scalar with
      | str value => cases same
      | _ => exact same
  | list items => cases same
  | dict entries => exact same

theorem writesMessage {entries : Entries F} {wait : ProcessWaitState F}
    (distinct : (entries.map Prod.fst).Nodup)
    (read : (do let selected ← canonicalMapping entries (codes "message") [codes "filters"]
                (item selected (codes "filters") >>= messageProcessWait).map some) =
      .ok (some wait)) : Written entries wait.kind wait.fields := by
  obtain ⟨selected, value, canonical, found, made⟩ := oneField_ok.mp read
  obtain ⟨filters, rfl, rfl⟩ := messageProcessWait_ok.mp made
  have each : ∀ field ∈ [(codes "filters", JsonTree.dict filters.entries)],
      item selected field.1 = .ok field.2 := by simpa using found
  have holds := holds_of_canonical distinct canonical (by decide) rfl each
  exact ⟨_, holds, rfl⟩

theorem writesHuman {entries : Entries F} {wait : ProcessWaitState F}
    (distinct : (entries.map Prod.fst).Nodup)
    (read : (do let selected ← canonicalMapping entries (codes "human") [codes "request_ids"]
                match ← item selected (codes "request_ids") with
                | .list requestIds => (humanProcessWait requestIds).map some
                | _ => .error .requestIdsNotList) = .ok (some wait)) :
    Written entries wait.kind wait.fields := by
  obtain ⟨selected, items, canonical, found, made⟩ := humanMapping_ok.mp read
  obtain ⟨requestIds, ids, rfl⟩ := humanProcessWait_ok.mp made
  have each : ∀ field ∈ [(codes "request_ids", JsonTree.list items)],
      item selected field.1 = .ok field.2 := by simpa using found
  have holds := holds_of_canonical distinct canonical (by decide) rfl each
  refine ⟨_, holds, ?_⟩
  have trimmed : items.map trimText = requestIds.ids.map fun id => text id.text := by
    rw [← List.forall₂_eq_eq_eq, List.forall₂_map_left_iff, List.forall₂_map_right_iff]
    refine (Run.mapM_eq_ok.mp ids).imp fun item id here => ?_
    obtain ⟨source, rfl, stripped⟩ := nonEmptyString_ok.mp here
    exact congrArg text stripped
  have known : codes "request_ids" ∈ identifierFields := by decide
  rw [List.map_singleton, trimEntry, if_pos known, trimValue, trimmed]
  rfl

theorem writesStale {entries : Entries F} {wait : ProcessWaitState F}
    (distinct : (entries.map Prod.fst).Nodup)
    (read : (do let selected ← canonicalMapping entries (codes "stale_execution") staleExecutionFields
                (staleExecutionProcessWait selected).map some) = .ok (some wait)) :
    Written entries wait.kind wait.fields := by
  obtain ⟨selected, canonical, read⟩ := Run.bind_eq_ok.mp read
  obtain ⟨_, made, same⟩ := Run.map_eq_ok.mp read
  cases same
  obtain ⟨pid, done₁, made⟩ := Run.bind_eq_ok.mp made
  obtain ⟨recoveredBy, done₂, made⟩ := Run.bind_eq_ok.mp made
  obtain ⟨priorOwner, done₃, made⟩ := Run.bind_eq_ok.mp made
  obtain ⟨priorLease, done₄, made⟩ := Run.bind_eq_ok.mp made
  obtain ⟨priorGeneration, done₅, made⟩ := Run.bind_eq_ok.mp made
  obtain ⟨execution, done₆, made⟩ := Run.bind_eq_ok.mp made
  obtain ⟨state, done₇, made⟩ := Run.bind_eq_ok.mp made
  cases made
  obtain ⟨value₁, found₁, row₁⟩ := (nonEmptyString_reads _).row (by decide) done₁
  obtain ⟨value₂, found₂, row₂⟩ := (sha256_reads _).row (by decide) done₂
  obtain ⟨value₃, found₃, row₃⟩ := (optionalSha256_reads _).row (by decide) done₃
  obtain ⟨value₄, found₄, row₄⟩ := (optionalSha256_reads _).row (by decide) done₄
  obtain ⟨value₅, found₅, row₅⟩ := (nonnegativeInteger_reads _).integerRow (by decide) done₅
  obtain ⟨value₆, found₆, row₆⟩ := (positiveInteger_reads _).integerRow (by decide) done₆
  obtain ⟨value₇, found₇, row₇⟩ := (positiveInteger_reads _).integerRow (by decide) done₇
  have each : ∀ field ∈ staleExecutionFields.zip
      [value₁, value₂, value₃, value₄, value₅, value₆, value₇],
      item selected field.1 = .ok field.2 := by
    simp only [staleExecutionFields, List.zip_cons_cons, List.zip_nil_right, List.forall_mem_cons,
      List.not_mem_nil, false_implies, implies_true, and_true]
    exact ⟨found₁, found₂, found₃, found₄, found₅, found₆, found₇⟩
  have holds := holds_of_canonical distinct canonical (by decide) rfl each
  refine ⟨_, holds, ?_⟩
  simp only [staleExecutionFields, List.zip_cons_cons, List.zip_nil_right, List.map_cons,
    List.map_nil, row₁, row₂, row₃, row₄, row₅, row₆, row₇]
  rfl

theorem writesWait {entries : Entries F} {wait : ProcessWaitState F}
    (distinct : (entries.map Prod.fst).Nodup)
    (read : processWaitStateFromMapping (.dict entries) = .ok (some wait)) :
    Written entries wait.kind wait.fields := by
  rw [processWaitStateFromMapping] at read
  split_ifs at read with child message human tool paused hostResume stale
  · obtain ⟨childPid, rfl, written⟩ :=
      oneField_writes distinct (nonEmptyString_reads _) (by decide) (by decide) read
    exact written
  · exact writesMessage distinct read
  · exact writesHuman distinct read
  · obtain ⟨operationId, rfl, written⟩ :=
      oneField_writes distinct (nonEmptyString_reads _) (by decide) (by decide) read
    exact written
  · obtain ⟨reasonOid, rfl, written⟩ :=
      oneField_writes distinct (optionalString_reads _) (by decide) (by decide) read
    exact written
  · obtain ⟨reasonOid, rfl, written⟩ :=
      oneField_writes distinct (nonEmptyString_reads _) (by decide) (by decide) read
    exact written
  · exact writesStale distinct read

/-! ## Outcomes -/

/-- A mapping with an identifier `name` and a `code`. -/
theorem twoFields_ok {entries : Entries F} {kind name : Text} {field : String}
    {make : Option Identifier → Option Identifier → ProcessOutcome} {result : ProcessOutcome} :
    (do let selected ← canonicalMapping entries kind [name, codes "code"]
        let first ← item selected name
        let second ← item selected (codes "code")
        (do let first ← optionalString field first
            let second ← optionalString "code" second
            Except.ok (make first second)).map some) = .ok (some result) ↔
      ∃ selected first second, canonicalMapping entries kind [name, codes "code"] = .ok selected ∧
        (item selected name >>= optionalString field) = .ok first ∧
        (item selected (codes "code") >>= optionalString "code") = .ok second ∧
        make first second = result := by
  simp only [Run.bind_eq_ok, Run.map_eq_ok, Option.some.injEq, exists_eq_right, Except.ok.injEq]
  constructor
  · rintro ⟨selected, canonical, value₁, found₁, value₂, found₂, first, read₁, second, read₂, made⟩
    exact ⟨selected, first, second, canonical, ⟨value₁, found₁, read₁⟩, ⟨value₂, found₂, read₂⟩, made⟩
  · rintro ⟨selected, first, second, canonical, ⟨value₁, found₁, read₁⟩, ⟨value₂, found₂, read₂⟩, made⟩
    exact ⟨selected, canonical, value₁, found₁, value₂, found₂, first, read₁, second, read₂, made⟩

theorem readsOutcome {entries : Entries F} {outcome : ProcessOutcome}
    (holds : Holds entries (mappingEntries outcome.kind outcome.fields)) :
    processOutcomeFromMapping (.dict entries) = .ok (some outcome) := by
  obtain ⟨kind, canonical⟩ := canonicalMapping_of_holds holds
  have found {field : String} {name : Text} (value : Option Identifier)
      (listed : (name, optionalText value) ∈ outcome.fields (F := F)) :
      (item entries name >>= optionalString field) = .ok value :=
    Run.bind_eq_ok.mpr ⟨_, holds.item (List.mem_cons_of_mem _ (List.mem_cons_of_mem _ listed)),
      (optionalString_reads field).back value⟩
  rw [processOutcomeFromMapping, kind]
  cases outcome with
  | exited resultOid =>
      have read : (item entries (codes "result_oid") >>= optionalString "result_oid") =
          .ok resultOid := found resultOid (.head _)
      obtain ⟨value, named, read⟩ := Run.bind_eq_ok.mp read
      exact oneField_ok.mpr ⟨entries, value, canonical, named, Run.map_eq_ok.mpr ⟨resultOid, read, rfl⟩⟩
  | failed resultOid code =>
      exact twoFields_ok.mpr ⟨entries, resultOid, code, canonical, found resultOid (.head _),
        found code (.tail _ (.head _)), rfl⟩
  | killed reasonOid code =>
      exact twoFields_ok.mpr ⟨entries, reasonOid, code, canonical, found reasonOid (.head _),
        found code (.tail _ (.head _)), rfl⟩

theorem twoFields_writes {entries : Entries F} {kind name : Text} {field : String}
    {make : Option Identifier → Option Identifier → ProcessOutcome} {result : ProcessOutcome}
    (distinct : (entries.map Prod.fst).Nodup) (known : name ∈ identifierFields)
    (unique : [codes "schema_version", codes "kind", name, codes "code"].Nodup)
    (done : (do let selected ← canonicalMapping entries kind [name, codes "code"]
                let first ← item selected name
                let second ← item selected (codes "code")
                (do let first ← optionalString field first
                    let second ← optionalString "code" second
                    Except.ok (make first second)).map some) = .ok (some result)) :
    ∃ first second, make first second = result ∧
      Written entries kind [(name, optionalText first), (codes "code", optionalText second)] := by
  obtain ⟨selected, first, second, canonical, done₁, done₂, made⟩ := twoFields_ok.mp done
  obtain ⟨value₁, found₁, row₁⟩ := (optionalString_reads _).row known done₁
  obtain ⟨value₂, found₂, row₂⟩ := (optionalString_reads _).row (by decide) done₂
  have each : ∀ field ∈ [(name, value₁), (codes "code", value₂)],
      item selected field.1 = .ok field.2 := by simpa using ⟨found₁, found₂⟩
  have holds := holds_of_canonical distinct canonical unique rfl each
  refine ⟨first, second, made, _, holds, ?_⟩
  rw [List.map_cons, List.map_singleton, row₁, row₂]

theorem writesOutcome {entries : Entries F} {outcome : ProcessOutcome}
    (distinct : (entries.map Prod.fst).Nodup)
    (read : processOutcomeFromMapping (.dict entries) = .ok (some outcome)) :
    Written entries outcome.kind outcome.fields := by
  rw [processOutcomeFromMapping] at read
  split_ifs at read with exited failed killed
  · obtain ⟨resultOid, rfl, written⟩ :=
      oneField_writes distinct (optionalString_reads _) (by decide) (by decide) read
    exact written
  · obtain ⟨resultOid, code, rfl, written⟩ := twoFields_writes distinct (by decide) (by decide) read
    exact written
  · obtain ⟨reasonOid, code, rfl, written⟩ := twoFields_writes distinct (by decide) (by decide) read
    exact written

end

/-! ## Codecs -/

/-- The codec of one component of the process state; `sorted` puts every `dict` of a value in the
order of its keys. -/
structure Codec (F : WrittenFloats) where
  Value : Type
  label : String
  kind : Value → Text
  fields : Value → Entries F
  sorted : Value → Value
  toMapping : Option Value → Json F
  fromMapping : Json F → Except StateError (Option Value)
  fromJson : Option Text → Except StateError (Option Value)

namespace Codec
variable {F : WrittenFloats} (codec : Codec F)

/-- Values that are equal where a `dict` has no order. -/
def Same (left right : codec.Value) : Prop := codec.sorted left = codec.sorted right

/-- A scalar whose text has no high surrogate directly before a low one. -/
def PortableScalar : Scalar F.Value → Prop
  | .str text => Portable text
  | _ => True

/-- No text of the value has a high surrogate directly before a low one. -/
def PortableValue (value : codec.Value) : Prop :=
  (codec.toMapping (some value)).All PortableScalar Portable

/-- The codec writes what it reads and reads what it writes, up to whitespace around identifiers
and the order of keys. -/
structure Exact : Prop where
  back : ∀ value, codec.PortableValue value → ∃ again,
    codec.fromJson (some (dumps (codec.toMapping (some value)))) = .ok (some again) ∧
      codec.Same again value
  accepted : ∀ source value, codec.fromJson (some source) = .ok (some value) →
    ∃ tree entries written, document source = some tree ∧ tree.distinct = true ∧
      (tree.All Named fun _ => True) ∧
      loadStrictJson F codec.label source = .ok (.dict entries) ∧
      (entries.map Prod.fst).Perm
        (codes "schema_version" :: codes "kind" :: (codec.fields value).map Prod.fst) ∧
      codec.toMapping (some value) = .dict written ∧ (entries.map trimEntry).Perm written
  again : ∀ source value, codec.fromJson (some source) = .ok (some value) →
    codec.PortableValue value → ∃ again,
      codec.fromJson (some (dumps (codec.toMapping (some value)))) = .ok (some again) ∧
        codec.Same again value
  injective : ∀ left right,
    (codec.toMapping (some left)).sorted = (codec.toMapping (some right)).sorted →
      codec.Same left right

/-- What is known of a codec from its fields. -/
structure Lawful : Prop where
  mapping : ∀ value, codec.toMapping (some value) =
    .dict (mappingEntries (codec.kind value) (codec.fields value))
  json : ∀ source, codec.fromJson (some source) =
    loadStrictJson F codec.label source >>= codec.fromMapping
  object : ∀ {tree value}, codec.fromMapping tree = .ok (some value) → ∃ entries, tree = .dict entries
  reads : ∀ {entries value}, Holds entries (mappingEntries (codec.kind value) (codec.fields value)) →
    codec.fromMapping (.dict entries) = .ok (some value)
  writes : ∀ {entries value}, (entries.map Prod.fst).Nodup →
    codec.fromMapping (.dict entries) = .ok (some value) →
      Written entries (codec.kind value) (codec.fields value)
  distinct : ∀ value, (codec.toMapping (some value)).distinct = true
  finite : ∀ value, (codec.toMapping (some value)).All (Finite F) fun _ => True
  kinds : ∀ value, codec.kind (codec.sorted value) = codec.kind value
  sorts : ∀ value, (codec.fields value).map JsonTree.sortEntry = codec.fields (codec.sorted value)
  again : ∀ value, codec.sorted (codec.sorted value) = codec.sorted value

namespace Lawful
variable {codec}

/-- The mapping with its keys in order is read as the value with its keys in order. -/
theorem reads_sorted (lawful : codec.Lawful) (value : codec.Value) :
    codec.fromMapping (codec.toMapping (some value)).sorted = .ok (some (codec.sorted value)) := by
  have distinct := lawful.distinct value
  rw [lawful.mapping, ← JsonTree.sorted_distinct, JsonTree.sorted, JsonTree.distinct,
    Bool.and_eq_true, decide_eq_true_iff] at distinct
  rw [lawful.mapping, JsonTree.sorted]
  refine lawful.reads ⟨?_, distinct.1⟩
  rw [lawful.kinds, ← lawful.sorts]
  exact JsonTree.sorted_perm _

theorem back (lawful : codec.Lawful) (value : codec.Value) (portable : codec.PortableValue value) :
    ∃ again, codec.fromJson (some (dumps (codec.toMapping (some value)))) = .ok (some again) ∧
      codec.Same again value := by
  refine ⟨codec.sorted value, ?_, lawful.again value⟩
  have scalars (scalar : Scalar F.Value) (text : PortableScalar scalar)
      (finite : Finite F scalar) : scalar.Writable F.repr := by
    cases scalar with
    | float value => exact F.written value finite
    | str value => exact text
    | _ => trivial
  have writable : Writable F.repr (codec.toMapping (some value)) :=
    portable.both (lawful.finite value) scalars fun _ key _ => key
  have ascii : Style.ascii ⟨true, 1, 1, none⟩ = true := rfl
  have read := document_dumps ascii writable
  have tokens := build_tokens (JsonTree.sorted_distinct.trans (lawful.distinct value))
    (JsonTree.sorted_all.mpr (lawful.finite value))
  rw [lawful.json, loadStrictJson, dumps, read]
  simp only [tokens]
  exact lawful.reads_sorted value

theorem accepted (lawful : codec.Lawful) {source : Text} {value : codec.Value}
    (read : codec.fromJson (some source) = .ok (some value)) :
    ∃ tree entries written, document source = some tree ∧ tree.distinct = true ∧
      (tree.All Named fun _ => True) ∧
      loadStrictJson F codec.label source = .ok (.dict entries) ∧
      (entries.map Prod.fst).Perm
        (codes "schema_version" :: codes "kind" :: (codec.fields value).map Prod.fst) ∧
      codec.toMapping (some value) = .dict written ∧ (entries.map trimEntry).Perm written := by
  rw [lawful.json, Run.bind_eq_ok] at read
  obtain ⟨decoded, loaded, read⟩ := read
  obtain ⟨entries, rfl⟩ := lawful.object read
  have built := loaded
  rw [loadStrictJson] at built
  cases parsed : document source with
  | none =>
      rw [parsed] at built
      cases built
  | some tree =>
      rw [parsed] at built
      obtain ⟨distinct, named, unique⟩ := build_strict built
      rw [JsonTree.distinct, Bool.and_eq_true, decide_eq_true_iff] at unique
      obtain ⟨rows, holds, trimmed⟩ := lawful.writes unique.1 read
      refine ⟨tree, entries, _, rfl, distinct, named, loaded, ?_, lawful.mapping value, ?_⟩
      · have same : (codec.fields value).map Prod.fst = rows.map Prod.fst := by
          rw [← trimmed, List.map_map]
          exact List.map_congr_left fun row _ => trimEntry_name row
        rw [same]
        exact holds.perm.map Prod.fst
      · have rest : (mappingEntries (codec.kind value) rows).map trimEntry =
            mappingEntries (codec.kind value) (codec.fields value) := by
          rw [← trimmed]
          rfl
        rw [← rest]
        exact holds.perm.map trimEntry

theorem exact (lawful : codec.Lawful) : codec.Exact where
  back := lawful.back
  accepted _ _ := lawful.accepted
  again _ value _ := lawful.back value
  injective left right same := by
    have reads := lawful.reads_sorted left
    rw [same, lawful.reads_sorted right] at reads
    exact (Option.some.inj (Except.ok.inj reads)).symm

end Lawful
end Codec

/-! ## The two codecs are exact -/

section
variable {F : WrittenFloats}

/-- Filters with every object in the order of its keys. -/
def MessageFilters.sorted (filters : MessageFilters F) : MessageFilters F where
  entries := (JsonTree.sortedEntries filters.entries).insertionSort keyLe
  distinct := JsonTree.sorted_distinct.trans filters.distinct
  finite := JsonTree.sorted_all.mpr filters.finite

def ProcessWaitState.sorted : ProcessWaitState F → ProcessWaitState F
  | .message filters => .message filters.sorted
  | other => other

variable (F) in
def waitCodec : Codec F where
  Value := ProcessWaitState F
  label := "wait state"
  kind := ProcessWaitState.kind
  fields := ProcessWaitState.fields
  sorted := ProcessWaitState.sorted
  toMapping := processWaitStateToMapping
  fromMapping := processWaitStateFromMapping
  fromJson := processWaitStateFromJson

variable (F) in
def outcomeCodec : Codec F where
  Value := ProcessOutcome
  label := "outcome"
  kind := ProcessOutcome.kind
  fields := ProcessOutcome.fields
  sorted := id
  toMapping := processOutcomeToMapping
  fromMapping := processOutcomeFromMapping
  fromJson := processOutcomeFromJson F

/-- A mapping whose fields are texts, integers, lists of texts or filters. -/
theorem mapping_plain {kind : Text} {fields : Entries F}
    (unique : (codes "schema_version" :: codes "kind" :: fields.map Prod.fst).Nodup)
    (plain : ∀ field ∈ fields, field.2.distinct = true ∧ field.2.All (Finite F) fun _ => True) :
    (JsonTree.dict (mappingEntries kind fields)).distinct = true ∧
      (JsonTree.dict (mappingEntries kind fields)).All (Finite F) fun _ => True := by
  have all : ∀ field ∈ mappingEntries kind fields,
      field.2.distinct = true ∧ field.2.All (Finite F) fun _ => True := by
    intro field listed
    rcases List.mem_cons.mp listed with rfl | listed
    · exact ⟨rfl, trivial⟩
    · rcases List.mem_cons.mp listed with rfl | listed
      · exact ⟨rfl, trivial⟩
      · exact plain field listed
  rw [JsonTree.distinct, Bool.and_eq_true, decide_eq_true_iff, JsonTree.entriesDistinct_iff,
    JsonTree.All, JsonTree.allEntries_iff]
  exact ⟨⟨unique, fun field listed => (all field listed).1⟩,
    fun field listed => ⟨trivial, (all field listed).2⟩⟩

theorem optionalText_plain (value : Option Identifier) :
    (optionalText (F := F) value).distinct = true ∧
      (optionalText (F := F) value).All (Finite F) fun _ => True := by
  cases value <;> exact ⟨rfl, trivial⟩

theorem waitNames_nodup (wait : ProcessWaitState F) :
    (codes "schema_version" :: codes "kind" :: wait.fields.map Prod.fst).Nodup := by
  cases wait <;> (simp only [ProcessWaitState.fields, List.map_cons, List.map_nil]; decide)

theorem outcomeNames_nodup (outcome : ProcessOutcome) :
    (codes "schema_version" :: codes "kind" ::
      (outcome.fields (F := F)).map Prod.fst).Nodup := by
  cases outcome <;> (simp only [ProcessOutcome.fields, List.map_cons, List.map_nil]; decide)

theorem waitMapping_plain (wait : ProcessWaitState F) :
    (processWaitStateToMapping (some wait)).distinct = true ∧
      (processWaitStateToMapping (some wait)).All (Finite F) fun _ => True := by
  refine mapping_plain (waitNames_nodup wait) ?_
  cases wait with
  | message filters =>
      intro field listed
      rw [ProcessWaitState.fields, List.mem_singleton] at listed
      rw [listed]
      exact ⟨filters.distinct, filters.finite⟩
  | human requestIds =>
      intro field listed
      rw [ProcessWaitState.fields, List.mem_singleton] at listed
      rw [listed, JsonTree.distinct, JsonTree.itemsDistinct_iff, JsonTree.All, JsonTree.allItems_iff,
        List.forall_mem_map, List.forall_mem_map]
      exact ⟨fun _ _ => rfl, fun _ _ => trivial⟩
  | paused reasonOid =>
      intro field listed
      rw [ProcessWaitState.fields, List.mem_singleton] at listed
      exact listed ▸ optionalText_plain reasonOid
  | staleExecution receipt =>
      simp only [ProcessWaitState.fields, List.forall_mem_cons]
      exact ⟨⟨rfl, trivial⟩, ⟨rfl, trivial⟩, optionalText_plain _, optionalText_plain _,
        ⟨rfl, trivial⟩, ⟨rfl, trivial⟩, ⟨rfl, trivial⟩, by simp⟩
  | _ =>
      intro field listed
      rw [ProcessWaitState.fields, List.mem_singleton] at listed
      rw [listed]
      exact ⟨rfl, trivial⟩

theorem outcomeMapping_plain (outcome : ProcessOutcome) :
    (processOutcomeToMapping (F := F) (some outcome)).distinct = true ∧
      (processOutcomeToMapping (F := F) (some outcome)).All (Finite F)
        fun _ => True := by
  refine mapping_plain (outcomeNames_nodup outcome) ?_
  cases outcome <;> simp [ProcessOutcome.fields, optionalText_plain]

theorem sortEntry_optionalText (name : Text) (value : Option Identifier) :
    JsonTree.sortEntry (name, optionalText (F := F) value) = (name, optionalText value) := by
  cases value <;> rfl

theorem waitFields_sorted (wait : ProcessWaitState F) :
    wait.fields.map JsonTree.sortEntry = wait.sorted.fields := by
  cases wait with
  | human requestIds =>
      change [JsonTree.sortEntry (codes "request_ids",
        .list (requestIds.ids.map fun id => text id.text))] = _
      rw [JsonTree.sortEntry, JsonTree.sorted, JsonTree.sortedItems_eq, List.map_map]
      rfl
  | paused reasonOid => exact congrArg (fun entry => [entry]) (sortEntry_optionalText _ reasonOid)
  | staleExecution receipt =>
      simp only [ProcessWaitState.fields, ProcessWaitState.sorted, List.map_cons,
        sortEntry_optionalText]
      rfl
  | _ => rfl

theorem waitCodec_lawful : (waitCodec F).Lawful where
  mapping _ := rfl
  json _ := rfl
  object {tree wait} read := by
    cases tree with
    | dict entries => exact ⟨entries, rfl⟩
    | leaf value => cases value <;> cases read
    | list items => cases read
  reads := readsWait
  writes := writesWait
  distinct wait := (waitMapping_plain wait).1
  finite wait := (waitMapping_plain wait).2
  kinds wait := by cases wait <;> rfl
  sorts := waitFields_sorted
  again wait := by
    cases wait with
    | message filters =>
        have again := JsonTree.sorted_sorted (.dict filters.entries)
        exact congrArg ProcessWaitState.message (MessageFilters.ext (JsonTree.dict.inj again))
    | _ => rfl

theorem outcomeCodec_lawful : (outcomeCodec F).Lawful where
  mapping _ := rfl
  json _ := rfl
  object {tree outcome} read := by
    cases tree with
    | dict entries => exact ⟨entries, rfl⟩
    | leaf value => cases value <;> cases read
    | list items => cases read
  reads := readsOutcome
  writes := writesOutcome
  distinct outcome := (outcomeMapping_plain outcome).1
  finite outcome := (outcomeMapping_plain outcome).2
  kinds _ := rfl
  sorts outcome := by
    cases outcome <;> simp [outcomeCodec, ProcessOutcome.fields, sortEntry_optionalText]
  again _ := rfl

end

/-- Both codecs are exact on values without split surrogate pairs. -/
theorem process_state_codec_exact (F : WrittenFloats) :
    (waitCodec F).Exact ∧ (outcomeCodec F).Exact :=
  ⟨waitCodec_lawful.exact, outcomeCodec_lawful.exact⟩

/-! ## A split surrogate pair -/

/-- An interpreter whose one float is zero. -/
def zeroFloats : WrittenFloats where
  Value := Unit
  read _ := ()
  finite _ := true
  repr _ := codes "0.0"
  written _ _ := rfl
  readBack _ _ := rfl

/-- A child whose identifier is a high surrogate and a low one. -/
def surrogateWait : ProcessWaitState zeroFloats := .child ⟨[0xD83D, 0xDE00], by decide, by decide⟩

/-- The text of a child. -/
def childText : Except StateError (Option (ProcessWaitState zeroFloats)) → Option Text
  | .ok (some (.child childPid)) => some childPid.text
  | _ => none

theorem process_state_codec_joins_surrogates :
    ¬ ∀ wait : ProcessWaitState zeroFloats, ∃ again,
      processWaitStateFromJson (some (dumps (processWaitStateToMapping (some wait)))) =
        .ok (some again) ∧ (waitCodec zeroFloats).Same again wait := by
  intro back
  obtain ⟨again, read, same⟩ := back surrogateWait
  have joined : childText (processWaitStateFromJson
      (some (dumps (processWaitStateToMapping (some surrogateWait))))) = some [0x1F600] := by
    decide +kernel
  rw [read] at joined
  cases again with
  | child childPid =>
      cases same
      cases joined
  | _ => cases joined

end AgentLibOS.Processes.StateCodec
