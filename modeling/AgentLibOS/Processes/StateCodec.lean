import AgentLibOS.Library.JsonOrder
import AgentLibOS.Library.Text
import AgentLibOS.Serde.BoundedJson

namespace AgentLibOS.Processes.StateCodec
open Library Library.Json

/-! ## Strict JSON -/

/-- Floats with the text that `json.dumps` writes for a finite one. -/
structure WrittenFloats extends Serde.Floats where
  repr : Value → Text
  written : ∀ value, finite value = true → scanNumber (repr value) = some (.float (repr value), [])
  readBack : ∀ value, finite value = true → read (repr value) = value

inductive PathStep
  | key (name : Text)
  | index (position : Nat)
  deriving DecidableEq

/-- The `ValidationError`s of the codec, with the values that their texts quote. -/
inductive StateError
  | notString (field : String)
  | notNonnegative (field : String)
  | notPositive (field : String)
  | notSha256 (field : String)
  | notCanonical (kind : Text) (missing unknown : List Text)
  | schemaVersion
  | kindMismatch (kind : Text)
  | nonFinite (path : List PathStep)
  | filtersNotObject
  | requestIdsNotList
  | noRequestIds
  | duplicateRequestIds
  | duplicateKey
  | nonFiniteConstant (name : Text)
  | notJson (label : String)
  | notObject (label : String)
  | unsupportedKind (label : String)
  | missingKey (name : Text)
  deriving DecidableEq

section
variable (F : WrittenFloats)

abbrev Json := JsonTree (Scalar F.Value)

/-- `_strict_json_object`. -/
def strictJsonObject (pairs : List (Text × Json F)) : Except StateError (Json F) :=
  if (pairs.map Prod.fst).Nodup then .ok (.dict pairs) else .error .duplicateKey

/-- The hooks for a token of `_load_strict_json`. -/
def strictLeaf : Token → Except StateError (Scalar F.Value)
  | .null => .ok .null
  | .bool value => .ok (.bool value)
  | .int digits => .ok (.int (readInt digits))
  | .float digits => .ok (.float (F.read digits))
  | .constant name => .error (.nonFiniteConstant name)
  | .str text => .ok (.str text)

/-- `_load_strict_json`. -/
def loadStrictJson (label : String) (text : Text) : Except StateError (Json F) :=
  match document text with
  | some tree => JsonTree.build (strictLeaf F) (strictJsonObject F) tree
  | none => .error (.notJson label)

mutual

/-- `_strict_json_value`; a tree that was read has no cycle and only text keys. -/
def strictJsonValue (path : List PathStep) : Json F → Except StateError (Json F)
  | .leaf (.float value) =>
      if F.finite value then .ok (.leaf (.float value)) else .error (.nonFinite path)
  | .leaf value => .ok (.leaf value)
  | .list items => (strictItems path 0 items).map .list
  | .dict entries => (strictEntries path entries).map .dict

def strictItems (path : List PathStep) (position : Nat) :
    List (Json F) → Except StateError (List (Json F))
  | [] => .ok []
  | item :: items => do
      let item ← strictJsonValue (path ++ [.index position]) item
      let items ← strictItems path (position + 1) items
      .ok (item :: items)

def strictEntries (path : List PathStep) :
    List (Text × Json F) → Except StateError (List (Text × Json F))
  | [] => .ok []
  | (key, value) :: entries => do
      let value ← strictJsonValue (path ++ [.key key]) value
      let entries ← strictEntries path entries
      .ok ((key, value) :: entries)

end


/-! ## Values that are read -/

def Finite : Scalar F.Value → Prop
  | .float value => F.finite value = true
  | _ => True

variable {F}

theorem strictItems_ok {path : List PathStep} {items results : List (Json F)} {position : Nat}
    (each : ∀ item ∈ items, ∀ (path : List PathStep) (result : Json F),
      strictJsonValue F path item = .ok result ↔
        result = item ∧ item.All (Finite F) fun _ => True) :
    strictItems F path position items = .ok results ↔
      results = items ∧ JsonTree.AllItems (Finite F) (fun _ => True) items := by
  induction items generalizing position results with
  | nil => simp [strictItems, JsonTree.AllItems, eq_comm]
  | cons item items ih =>
      rw [List.forall_mem_cons] at each
      rw [strictItems, JsonTree.AllItems]
      simp only [Run.bind_eq_ok, Except.ok.injEq, each.1, ih each.2]
      constructor
      · rintro ⟨_, ⟨rfl, here⟩, _, ⟨rfl, later⟩, rfl⟩
        exact ⟨rfl, here, later⟩
      · rintro ⟨rfl, here, later⟩
        exact ⟨item, ⟨rfl, here⟩, items, ⟨rfl, later⟩, rfl⟩

theorem strictEntries_ok {path : List PathStep} {entries results : List (Text × Json F)}
    (each : ∀ entry ∈ entries, ∀ (path : List PathStep) (result : Json F),
      strictJsonValue F path entry.2 = .ok result ↔
        result = entry.2 ∧ entry.2.All (Finite F) fun _ => True) :
    strictEntries F path entries = .ok results ↔
      results = entries ∧ JsonTree.AllEntries (Finite F) (fun _ => True) entries := by
  induction entries generalizing results with
  | nil => simp [strictEntries, JsonTree.AllEntries, eq_comm]
  | cons entry entries ih =>
      obtain ⟨key, value⟩ := entry
      rw [List.forall_mem_cons] at each
      rw [strictEntries, JsonTree.AllEntries]
      simp only [Run.bind_eq_ok, Except.ok.injEq, each.1, ih each.2, true_and]
      constructor
      · rintro ⟨_, ⟨rfl, here⟩, _, ⟨rfl, later⟩, rfl⟩
        exact ⟨rfl, here, later⟩
      · rintro ⟨rfl, here, later⟩
        exact ⟨value, ⟨rfl, here⟩, entries, ⟨rfl, later⟩, rfl⟩

/-- The check returns its value, where every float is finite. -/
theorem strictJsonValue_ok {path : List PathStep} {value result : Json F} :
    strictJsonValue F path value = .ok result ↔
      result = value ∧ value.All (Finite F) fun _ => True := by
  induction value using JsonTree.induct generalizing path result with
  | leaf value =>
      rw [JsonTree.All]
      cases value with
      | float value =>
          rw [strictJsonValue, Finite]
          split_ifs with finite <;> simp [finite, eq_comm]
      | _ => simp [strictJsonValue, Finite, eq_comm]
  | list items ih =>
      rw [strictJsonValue, JsonTree.All, Run.map_eq_ok]
      simp only [strictItems_ok fun item inside path result => ih item inside]
      constructor
      · rintro ⟨_, ⟨rfl, finite⟩, rfl⟩
        exact ⟨rfl, finite⟩
      · rintro ⟨rfl, finite⟩
        exact ⟨items, ⟨rfl, finite⟩, rfl⟩
  | dict entries ih =>
      rw [strictJsonValue, JsonTree.All, Run.map_eq_ok]
      simp only [strictEntries_ok fun entry inside path result => ih entry inside]
      constructor
      · rintro ⟨_, ⟨rfl, finite⟩, rfl⟩
        exact ⟨rfl, finite⟩
      · rintro ⟨rfl, finite⟩
        exact ⟨entries, ⟨rfl, finite⟩, rfl⟩

theorem strictJsonObject_ok {pairs : List (Text × Json F)} {result : Json F} :
    strictJsonObject F pairs = .ok result ↔
      (pairs.map Prod.fst).Nodup ∧ result = .dict pairs := by
  rw [strictJsonObject]
  split_ifs with distinct <;> simp [distinct, eq_comm]

/-- A token other than `NaN`, `Infinity` and `-Infinity`. -/
def Named : Token → Prop
  | .constant _ => False
  | _ => True

/-- What is read has no repeated key at any depth and no constant. -/
theorem build_strict {tree : JsonTree Token} {result : Json F}
    (built : tree.build (strictLeaf F) (strictJsonObject F) = .ok result) :
    tree.distinct = true ∧ (tree.All Named fun _ => True) ∧ result.distinct = true := by
  have keeps (pairs : List (Text × Json F)) (result : Json F)
      (_ : (pairs.map Prod.fst).Nodup) (read : strictJsonObject F pairs = .ok result) :
      result = .dict pairs := (strictJsonObject_ok.mp read).2
  have inner : tree.distinct = true ∧ tree.All Named fun _ => True := by
    induction tree using JsonTree.induct generalizing result with
    | leaf value =>
        obtain ⟨scalar, read, -⟩ := Run.map_eq_ok.mp built
        refine ⟨rfl, ?_⟩
        cases value with
        | constant name => cases read
        | _ => trivial
    | list items ih =>
        obtain ⟨results, read, -⟩ := Run.map_eq_ok.mp built
        have each := JsonTree.buildItems_ok.mp read
        have known : ∀ item ∈ items, item.distinct = true ∧ item.All Named fun _ => True := by
          intro item inside
          obtain ⟨result, -, here⟩ := JsonTree.forall₂_left each item inside
          exact ih item inside here
        rw [JsonTree.distinct, JsonTree.itemsDistinct_iff, JsonTree.All, JsonTree.allItems_iff]
        exact ⟨fun item inside => (known item inside).1, fun item inside => (known item inside).2⟩
    | dict entries ih =>
        obtain ⟨results, read, hooked⟩ := Run.bind_eq_ok.mp built
        have each := JsonTree.buildEntries_ok.mp read
        have known : ∀ entry ∈ entries,
            entry.2.distinct = true ∧ entry.2.All Named fun _ => True := by
          intro entry inside
          obtain ⟨result, -, -, here⟩ := JsonTree.forall₂_left each entry inside
          exact ih entry inside here
        have keys : entries.map Prod.fst = results.map Prod.fst :=
          List.forall₂_eq_eq_eq ▸ List.forall₂_map_left_iff.mpr
            (List.forall₂_map_right_iff.mpr (each.imp fun _ _ both => both.1))
        have unique := (strictJsonObject_ok.mp hooked).1
        rw [← keys] at unique
        rw [JsonTree.distinct, Bool.and_eq_true, decide_eq_true_iff, JsonTree.entriesDistinct_iff,
          JsonTree.All, JsonTree.allEntries_iff]
        exact ⟨⟨unique, fun entry inside => (known entry inside).1⟩,
          fun entry inside => ⟨trivial, (known entry inside).2⟩⟩
  refine ⟨inner.1, inner.2, ?_⟩
  exact (JsonTree.build_shape keeps inner.1 built).2

/-- A value whose objects have distinct keys is read back from its tokens. -/
theorem build_tokens {tree : Json F} (distinct : tree.distinct = true)
    (finite : tree.All (Finite F) fun _ => True) :
    (tree.map (Scalar.token F.repr)).build (strictLeaf F) (strictJsonObject F) =
      .ok tree := by
  induction tree using JsonTree.induct with
  | leaf value =>
      rw [JsonTree.All] at finite
      rw [JsonTree.map, JsonTree.build]
      cases value with
      | int value => simp [Scalar.token, strictLeaf, readInt_intText, Except.map]
      | float value => simp [Scalar.token, strictLeaf, F.readBack value finite, Except.map]
      | _ => rfl
  | list items ih =>
      rw [JsonTree.distinct, JsonTree.itemsDistinct_iff] at distinct
      rw [JsonTree.All, JsonTree.allItems_iff] at finite
      rw [JsonTree.map, JsonTree.build, Run.map_eq_ok]
      refine ⟨items, ?_, rfl⟩
      induction items with
      | nil => rfl
      | cons item items later =>
          rw [List.forall_mem_cons] at ih distinct finite
          rw [JsonTree.mapItems, JsonTree.buildItems, ih.1 distinct.1 finite.1,
            later ih.2 distinct.2 finite.2]
          rfl
  | dict entries ih =>
      rw [JsonTree.distinct, Bool.and_eq_true, JsonTree.entriesDistinct_iff,
        decide_eq_true_iff] at distinct
      rw [JsonTree.All, JsonTree.allEntries_iff] at finite
      rw [JsonTree.map, JsonTree.build, Run.bind_eq_ok]
      refine ⟨entries, ?_, strictJsonObject_ok.mpr ⟨distinct.1, rfl⟩⟩
      replace distinct := distinct.2
      induction entries with
      | nil => rfl
      | cons entry entries later =>
          obtain ⟨key, value⟩ := entry
          rw [List.forall_mem_cons] at ih distinct finite
          rw [JsonTree.mapEntries, JsonTree.buildEntries, ih.1 distinct.1 finite.1.2,
            later ih.2 finite.2 distinct.2]
          rfl

end

/-! ## Wait states and outcomes -/

/-- A text that `_non_empty_string` returns. -/
structure Identifier where
  text : Text
  filled : text ≠ []
  stripped : stripText text = text
  deriving DecidableEq

/-- `[0-9a-f]{64}`. -/
def isSha256 (text : Text) : Bool :=
  decide (text.length = 64) && text.all fun c => (48 ≤ c && c ≤ 57) || (97 ≤ c && c ≤ 102)

structure Sha256 where
  identifier : Identifier
  canonical : isSha256 identifier.text = true
  deriving DecidableEq

structure RequestIds where
  ids : List Identifier
  nonempty : ids ≠ []
  distinct : ids.Nodup
  deriving DecidableEq

structure StaleExecution where
  pid : Identifier
  recoveredByOwnerSha256 : Sha256
  priorOwnerSha256 : Option Sha256
  priorLeaseSha256 : Option Sha256
  priorExecutionGeneration : Nat
  recoveredExecutionGeneration : {generation : Nat // 0 < generation}
  recoveredStateGeneration : {generation : Nat // 0 < generation}

/-- Filters that `_strict_json_value` returns. -/
@[ext]
structure MessageFilters (F : WrittenFloats) where
  entries : List (Text × Json F)
  distinct : (JsonTree.dict entries).distinct = true
  finite : (JsonTree.dict entries).All (Finite F) fun _ => True

inductive ProcessWaitState (F : WrittenFloats)
  | child (childPid : Identifier)
  | message (filters : MessageFilters F)
  | human (requestIds : RequestIds)
  | tool (operationId : Identifier)
  | paused (reasonOid : Option Identifier)
  | hostResume (reasonOid : Identifier)
  | staleExecution (receipt : StaleExecution)

inductive ProcessOutcome
  | exited (resultOid : Option Identifier)
  | failed (resultOid code : Option Identifier)
  | killed (reasonOid code : Option Identifier)

section
variable {F : WrittenFloats}

/-! ## Fields -/

def text (value : Text) : Json F := .leaf (.str value)

def integer (value : Int) : Json F := .leaf (.int value)

def optionalText (value : Option Identifier) : Json F :=
  value.elim (.leaf .null) fun identifier => text identifier.text

/-- `_non_empty_string`. -/
def nonEmptyString (field : String) : Json F → Except StateError Identifier
  | .leaf (.str value) =>
      if filled : stripText value ≠ [] then
        .ok ⟨stripText value, filled, Text.strip_strip _ _⟩
      else .error (.notString field)
  | _ => .error (.notString field)

def optionally {α : Type} (read : Json F → Except StateError α) :
    Json F → Except StateError (Option α)
  | .leaf .null => .ok none
  | value => (read value).map some

/-- `_optional_string`. -/
def optionalString (field : String) : Json F → Except StateError (Option Identifier) :=
  optionally (nonEmptyString field)

/-- `_nonnegative_integer`. -/
def nonnegativeInteger (field : String) : Json F → Except StateError Nat
  | .leaf (.int value) => if value < 0 then .error (.notNonnegative field) else .ok value.toNat
  | _ => .error (.notNonnegative field)

/-- `_positive_integer`. -/
def positiveInteger (field : String) (value : Json F) :
    Except StateError {generation : Nat // 0 < generation} := do
  let selected ← nonnegativeInteger field value
  if positive : 0 < selected then .ok ⟨selected, positive⟩ else .error (.notPositive field)

/-- `_sha256`. -/
def sha256 (field : String) (value : Json F) : Except StateError Sha256 := do
  let selected ← nonEmptyString field value
  if canonical : isSha256 selected.text = true then .ok ⟨selected, canonical⟩
  else .error (.notSha256 field)

/-- `_optional_sha256`. -/
def optionalSha256 (field : String) : Json F → Except StateError (Option Sha256) :=
  optionally (sha256 field)

/-! ## Constructors -/

/-- A `bind` that keeps what the value was computed from. -/
def andThen {α β ε : Type} (first : Except ε α)
    (next : (value : α) → first = .ok value → Except ε β) : Except ε β :=
  match first, next with
  | .ok value, next => next value rfl
  | .error fault, _ => .error fault

theorem andThen_ok {α β ε : Type} {first : Except ε α}
    {next : (value : α) → first = .ok value → Except ε β} {result : β} :
    andThen first next = .ok result ↔ ∃ value read, next value read = .ok result := by
  cases first with
  | ok value =>
      constructor
      · exact fun made => ⟨value, rfl, made⟩
      · rintro ⟨value', read, made⟩
        cases read
        exact made
  | error fault =>
      refine iff_of_false (fun made => nomatch made) ?_
      rintro ⟨_, read, -⟩
      cases read

def childProcessWait (childPid : Json F) : Except StateError (ProcessWaitState F) :=
  (nonEmptyString "child_pid" childPid).map .child

def messageProcessWait : Json F → Except StateError (ProcessWaitState F)
  | .dict entries =>
      andThen (strictJsonValue F [] (.dict entries)) fun _ read =>
        -- A `dict` names no key twice.
        if unique : (JsonTree.dict entries).distinct = true then
          .ok (.message ⟨entries, unique, (strictJsonValue_ok.mp read).2⟩)
        else .error .duplicateKey
  | _ => .error .filtersNotObject

def humanProcessWait (requestIds : List (Json F)) :
    Except StateError (ProcessWaitState F) := do
  let ids ← requestIds.mapM (nonEmptyString "request_ids[]")
  if nonempty : ids ≠ [] then
    if distinct : ids.Nodup then .ok (.human ⟨ids, nonempty, distinct⟩)
    else .error .duplicateRequestIds
  else .error .noRequestIds

def toolProcessWait (operationId : Json F) : Except StateError (ProcessWaitState F) :=
  (nonEmptyString "operation_id" operationId).map .tool

def pausedProcessWait (reasonOid : Json F) : Except StateError (ProcessWaitState F) :=
  (optionalString "reason_oid" reasonOid).map .paused

def hostResumeProcessWait (reasonOid : Json F) : Except StateError (ProcessWaitState F) :=
  (nonEmptyString "reason_oid" reasonOid).map .hostResume

def exitedProcessOutcome (resultOid : Json F) : Except StateError ProcessOutcome :=
  (optionalString "result_oid" resultOid).map .exited

def failedProcessOutcome (resultOid code : Json F) : Except StateError ProcessOutcome := do
  let resultOid ← optionalString "result_oid" resultOid
  let code ← optionalString "code" code
  .ok (.failed resultOid code)

def killedProcessOutcome (reasonOid code : Json F) : Except StateError ProcessOutcome := do
  let reasonOid ← optionalString "reason_oid" reasonOid
  let code ← optionalString "code" code
  .ok (.killed reasonOid code)

/-! ## Mappings -/

abbrev Entries (F : WrittenFloats) := List (Text × Json F)

/-- `PROCESS_STATE_SCHEMA_VERSION`. -/
def processStateSchemaVersion : Int := 1

def ProcessWaitState.kind : ProcessWaitState F → Text
  | .child _ => codes "child"
  | .message _ => codes "message"
  | .human _ => codes "human"
  | .tool _ => codes "tool"
  | .paused _ => codes "paused"
  | .hostResume _ => codes "host_resume"
  | .staleExecution _ => codes "stale_execution"

def ProcessWaitState.fields : ProcessWaitState F → Entries F
  | .child childPid => [(codes "child_pid", text childPid.text)]
  | .message filters => [(codes "filters", .dict filters.entries)]
  | .human requestIds => [(codes "request_ids", .list (requestIds.ids.map fun id => text id.text))]
  | .tool operationId => [(codes "operation_id", text operationId.text)]
  | .paused reasonOid => [(codes "reason_oid", optionalText reasonOid)]
  | .hostResume reasonOid => [(codes "reason_oid", text reasonOid.text)]
  | .staleExecution receipt =>
      [(codes "pid", text receipt.pid.text),
        (codes "recovered_by_owner_sha256", text receipt.recoveredByOwnerSha256.identifier.text),
        (codes "prior_owner_sha256", optionalText (receipt.priorOwnerSha256.map (·.identifier))),
        (codes "prior_lease_sha256", optionalText (receipt.priorLeaseSha256.map (·.identifier))),
        (codes "prior_execution_generation", integer receipt.priorExecutionGeneration),
        (codes "recovered_execution_generation", integer receipt.recoveredExecutionGeneration),
        (codes "recovered_state_generation", integer receipt.recoveredStateGeneration)]

def ProcessOutcome.kind : ProcessOutcome → Text
  | .exited _ => codes "exited"
  | .failed _ _ => codes "failed"
  | .killed _ _ => codes "killed"

def ProcessOutcome.fields : ProcessOutcome → Entries F
  | .exited resultOid => [(codes "result_oid", optionalText resultOid)]
  | .failed resultOid code =>
      [(codes "result_oid", optionalText resultOid), (codes "code", optionalText code)]
  | .killed reasonOid code =>
      [(codes "reason_oid", optionalText reasonOid), (codes "code", optionalText code)]

/-- The entries of a mapping of `kind` with these fields. -/
def mappingEntries (kind : Text) (fields : Entries F) : Entries F :=
  (codes "schema_version", integer processStateSchemaVersion) :: (codes "kind", text kind) :: fields

/-- `value.get(name)` where it is a text. -/
def textAt (entries : Entries F) (name : Text) : Option Text :=
  (entries.lookup name).bind fun value =>
    match value with
    | .leaf (.str value) => some value
    | _ => none

def integerAt (entries : Entries F) (name : Text) : Option Int :=
  (entries.lookup name).bind fun value =>
    match value with
    | .leaf (.int value) => some value
    | _ => none

def sortTexts (texts : List Text) : List Text :=
  texts.insertionSort fun left right => textLe left right = true

/-- `_canonical_mapping`. -/
def canonicalMapping (entries : Entries F) (kind : Text) (fields : List Text) :
    Except StateError (Entries F) := do
  let expected := codes "schema_version" :: codes "kind" :: fields
  let missing := expected.filter fun name => name ∉ entries.map Prod.fst
  let unknown := (entries.map Prod.fst).filter fun name => name ∉ expected
  Run.ensure (missing = [] ∧ unknown = [])
    (.notCanonical kind (sortTexts missing) (sortTexts unknown))
  Run.ensure (integerAt entries (codes "schema_version") = some processStateSchemaVersion)
    .schemaVersion
  Run.ensure (textAt entries (codes "kind") = some kind) (.kindMismatch kind)
  .ok entries

/-- `selected[name]`. -/
def item (selected : Entries F) (name : Text) : Except StateError (Json F) :=
  match selected.lookup name with
  | some value => .ok value
  | none => .error (.missingKey name)

def staleExecutionFields : List Text :=
  [codes "pid", codes "recovered_by_owner_sha256", codes "prior_owner_sha256",
    codes "prior_lease_sha256", codes "prior_execution_generation",
    codes "recovered_execution_generation", codes "recovered_state_generation"]

def staleExecutionProcessWait (selected : Entries F) :
    Except StateError (ProcessWaitState F) := do
  let pid ← item selected (codes "pid") >>= nonEmptyString "pid"
  let recoveredBy ← item selected (codes "recovered_by_owner_sha256") >>=
    sha256 "recovered_by_owner_sha256"
  let priorOwner ← item selected (codes "prior_owner_sha256") >>= optionalSha256 "prior_owner_sha256"
  let priorLease ← item selected (codes "prior_lease_sha256") >>= optionalSha256 "prior_lease_sha256"
  let priorGeneration ← item selected (codes "prior_execution_generation") >>=
    nonnegativeInteger "prior_execution_generation"
  let executionGeneration ← item selected (codes "recovered_execution_generation") >>=
    positiveInteger "recovered_execution_generation"
  let stateGeneration ← item selected (codes "recovered_state_generation") >>=
    positiveInteger "recovered_state_generation"
  .ok (.staleExecution ⟨pid, recoveredBy, priorOwner, priorLease, priorGeneration,
    executionGeneration, stateGeneration⟩)

def processWaitStateFromMapping : Json F → Except StateError (Option (ProcessWaitState F))
  | .leaf .null => .ok none
  | .dict value => do
      let kind := textAt value (codes "kind")
      if kind = some (codes "child") then
        let selected ← canonicalMapping value (codes "child") [codes "child_pid"]
        (item selected (codes "child_pid") >>= childProcessWait).map some
      else if kind = some (codes "message") then
        let selected ← canonicalMapping value (codes "message") [codes "filters"]
        (item selected (codes "filters") >>= messageProcessWait).map some
      else if kind = some (codes "human") then
        let selected ← canonicalMapping value (codes "human") [codes "request_ids"]
        match ← item selected (codes "request_ids") with
        | .list requestIds => (humanProcessWait requestIds).map some
        | _ => .error .requestIdsNotList
      else if kind = some (codes "tool") then
        let selected ← canonicalMapping value (codes "tool") [codes "operation_id"]
        (item selected (codes "operation_id") >>= toolProcessWait).map some
      else if kind = some (codes "paused") then
        let selected ← canonicalMapping value (codes "paused") [codes "reason_oid"]
        (item selected (codes "reason_oid") >>= pausedProcessWait).map some
      else if kind = some (codes "host_resume") then
        let selected ← canonicalMapping value (codes "host_resume") [codes "reason_oid"]
        (item selected (codes "reason_oid") >>= hostResumeProcessWait).map some
      else if kind = some (codes "stale_execution") then
        let selected ← canonicalMapping value (codes "stale_execution") staleExecutionFields
        (staleExecutionProcessWait selected).map some
      else .error (.unsupportedKind "wait state")
  | _ => .error (.notObject "wait state")

def processOutcomeFromMapping : Json F → Except StateError (Option ProcessOutcome)
  | .leaf .null => .ok none
  | .dict value => do
      let kind := textAt value (codes "kind")
      if kind = some (codes "exited") then
        let selected ← canonicalMapping value (codes "exited") [codes "result_oid"]
        (item selected (codes "result_oid") >>= exitedProcessOutcome).map some
      else if kind = some (codes "failed") then
        let selected ← canonicalMapping value (codes "failed") [codes "result_oid", codes "code"]
        let resultOid ← item selected (codes "result_oid")
        let code ← item selected (codes "code")
        (failedProcessOutcome resultOid code).map some
      else if kind = some (codes "killed") then
        let selected ← canonicalMapping value (codes "killed") [codes "reason_oid", codes "code"]
        let reasonOid ← item selected (codes "reason_oid")
        let code ← item selected (codes "code")
        (killedProcessOutcome reasonOid code).map some
      else .error (.unsupportedKind "outcome")
  | _ => .error (.notObject "outcome")

/-! ## JSON texts -/

def processWaitStateToMapping : Option (ProcessWaitState F) → Json F
  | none => .leaf .null
  | some value => .dict (mappingEntries value.kind value.fields)

def processOutcomeToMapping : Option ProcessOutcome → Json F
  | none => .leaf .null
  | some value => .dict (mappingEntries value.kind value.fields)

def processWaitStateFromJson : Option Text → Except StateError (Option (ProcessWaitState F))
  | none => .ok none
  | some value => do
      let decoded ← loadStrictJson F "wait state" value
      processWaitStateFromMapping decoded

variable (F) in
def processOutcomeFromJson : Option Text → Except StateError (Option ProcessOutcome)
  | none => .ok none
  | some value => do
      let decoded ← loadStrictJson F "outcome" value
      processOutcomeFromMapping decoded

/-- `dumps` of a mapping: in ASCII, with sorted keys and a space after commas and colons. -/
def dumps (value : Json F) : Text := Json.dumps F.repr ⟨true, 1, 1, none⟩ value

end
end AgentLibOS.Processes.StateCodec
