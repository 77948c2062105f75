import AgentLibOS.Llm.EventAccounting
import AgentLibOS.Llm.PromptDeltas

namespace AgentLibOS.Llm
open Library Library.Json Library.KeyedDelta Library.Run

variable {V : Type} [DecidableEq V] {E : PromptEncoding} {S : DeltaSettings V}

omit [DecidableEq V] in
@[simp] theorem reading_append (payload : ContextPayload V E) (entry : ContextEntry V E) :
    reading (payload.append entry) = readEntry (reading payload) entry := by
  rw [reading, ContextPayload.append, List.foldl_append]
  rfl

/-! ## What each encoder touches -/

section
variable (payload : ContextPayload V E)

theorem appendProcessDelta_frame (process : PromptProcess V) :
    reading (appendProcessDelta process payload).1 =
        { reading payload with process := (reading (appendProcessDelta process payload).1).process } ∧
      (appendProcessDelta process payload).1.captured =
        { payload.captured with
          processSignature := (appendProcessDelta process payload).1.captured.processSignature } := by
  rw [appendProcessDelta]
  cases payload.captured.processSignature with
  | none => exact ⟨by simp only [reading_append]; rfl, rfl⟩
  | some previous =>
      simp only []
      split_ifs
      · exact ⟨rfl, rfl⟩
      · exact ⟨rfl, rfl⟩
      · exact ⟨by simp only [reading_append]; rfl, rfl⟩

theorem appendCapabilityDelta_frame (capabilities : List (PromptCapability V)) :
    reading (appendCapabilityDelta capabilities payload).1 =
        { reading payload with
          capabilities := (reading (appendCapabilityDelta capabilities payload).1).capabilities } ∧
      (appendCapabilityDelta capabilities payload).1.captured =
        { payload.captured with
          capabilitySignature :=
            (appendCapabilityDelta capabilities payload).1.captured.capabilitySignature } := by
  rw [appendCapabilityDelta]
  cases payload.captured.capabilitySignature with
  | none => exact ⟨by simp only [reading_append]; rfl, rfl⟩
  | some previous =>
      simp only []
      split_ifs
      · exact ⟨rfl, rfl⟩
      · exact ⟨by simp only [reading_append]; rfl, rfl⟩

omit [DecidableEq V] in
theorem appendToolDelta_frame (tools : List (ToolRow V)) :
    reading (appendToolDelta S tools payload).1 =
        { reading payload with tools := (reading (appendToolDelta S tools payload).1).tools } ∧
      (appendToolDelta S tools payload).1.captured =
        { payload.captured with
          toolSignature := (appendToolDelta S tools payload).1.captured.toolSignature } := by
  rw [appendToolDelta]
  cases payload.captured.toolSignature with
  | none => exact ⟨by simp only [reading_append]; rfl, rfl⟩
  | some previous =>
      simp only []
      split_ifs
      · exact ⟨rfl, rfl⟩
      · exact ⟨by simp only [reading_append]; rfl, rfl⟩

omit [DecidableEq V] in
theorem appendEventDelta_frame {events : List (Event E)} {payload' : ContextPayload V E} {changed : Bool}
    (done : appendEventDelta S events payload = .ok (payload', changed)) :
    reading payload' = reading payload ∧
      payload'.captured = { payload.captured with eventIds := payload'.captured.eventIds } := by
  rw [appendEventDelta] at done
  split_ifs at done
  · cases done
    exact ⟨rfl, rfl⟩
  · obtain ⟨projection, -, done⟩ := bind_eq_ok.mp done
    cases done
    exact ⟨by simp only [reading_append]; rfl, rfl⟩

omit [DecidableEq V] in
theorem appendObjectEntries_frame (context : MaterializedContext)
    (objects : String → Option (PromptObject V)) :
    reading (appendObjectEntries context objects payload).1 = reading payload ∧
      (appendObjectEntries context objects payload).1.captured =
        { payload.captured with
          objects := (appendObjectEntries context objects payload).1.captured.objects
          objectOids := (appendObjectEntries context objects payload).1.captured.objectOids } := by
  rw [appendObjectEntries]
  split_ifs
  · exact ⟨rfl, rfl⟩
  · exact ⟨by simp only [reading_append]; rfl, rfl⟩

omit [DecidableEq V] in
theorem appendOmissions_frame (context : MaterializedContext) :
    reading (appendOmissions context payload).1 =
        { reading payload with omitted := (reading (appendOmissions context payload).1).omitted } ∧
      (appendOmissions context payload).1.captured =
        { payload.captured with
          omittedObjects := (appendOmissions context payload).1.captured.omittedObjects } := by
  rw [appendOmissions]
  split_ifs
  · exact ⟨rfl, rfl⟩
  · exact ⟨by simp only [reading_append]; rfl, rfl⟩

end

/-! ## What the entries have told -/

/-- The fields of a process signature, in its order. -/
def processKeys : List String :=
  ["status", "status_message", "wait_state", "outcome", "checkpoint_head", "image_id",
    "working_directory"]

/-- A signature that is remembered is what a reader knows. -/
structure ToldProcess (captured : Option (ProcessFields V)) (known : String → Option V) : Prop where
  keys : ∀ signature ∈ captured, signature.map Prod.fst = processKeys
  told : ∀ signature ∈ captured, known = signature.get

def ToldCapabilities (captured : Option (List (CapabilitySignature V)))
    (known : String → Option (CapabilitySignature V)) : Prop :=
  ∀ signature ∈ captured, known = latest CapabilitySignature.capId signature

def ToldTools (captured : Option (List ToolSignature)) (known : String → Prop) : Prop :=
  ∀ signature ∈ captured, ∀ name, known name ↔ name ∈ signature.map ToolSignature.name

structure Synced (payload : ContextPayload V E) : Prop where
  process : ToldProcess payload.captured.processSignature (reading payload).process
  capabilities : ToldCapabilities payload.captured.capabilitySignature (reading payload).capabilities
  tools : ToldTools payload.captured.toolSignature (reading payload).tools

omit [DecidableEq V] in
theorem processSignature_keys (process : PromptProcess V) :
    (processSignature process).map Prod.fst = processKeys := rfl

omit [DecidableEq V] in
theorem ProcessFields.get_absent {fields : ProcessFields V} {key : String}
    (absent : key ∉ fields.map Prod.fst) : fields.get key = none := by
  rw [ProcessFields.get, Assoc.get_absent absent]
  rfl

omit [DecidableEq V] in
theorem ProcessFields.get_key {fields : ProcessFields V} {key : String}
    (inside : key ∈ fields.map Prod.fst) : Assoc.get fields key = some (fields.get key) := by
  rw [ProcessFields.get]
  cases found : Assoc.get fields key with
  | some value => rfl
  | none =>
      obtain ⟨field, listed, rfl⟩ := List.mem_map.mp inside
      have missed := List.lookup_eq_none_iff.mp found field listed
      simp at missed

omit [DecidableEq V] in
theorem ProcessFields.get_of_mem {fields : ProcessFields V} (distinct : (fields.map Prod.fst).Nodup)
    {field : String × Option V} (inside : field ∈ fields) : fields.get field.1 = field.2 := by
  rw [ProcessFields.get, Assoc.get_of_mem distinct inside]
  rfl

omit [DecidableEq V] in
/-- Selected fields of distinct keys have the values of the whole. -/
theorem ProcessFields.get_filter {fields : ProcessFields V} (distinct : (fields.map Prod.fst).Nodup)
    {p : String × Option V → Bool} {key : String} (inside : key ∈ (fields.filter p).map Prod.fst) :
    ProcessFields.get (fields.filter p) key = fields.get key := by
  obtain ⟨field, selected, rfl⟩ := List.mem_map.mp inside
  have distinct' := distinct.sublist ((List.filter_sublist (p := p)).map Prod.fst)
  rw [ProcessFields.get_of_mem distinct' selected,
    ProcessFields.get_of_mem distinct (List.mem_filter.mp selected).1]

theorem sameFields_get {left right : ProcessFields V} (same : sameFields left right = true)
    (key : String) : left.get key = right.get key := by
  rw [sameFields, decide_eq_true_iff] at same
  by_cases listed : key ∈ left.map Prod.fst ++ right.map Prod.fst
  · rw [ProcessFields.get, ProcessFields.get, same key listed]
  · rw [List.mem_append, not_or] at listed
    rw [ProcessFields.get_absent listed.1, ProcessFields.get_absent listed.2]

/-- Fields of the same keys with equal values are the same dictionary. -/
theorem sameFields_of_get {left right : ProcessFields V} (keys : left.map Prod.fst = right.map Prod.fst)
    (equal : ∀ field ∈ right, left.get field.1 = right.get field.1) : sameFields left right = true := by
  rw [sameFields, decide_eq_true_iff]
  intro key listed
  rw [keys, List.mem_append, or_self] at listed
  obtain ⟨field, inside, rfl⟩ := List.mem_map.mp listed
  rw [ProcessFields.get_key listed, ProcessFields.get_key (keys ▸ listed), equal field inside]

/-- After the process encoder a reader knows the current process. -/
theorem appendProcessDelta_told (process : PromptProcess V) {payload : ContextPayload V E}
    (before : ToldProcess payload.captured.processSignature (reading payload).process) :
    ToldProcess (appendProcessDelta process payload).1.captured.processSignature
        (reading (appendProcessDelta process payload).1).process ∧
      (reading (appendProcessDelta process payload).1).process = (processSignature process).get := by
  have exactly (captured : Option (ProcessFields V)) (is : captured = some (processSignature process)) :
      ToldProcess captured (processSignature process).get := by
    subst is
    exact ⟨fun _ known => by cases known; rfl, fun _ known => by cases known; rfl⟩
  have distinct : ((processSignature process).map Prod.fst).Nodup := by
    rw [processSignature_keys]
    decide
  rw [appendProcessDelta]
  cases captured : payload.captured.processSignature with
  | none =>
      simp only [reading_append]
      exact ⟨exactly _ rfl, rfl⟩
  | some previous =>
      have keys := before.keys previous captured
      have told := before.told previous captured
      simp only []
      split_ifs with same silent
      · have current : (reading payload).process = (processSignature process).get := by
          rw [told]
          funext key
          exact sameFields_get same key
        refine ⟨?_, current⟩
        rw [captured]
        exact ⟨fun _ known => by cases known; exact keys, fun _ known => by cases known; exact told⟩
      · have equal : ∀ field ∈ processSignature process, previous.get field.1 =
            (processSignature process).get field.1 := by
          intro field inside
          have kept := List.filter_eq_nil_iff.mp silent field inside
          rw [decide_eq_true_iff, not_not] at kept
          rw [kept, ProcessFields.get_of_mem distinct inside]
        exact absurd (sameFields_of_get (keys.trans (processSignature_keys process).symm) equal) same
      · have current : (readEntry (reading payload) (.processDelta ((processSignature process).filter
            fun field => previous.get field.1 ≠ field.2) : ContextEntry V E)).process =
              (processSignature process).get := by
          funext key
          simp only [readEntry]
          split_ifs with listed
          · exact ProcessFields.get_filter distinct listed
          · rw [told]
            by_cases field : key ∈ (processSignature process).map Prod.fst
            · obtain ⟨entry, inside, rfl⟩ := List.mem_map.mp field
              have unchanged : ¬ (previous.get entry.1 ≠ entry.2) := fun differs =>
                listed (List.mem_map_of_mem (List.mem_filter.mpr ⟨inside, decide_eq_true differs⟩))
              rw [not_not.mp unchanged, ProcessFields.get_of_mem distinct inside]
            · have field' : key ∉ previous.map Prod.fst := by
                rwa [keys, ← processSignature_keys process]
              rw [ProcessFields.get_absent field, ProcessFields.get_absent field']
        refine ⟨?_, ?_⟩
        · simp only [reading_append]
          change ToldProcess (some (processSignature process)) (readEntry (reading payload) _).process
          rw [current]
          exact exactly _ rfl
        · simp only [reading_append]
          exact current

omit [DecidableEq V] in
theorem capabilitySignature_distinct {capabilities : List (PromptCapability V)}
    (distinct : (capabilities.map PromptCapability.capId).Nodup) :
    ((capabilitySignature capabilities).map CapabilitySignature.capId).Nodup := by
  have same := (List.perm_insertionSort (fun left right : CapabilitySignature V =>
    signatureLe left right = true) ((capabilities.filter fun cap => cap.status = .active).map signatureOf)).map CapabilitySignature.capId
  have ids : ((capabilities.filter fun cap => cap.status = .active).map signatureOf).map
      CapabilitySignature.capId = (capabilities.filter fun cap => cap.status = .active).map
        PromptCapability.capId := by
    rw [List.map_map]
    rfl
  rw [ids] at same
  exact same.nodup_iff.mpr (distinct.sublist (List.filter_sublist.map _))

/-- After the capability encoder a reader knows the active capabilities. -/
theorem appendCapabilityDelta_told {capabilities : List (PromptCapability V)}
    (distinct : (capabilities.map PromptCapability.capId).Nodup) {payload : ContextPayload V E}
    (before : ToldCapabilities payload.captured.capabilitySignature (reading payload).capabilities) :
    ToldCapabilities (appendCapabilityDelta capabilities payload).1.captured.capabilitySignature
        (reading (appendCapabilityDelta capabilities payload).1).capabilities ∧
      (reading (appendCapabilityDelta capabilities payload).1).capabilities =
        latest CapabilitySignature.capId (capabilitySignature capabilities) := by
  have exactly {known : String → Option (CapabilitySignature V)}
      (is : known = latest CapabilitySignature.capId (capabilitySignature capabilities)) :
      ToldCapabilities (some (capabilitySignature capabilities)) known ∧
        known = latest CapabilitySignature.capId (capabilitySignature capabilities) :=
    ⟨fun _ told => by cases told; exact is, is⟩
  rw [appendCapabilityDelta]
  cases captured : payload.captured.capabilitySignature with
  | none =>
      simp only [reading_append]
      exact exactly rfl
  | some previous =>
      have told := before previous captured
      simp only []
      split_ifs with same
      · rw [captured, same]
        exact exactly (told.trans (same ▸ rfl))
      · simp only [reading_append]
        exact exactly (applied_delta (capabilitySignature_distinct distinct) told)

omit [DecidableEq V] in
/-- After the tool encoder a reader knows the tools' names. -/
theorem appendToolDelta_told (tools : List (ToolRow V)) {payload : ContextPayload V E}
    (before : ToldTools payload.captured.toolSignature (reading payload).tools) :
    ToldTools (appendToolDelta S tools payload).1.captured.toolSignature
        (reading (appendToolDelta S tools payload).1).tools ∧
      ∀ name, (reading (appendToolDelta S tools payload).1).tools name ↔
        name ∈ (toolSignature S.schemaSha256 S.noSchema tools).map ToolSignature.name := by
  have exactly {known : String → Prop} (is : ∀ name, known name ↔
      name ∈ (toolSignature S.schemaSha256 S.noSchema tools).map ToolSignature.name) :
      ToldTools (some (toolSignature S.schemaSha256 S.noSchema tools)) known ∧ ∀ name, known name ↔
        name ∈ (toolSignature S.schemaSha256 S.noSchema tools).map ToolSignature.name :=
    ⟨fun _ told => by cases told; exact is, is⟩
  rw [appendToolDelta]
  cases captured : payload.captured.toolSignature with
  | none =>
      simp only [reading_append]
      exact exactly fun _ => Iff.rfl
  | some previous =>
      have told := before previous captured
      simp only []
      split_ifs with same
      · rw [captured, same]
        exact exactly fun name => (told name).trans (by rw [same])
      · simp only [reading_append]
        refine exactly fun name => ?_
        change ((reading payload).tools name ∨ _) ∧ _ ↔ _
        rw [told name]
        exact applied_keys name

/-! ## Calls -/

/-- A reader knows the current process, the active capabilities by identifier and the tools' names. -/
structure ReadsTrue (S : DeltaSettings V) (inputs : DeltaInputs V E) (payload : ContextPayload V E) :
    Prop where
  process : (reading payload).process = (processSignature inputs.process).get
  capabilities : (reading payload).capabilities =
    latest CapabilitySignature.capId (capabilitySignature inputs.capabilities)
  tools : ∀ name, (reading payload).tools name ↔
    name ∈ (toolSignature S.schemaSha256 S.noSchema inputs.tools).map ToolSignature.name

/-- The phases of a call. -/
theorem appendDeltas_ok {inputs : DeltaInputs V E} {payload payload' : ContextPayload V E}
    {changed : Bool} (done : appendDeltas S inputs payload = .ok (payload', changed)) :
    ∃ reported, appendEventDelta S inputs.events (appendToolDelta S inputs.tools
        (appendCapabilityDelta inputs.capabilities (appendProcessDelta inputs.process payload).1).1).1 =
          .ok reported ∧
      payload' = (appendOmissions inputs.context
        (appendObjectEntries inputs.context inputs.objects reported.1).1).1 ∧
      changed = ((appendProcessDelta inputs.process payload).2 ||
        (appendCapabilityDelta inputs.capabilities (appendProcessDelta inputs.process payload).1).2 ||
        (appendToolDelta S inputs.tools
          (appendCapabilityDelta inputs.capabilities (appendProcessDelta inputs.process payload).1).1).2 ||
        reported.2 || (appendObjectEntries inputs.context inputs.objects reported.1).2 ||
        (appendOmissions inputs.context
          (appendObjectEntries inputs.context inputs.objects reported.1).1).2) := by
  rw [appendDeltas] at done
  simp only [] at done
  obtain ⟨reported, here, done⟩ := bind_eq_ok.mp done
  cases done
  exact ⟨reported, here, rfl, rfl⟩

theorem appendDeltas_told {inputs : DeltaInputs V E}
    (distinct : (inputs.capabilities.map PromptCapability.capId).Nodup)
    {payload payload' : ContextPayload V E} {changed : Bool} (before : Synced payload)
    (done : appendDeltas S inputs payload = .ok (payload', changed)) :
    Synced payload' ∧ ReadsTrue S inputs payload' := by
  obtain ⟨⟨evented, changed₄⟩, reported, rfl, -⟩ := appendDeltas_ok done
  clear done
  have process := appendProcessDelta_told inputs.process before.process
  obtain ⟨read₁, kept₁⟩ := appendProcessDelta_frame payload inputs.process
  generalize (appendProcessDelta inputs.process payload).1 = first at *
  have before₁ : ToldCapabilities first.captured.capabilitySignature (reading first).capabilities := by
    rw [congrArg Reading.capabilities read₁, congrArg Captured.capabilitySignature kept₁]
    exact before.capabilities
  have capabilities := appendCapabilityDelta_told distinct before₁
  obtain ⟨read₂, kept₂⟩ := appendCapabilityDelta_frame first inputs.capabilities
  generalize (appendCapabilityDelta inputs.capabilities first).1 = second at *
  have before₂ : ToldTools second.captured.toolSignature (reading second).tools := by
    rw [congrArg Reading.tools read₂, congrArg Captured.toolSignature kept₂,
      congrArg Reading.tools read₁, congrArg Captured.toolSignature kept₁]
    exact before.tools
  have tools := appendToolDelta_told (S := S) inputs.tools before₂
  obtain ⟨read₃, kept₃⟩ := appendToolDelta_frame (S := S) second inputs.tools
  generalize (appendToolDelta S inputs.tools second).1 = third at *
  obtain ⟨read₄, kept₄⟩ := appendEventDelta_frame third reported
  obtain ⟨read₅, kept₅⟩ := appendObjectEntries_frame evented inputs.context inputs.objects
  generalize (appendObjectEntries inputs.context inputs.objects evented).1 = fifth at *
  obtain ⟨read₆, kept₆⟩ := appendOmissions_frame fifth inputs.context
  generalize (appendOmissions inputs.context fifth).1 = last at *
  rw [read₅, read₄] at read₆
  have process' : (reading last).process = (reading first).process := by rw [read₆, read₃, read₂]
  have capabilities' : (reading last).capabilities = (reading second).capabilities := by
    rw [read₆, read₃]
  have tools' : (reading last).tools = (reading third).tools := by rw [read₆]
  have captured₁ : last.captured.processSignature = first.captured.processSignature := by
    rw [kept₆, kept₅, kept₄, kept₃, kept₂]
  have captured₂ : last.captured.capabilitySignature = second.captured.capabilitySignature := by
    rw [kept₆, kept₅, kept₄, kept₃]
  have captured₃ : last.captured.toolSignature = third.captured.toolSignature := by
    rw [kept₆, kept₅, kept₄]
  refine ⟨⟨?_, ?_, ?_⟩, ⟨process'.trans process.2, capabilities'.trans capabilities.2, ?_⟩⟩
  · rw [process', captured₁]
    exact process.1
  · rw [capabilities', captured₂]
    exact capabilities.1
  · rw [tools', captured₃]
    exact tools.1
  · rw [tools']
    exact tools.2

/-- The payloads of one context: calls and compactions in any order. -/
inductive ContextRun (S : DeltaSettings V) : ContextPayload V E → Prop
  | start (tools : List (ToolRow V)) : ContextRun S (initialPayload S tools)
  | call {payload payload' : ContextPayload V E} (before : ContextRun S payload) {inputs : DeltaInputs V E}
      {changed : Bool} (distinct : (inputs.capabilities.map PromptCapability.capId).Nodup)
      (done : appendDeltas S inputs payload = .ok (payload', changed)) : ContextRun S payload'
  | compact {payload : ContextPayload V E} (before : ContextRun S payload)
      {suffix : List (ContextEntry V E)} (recent : suffix <:+ payload.entries) :
      ContextRun S (compactedPayload suffix payload)

omit [DecidableEq V] in
theorem initialPayload_synced (tools : List (ToolRow V)) :
    Synced (initialPayload S tools : ContextPayload V E) := by
  have none {α : Type} (P : α → Prop) : ∀ signature ∈ (none : Option α), P signature :=
    fun _ known => by cases known
  refine ⟨⟨none _, none _⟩, none _, ?_⟩
  intro signature known name
  cases known
  change name ∈ ((tools.map toolName).filter (· ≠ "")).insertionSort (· ≤ ·) ↔ _
  rw [List.mem_insertionSort, toolSignature, (List.perm_insertionSort _ _).map _ |>.mem_iff,
    List.map_map]
  rw [List.filter_map]
  rfl

theorem ContextRun.synced {payload : ContextPayload V E} (run : ContextRun S payload) :
    Synced payload := by
  induction run with
  | start tools => exact initialPayload_synced tools
  | call before distinct done ih => exact (appendDeltas_told distinct ih done).1
  | compact before recent ih =>
      have none {α : Type} (P : α → Prop) : ∀ signature ∈ (none : Option α), P signature :=
        fun _ known => by cases known
      exact ⟨⟨none _, none _⟩, none _, none _⟩

/-- Whatever calls and compactions came before, the entries replay to the truth after each call. -/
theorem deltas_replay {payload payload' : ContextPayload V E} (run : ContextRun S payload)
    {inputs : DeltaInputs V E} {changed : Bool}
    (distinct : (inputs.capabilities.map PromptCapability.capId).Nodup)
    (done : appendDeltas S inputs payload = .ok (payload', changed)) : ReadsTrue S inputs payload' :=
  (appendDeltas_told distinct run.synced done).2

def smallSettings : DeltaSettings String where
  contextObjectName := "llm_context:p"
  promptEventPayloadMaxChars := 512
  schemaSha256 schema := schema
  noSchema := "\x7b\x7d"

def smallInputs (status : String) (events : List (Event smallEncoding)) :
    DeltaInputs String smallEncoding where
  process := ⟨status, none, none, none, none, "image", "/"⟩
  capabilities :=
    [⟨"cap", "object:o", ["read"], .allow, .active, "\x7b\x7d", none, false, 0, "issuer", none, none⟩]
  tools := []
  events := events
  context := ⟨["o"], ["p"], "default", 3⟩
  objects _ := some ⟨"name", "note", 2, "title", "summary", "payload", "transform", "now"⟩

theorem deltas_replay_small : ∃ payload payload' : ContextPayload String smallEncoding,
    ContextRun smallSettings payload ∧ payload.entries = [.contextCompacted] ∧
      appendDeltas smallSettings (smallInputs "waiting" []) payload = .ok (payload', true) ∧
      ReadsTrue smallSettings (smallInputs "waiting" []) payload' := by
  have first : ContextRun smallSettings (initialPayload smallSettings [] : ContextPayload _ smallEncoding) :=
    .start []
  have done : appendDeltas smallSettings (smallInputs "running" [])
      (initialPayload smallSettings [] : ContextPayload _ smallEncoding) = .ok (_, true) := rfl
  have run := (first.call (by decide) done).compact List.nil_suffix
  exact ⟨_, _, run, rfl, rfl, deltas_replay run (by decide) rfl⟩

end AgentLibOS.Llm
