import AgentLibOS.Llm.DeltaReplay

namespace AgentLibOS.Llm
open Library Library.Json Library.KeyedDelta Library.Run

variable {V : Type} {E : PromptEncoding} {S : DeltaSettings V}

/-! ## Reading events and objects -/

def eventsOf : ContextEntry V E → Option (ProjectedEventBatch E)
  | .eventsDelta projection => some projection
  | _ => none

def eventsRead (payload : ContextPayload V E) : List (ProjectedEventBatch E) :=
  payload.entries.filterMap eventsOf

def ObjectEntry.oid : ObjectEntry V → String
  | .missing oid => oid
  | .shown oid .. => oid

/-- The latest entry of an object. -/
def readObjects (known : String → Option (ObjectEntry V)) :
    ContextEntry V E → String → Option (ObjectEntry V)
  | .memoryDelta _ _ _ objects => fun oid => (latest ObjectEntry.oid objects oid).or (known oid)
  | _ => known

def objectsRead (payload : ContextPayload V E) : String → Option (ObjectEntry V) :=
  payload.entries.foldl readObjects fun _ => none

@[simp] theorem eventsRead_append (payload : ContextPayload V E) (entry : ContextEntry V E) :
    eventsRead (payload.append entry) = eventsRead payload ++ (eventsOf entry).toList := by
  rw [eventsRead, ContextPayload.append, List.filterMap_append]
  cases entry <;> rfl

@[simp] theorem objectsRead_append (payload : ContextPayload V E) (entry : ContextEntry V E) :
    objectsRead (payload.append entry) = readObjects (objectsRead payload) entry := by
  rw [objectsRead, ContextPayload.append, List.foldl_append]
  rfl

/-- The entry shows the object as the signature says. -/
def Describes : ObjectEntry V → ObjectSignature → Prop
  | .missing _, .missing => True
  | .shown _ _ _ version .., .current version' _ => version = version'
  | _, _ => False

theorem objectEntry_oid (objects : String → Option (PromptObject V)) (oid : String) :
    (objectEntry objects oid).oid = oid := by
  rw [objectEntry]
  cases objects oid <;> rfl

theorem objectEntry_describes (objects : String → Option (PromptObject V)) (oid : String) :
    Describes (objectEntry objects oid) (objectSignature objects oid) := by
  rw [objectEntry, objectSignature]
  cases objects oid with
  | none => trivial
  | some obj => rfl

/-! ## Encoders that say nothing of events and objects -/

structure Quiet (payload payload' : ContextPayload V E) : Prop where
  events : eventsRead payload' = eventsRead payload
  objects : objectsRead payload' = objectsRead payload
  eventIds : payload'.captured.eventIds = payload.captured.eventIds
  signatures : payload'.captured.objects = payload.captured.objects
  oids : payload'.captured.objectOids = payload.captured.objectOids

theorem Quiet.refl (payload : ContextPayload V E) : Quiet payload payload := ⟨rfl, rfl, rfl, rfl, rfl⟩

theorem Quiet.trans {payload payload' payload'' : ContextPayload V E} (first : Quiet payload payload')
    (second : Quiet payload' payload'') : Quiet payload payload'' :=
  ⟨second.events.trans first.events, second.objects.trans first.objects,
    second.eventIds.trans first.eventIds, second.signatures.trans first.signatures,
    second.oids.trans first.oids⟩

/-- An entry that is neither of events nor of objects. -/
def ContextEntry.quiet : ContextEntry V E → Bool
  | .eventsDelta _ => false
  | .memoryDelta .. => false
  | _ => true

theorem Quiet.append {payload payload' : ContextPayload V E} (same : Quiet payload payload')
    (entry : ContextEntry V E) (quiet : entry.quiet = true) : Quiet payload (payload'.append entry) := by
  refine same.trans ⟨?_, ?_, rfl, rfl, rfl⟩
  · rw [eventsRead_append]
    cases entry <;> first | exact List.append_nil _ | cases quiet
  · rw [objectsRead_append]
    cases entry <;> first | rfl | cases quiet

section
variable [DecidableEq V]

theorem appendProcessDelta_quiet (process : PromptProcess V) (payload : ContextPayload V E) :
    Quiet payload (appendProcessDelta process payload).1 := by
  rw [appendProcessDelta]
  cases payload.captured.processSignature with
  | none => exact .append (by constructor <;> rfl) _ (by rfl)
  | some previous =>
      simp only []
      split_ifs
      · exact .refl _
      · exact ⟨rfl, rfl, rfl, rfl, rfl⟩
      · exact .append (by constructor <;> rfl) _ (by rfl)

theorem appendCapabilityDelta_quiet (capabilities : List (PromptCapability V))
    (payload : ContextPayload V E) : Quiet payload (appendCapabilityDelta capabilities payload).1 := by
  rw [appendCapabilityDelta]
  cases payload.captured.capabilitySignature with
  | none => exact .append (by constructor <;> rfl) _ (by rfl)
  | some previous =>
      simp only []
      split_ifs
      · exact .refl _
      · exact .append (by constructor <;> rfl) _ (by rfl)

omit [DecidableEq V] in
theorem appendToolDelta_quiet (tools : List (ToolRow V)) (payload : ContextPayload V E) :
    Quiet payload (appendToolDelta S tools payload).1 := by
  rw [appendToolDelta]
  cases payload.captured.toolSignature with
  | none => exact .append (by constructor <;> rfl) _ (by rfl)
  | some previous =>
      simp only []
      split_ifs
      · exact .refl _
      · exact .append (by constructor <;> rfl) _ (by rfl)

omit [DecidableEq V] in
theorem appendOmissions_quiet (context : MaterializedContext) (payload : ContextPayload V E) :
    Quiet payload (appendOmissions context payload).1 := by
  rw [appendOmissions]
  split_ifs
  · exact .refl _
  · exact .append (by constructor <;> rfl) _ (by rfl)

end

/-! ## Events -/

/-- The events of some batches, each given by a call, are reported batch by batch and once. -/
structure ReportsEvents (S : DeltaSettings V) (given : List Text) (payload : ContextPayload V E) :
    Prop where
  batches : ∃ batches : List (List (Event E)),
    List.Forall₂ (fun batch projection => projectPromptEvents batch (some S.contextObjectName)
      S.promptEventPayloadMaxChars none = .ok projection) batches (eventsRead payload) ∧
    (batches.flatten.map Event.eventId).Nodup ∧
    ∀ id, id ∈ batches.flatten.map Event.eventId ↔ id ∈ given
  remembered : ∀ id, id ∈ payload.captured.eventIds ↔ id ∈ given

theorem ReportsEvents.quiet {given : List Text} {payload payload' : ContextPayload V E}
    (before : ReportsEvents S given payload) (same : Quiet payload payload') :
    ReportsEvents S given payload' := by
  refine ⟨?_, ?_⟩
  · rw [same.events]
    exact before.batches
  · rw [same.eventIds]
    exact before.remembered

theorem appendEventDelta_reports {given : List Text} {payload payload' : ContextPayload V E}
    {events : List (Event E)} {changed : Bool} (distinct : (events.map Event.eventId).Nodup)
    (before : ReportsEvents S given payload)
    (done : appendEventDelta S events payload = .ok (payload', changed)) :
    ReportsEvents S (given ++ events.map Event.eventId) payload' := by
  have fresh (id : Text) : id ∈ (events.filter fun event =>
      event.eventId ∉ payload.captured.eventIds).map Event.eventId ↔
        id ∈ events.map Event.eventId ∧ id ∉ given := by
    simp only [List.mem_map, List.mem_filter, decide_eq_true_eq, before.remembered]
    constructor
    · rintro ⟨event, ⟨inside, new⟩, rfl⟩
      exact ⟨⟨event, inside, rfl⟩, new⟩
    · rintro ⟨⟨event, inside, rfl⟩, new⟩
      exact ⟨event, ⟨inside, new⟩, rfl⟩
  rw [appendEventDelta] at done
  simp only [] at done
  split_ifs at done with none
  · cases done
    have known (id : Text) (inside : id ∈ events.map Event.eventId) : id ∈ given := by
      by_contra new
      have listed := (fresh id).mpr ⟨inside, new⟩
      rw [List.isEmpty_iff.mp none] at listed
      cases listed
    have same (id : Text) : id ∈ given ↔ id ∈ given ++ events.map Event.eventId := by
      rw [List.mem_append]
      exact ⟨.inl, fun either => either.elim (fun old => old) (known id)⟩
    obtain ⟨batches, projected, once, all⟩ := before.batches
    exact ⟨⟨batches, projected, once, fun id => (all id).trans (same id)⟩,
      fun id => (before.remembered id).trans (same id)⟩
  · obtain ⟨projection, projected, done⟩ := bind_eq_ok.mp done
    cases done
    obtain ⟨batches, earlier, once, all⟩ := before.batches
    have reaches (id : Text) : (id ∈ given ∨ id ∈ (events.filter fun event =>
        event.eventId ∉ payload.captured.eventIds).map Event.eventId) ↔
          id ∈ given ++ events.map Event.eventId := by
      rw [fresh, List.mem_append]
      by_cases old : id ∈ given <;> simp [old]
    refine ⟨⟨batches ++ [events.filter fun event => event.eventId ∉ payload.captured.eventIds],
      ?_, ?_, fun id => ?_⟩, fun id => ?_⟩
    · rw [eventsRead_append]
      exact List.rel_append earlier (.cons projected .nil)
    · rw [List.flatten_append, List.map_append, List.flatten_singleton, List.nodup_append]
      refine ⟨once, distinct.sublist (List.filter_sublist.map _), ?_⟩
      rintro id old other new rfl
      exact ((fresh id).mp new).2 ((all id).mp old)
    · rw [List.flatten_append, List.map_append, List.flatten_singleton, List.mem_append, all, reaches]
    · change id ∈ (List.dedup _).insertionSort _ ↔ _
      rw [List.mem_insertionSort, List.mem_dedup, List.mem_append, before.remembered, reaches]

theorem appendObjectEntries_reports {given : List Text} {payload : ContextPayload V E}
    (before : ReportsEvents S given payload) (context : MaterializedContext)
    (objects : String → Option (PromptObject V)) :
    ReportsEvents S given (appendObjectEntries context objects payload).1 := by
  rw [appendObjectEntries]
  split_ifs
  · exact before
  · refine ⟨?_, before.remembered⟩
    rw [eventsRead_append]
    change ∃ batches, List.Forall₂ _ batches (eventsRead payload ++ []) ∧ _
    rw [List.append_nil]
    exact before.batches

/-! ## Objects -/

/-- What is remembered of an object is what its latest entry shows. -/
structure ShowsObjects (payload : ContextPayload V E) : Prop where
  signatures : ∃ signatures, payload.captured.objects = some signatures ∧
    (Assoc.keys signatures).Nodup ∧ ∀ oid signature, Assoc.get signatures oid = some signature →
      ∃ entry, objectsRead payload oid = some entry ∧ Describes entry signature

theorem ShowsObjects.quiet {payload payload' : ContextPayload V E} (before : ShowsObjects payload)
    (same : Quiet payload payload') : ShowsObjects payload' := by
  refine ⟨?_⟩
  rw [same.signatures, same.objects]
  exact before.signatures

theorem appendEventDelta_shows {payload payload' : ContextPayload V E} {events : List (Event E)}
    {changed : Bool} (before : ShowsObjects payload)
    (done : appendEventDelta S events payload = .ok (payload', changed)) : ShowsObjects payload' := by
  rw [appendEventDelta] at done
  simp only [] at done
  split_ifs at done
  · cases done
    exact before
  · obtain ⟨projection, -, done⟩ := bind_eq_ok.mp done
    cases done
    refine ⟨?_⟩
    rw [objectsRead_append]
    exact before.signatures

/-- An object's latest entry, among entries made from one view of the objects. -/
theorem latest_objectEntry (objects : String → Option (PromptObject V)) {oids : List String} {oid : String}
    (inside : oid ∈ oids) :
    latest ObjectEntry.oid (oids.map (objectEntry objects)) oid = some (objectEntry objects oid) := by
  cases found : latest ObjectEntry.oid (oids.map (objectEntry objects)) oid with
  | none =>
      refine absurd ?_ (latest_none.mp found)
      rw [List.map_map]
      exact List.mem_map.mpr ⟨oid, inside, objectEntry_oid objects oid⟩
  | some entry =>
      obtain ⟨listed, rfl⟩ := latest_some found
      obtain ⟨other, -, rfl⟩ := List.mem_map.mp listed
      rw [objectEntry_oid]

theorem latest_objectEntry_absent (objects : String → Option (PromptObject V)) {oids : List String}
    {oid : String} (absent : oid ∉ oids) :
    latest ObjectEntry.oid (oids.map (objectEntry objects)) oid = none := by
  rw [latest_none, List.map_map]
  intro listed
  obtain ⟨other, inside, same⟩ := List.mem_map.mp listed
  rw [Function.comp_apply, objectEntry_oid] at same
  exact absent (same ▸ inside)

/-- After the object encoder the latest entries show the objects of the context as they are. -/
theorem appendObjectEntries_shows {payload : ContextPayload V E} (before : ShowsObjects payload)
    (context : MaterializedContext) (objects : String → Option (PromptObject V)) :
    ShowsObjects (appendObjectEntries context objects payload).1 ∧
      ∀ oid ∈ context.objectRefs, ∃ entry,
        objectsRead (appendObjectEntries context objects payload).1 oid = some entry ∧
          Describes entry (objectSignature objects oid) := by
  obtain ⟨signatures, captured, distinct, told⟩ := before.signatures
  have is : capturedObjectSignatures payload.captured = signatures := by
    rw [capturedObjectSignatures, captured, Option.getD_some]
  rw [appendObjectEntries, is]
  simp only []
  split_ifs with none
  · refine ⟨before, fun oid inside => told oid _ ?_⟩
    have kept := List.filter_eq_nil_iff.mp none oid inside
    rwa [decide_eq_true_iff, not_not] at kept
  · set changed := context.objectRefs.filter fun oid =>
      Assoc.get signatures oid ≠ some (objectSignature objects oid) with changedIs
    set next := context.objectRefs.foldl
      (fun signatures oid => Assoc.put signatures oid (objectSignature objects oid)) signatures with nextIs
    have distinct' : (Assoc.keys next).Nodup := Assoc.fold_distinct _ _ distinct
    have held (oid : String) : Assoc.get (sortedByKey next) oid =
        if oid ∈ context.objectRefs then some (objectSignature objects oid)
        else Assoc.get signatures oid := by
      rw [sortedByKey, ← Assoc.get_perm (List.perm_insertionSort _ _).symm distinct', nextIs,
        Assoc.get_fold]
    -- An object that is not told again is told by an earlier entry.
    have shown (oid : String) (signature : ObjectSignature)
        (here : (if oid ∈ context.objectRefs then some (objectSignature objects oid)
          else Assoc.get signatures oid) = some signature) :
        ∃ entry, (latest ObjectEntry.oid (changed.map (objectEntry objects)) oid).or
          (objectsRead payload oid) = some entry ∧ Describes entry signature := by
      by_cases fresh : oid ∈ changed
      · rw [if_pos (List.mem_filter.mp fresh).1] at here
        cases here
        refine ⟨objectEntry objects oid, ?_, objectEntry_describes objects oid⟩
        rw [latest_objectEntry objects fresh, Option.some_or]
      · rw [latest_objectEntry_absent objects fresh, Option.none_or]
        refine told oid signature ?_
        split_ifs at here with inside
        · by_contra differs
          refine fresh (List.mem_filter.mpr ⟨inside, decide_eq_true ?_⟩)
          rwa [here]
        · exact here
    refine ⟨⟨⟨sortedByKey next, rfl, ?_, fun oid signature here => ?_⟩⟩, fun oid inside => ?_⟩
    · exact ((List.perm_insertionSort _ _).map Prod.fst).nodup_iff.mpr distinct'
    · rw [held] at here
      rw [objectsRead_append]
      exact shown oid signature here
    · rw [objectsRead_append]
      exact shown oid _ (if_pos inside)

/-! ## Omissions -/

/-- The omissions that are remembered are what a reader knows. -/
def TellsOmissions (payload : ContextPayload V E) : Prop :=
  (reading payload).omitted = payload.captured.omittedObjects.getD []

theorem appendOmissions_tells {payload : ContextPayload V E} (before : TellsOmissions payload)
    (context : MaterializedContext) :
    TellsOmissions (appendOmissions context payload).1 ∧ (context.omittedObjects ≠ [] →
      (reading (appendOmissions context payload).1).omitted =
        context.omittedObjects.dedup.insertionSort (· ≤ ·)) := by
  rw [appendOmissions]
  simp only []
  split_ifs with silent
  · refine ⟨before, fun some => ?_⟩
    rw [before, silent.resolve_left some, Option.getD_some]
  · rw [TellsOmissions, reading_append]
    exact ⟨rfl, fun _ => rfl⟩

/-! ## Runs without compaction -/

variable [DecidableEq V]

/-- Calls one after another, and the events they were given. -/
inductive PlainRun (S : DeltaSettings V) : List Text → ContextPayload V E → Prop
  | start (tools : List (ToolRow V)) : PlainRun S [] (initialPayload S tools)
  | call {given : List Text} {payload payload' : ContextPayload V E} (before : PlainRun S given payload)
      {inputs : DeltaInputs V E} {changed : Bool} (distinct : (inputs.events.map Event.eventId).Nodup)
      (done : appendDeltas S inputs payload = .ok (payload', changed)) :
      PlainRun S (given ++ inputs.events.map Event.eventId) payload'

/-- What a payload without compaction tells of events, objects and omissions. -/
structure Covers (S : DeltaSettings V) (given : List Text) (payload : ContextPayload V E) : Prop where
  events : ReportsEvents S given payload
  objects : ShowsObjects payload
  omissions : TellsOmissions payload

/-- The objects and the omissions of a call's context are told. -/
structure TellsContext (inputs : DeltaInputs V E) (payload : ContextPayload V E) : Prop where
  objects : ∀ oid ∈ inputs.context.objectRefs, ∃ entry, objectsRead payload oid = some entry ∧
    Describes entry (objectSignature inputs.objects oid)
  omitted : inputs.context.omittedObjects ≠ [] →
    (reading payload).omitted = inputs.context.omittedObjects.dedup.insertionSort (· ≤ ·)

theorem appendDeltas_covers {given : List Text} {inputs : DeltaInputs V E}
    (distinct : (inputs.events.map Event.eventId).Nodup) {payload payload' : ContextPayload V E}
    {changed : Bool} (before : Covers S given payload)
    (done : appendDeltas S inputs payload = .ok (payload', changed)) :
    Covers S (given ++ inputs.events.map Event.eventId) payload' ∧ TellsContext inputs payload' := by
  obtain ⟨⟨evented, changed₄⟩, reported, rfl, -⟩ := appendDeltas_ok done
  clear done
  have quiet₁ := appendProcessDelta_quiet inputs.process payload
  obtain ⟨read₁, kept₁⟩ := appendProcessDelta_frame payload inputs.process
  generalize (appendProcessDelta inputs.process payload).1 = first at *
  have quiet₂ := appendCapabilityDelta_quiet inputs.capabilities first
  obtain ⟨read₂, kept₂⟩ := appendCapabilityDelta_frame first inputs.capabilities
  generalize (appendCapabilityDelta inputs.capabilities first).1 = second at *
  have quiet₃ := appendToolDelta_quiet (S := S) inputs.tools second
  obtain ⟨read₃, kept₃⟩ := appendToolDelta_frame (S := S) second inputs.tools
  generalize (appendToolDelta S inputs.tools second).1 = third at *
  have quiet := (quiet₁.trans quiet₂).trans quiet₃
  have events := appendEventDelta_reports distinct (before.events.quiet quiet) reported
  obtain ⟨read₄, kept₄⟩ := appendEventDelta_frame third reported
  have objects := appendObjectEntries_shows
    (appendEventDelta_shows (before.objects.quiet quiet) reported) inputs.context inputs.objects
  have events' := appendObjectEntries_reports events inputs.context inputs.objects
  obtain ⟨read₅, kept₅⟩ := appendObjectEntries_frame evented inputs.context inputs.objects
  generalize (appendObjectEntries inputs.context inputs.objects evented).1 = fifth at *
  have tells : TellsOmissions fifth := by
    rw [TellsOmissions, read₅, read₄, read₃, read₂, read₁, kept₅, kept₄, kept₃, kept₂, kept₁]
    exact before.omissions
  have omissions := appendOmissions_tells tells inputs.context
  have quiet₆ := appendOmissions_quiet inputs.context fifth
  generalize (appendOmissions inputs.context fifth).1 = last at *
  refine ⟨⟨events'.quiet quiet₆, objects.1.quiet quiet₆, omissions.1⟩, ?_, omissions.2⟩
  rw [quiet₆.objects]
  exact objects.2

omit [DecidableEq V] in
theorem initialPayload_covers (tools : List (ToolRow V)) :
    Covers S [] (initialPayload S tools : ContextPayload V E) := by
  refine ⟨⟨⟨[], .nil, List.nodup_nil, fun _ => Iff.rfl⟩, fun _ => Iff.rfl⟩, ⟨[], rfl, List.nodup_nil, ?_⟩,
    rfl⟩
  intro oid signature held
  cases held

theorem PlainRun.covers {given : List Text} {payload : ContextPayload V E} (run : PlainRun S given payload) :
    Covers S given payload := by
  induction run with
  | start tools => exact initialPayload_covers tools
  | call before distinct done ih => exact (appendDeltas_covers distinct ih done).1

/-- Without compaction no event is lost or told twice, and every object of the current context is
shown as it is. -/
theorem deltas_cover {given : List Text} {payload payload' : ContextPayload V E}
    (run : PlainRun S given payload) {inputs : DeltaInputs V E} {changed : Bool}
    (distinct : (inputs.events.map Event.eventId).Nodup)
    (done : appendDeltas S inputs payload = .ok (payload', changed)) :
    ReportsEvents S (given ++ inputs.events.map Event.eventId) payload' ∧ TellsContext inputs payload' :=
  have step := appendDeltas_covers distinct run.covers done
  ⟨step.1.events, step.2⟩

theorem deltas_cover_small : ∃ payload : ContextPayload String smallEncoding,
    appendDeltas smallSettings (smallInputs "running" (smallEvents.take 1))
      (initialPayload smallSettings []) = .ok (payload, true) ∧
    ReportsEvents smallSettings [codes "e1"] payload ∧
    TellsContext (smallInputs "running" (smallEvents.take 1)) payload := by
  have run : PlainRun smallSettings [] (initialPayload smallSettings [] : ContextPayload _ smallEncoding) :=
    .start []
  have done : appendDeltas smallSettings (smallInputs "running" (smallEvents.take 1))
      (initialPayload smallSettings []) = .ok (_, true) := rfl
  exact ⟨_, done, deltas_cover run (by decide) done⟩

/-! ## Repeated calls -/

/-- Everything the inputs say is remembered as told. -/
structure Settled (S : DeltaSettings V) (inputs : DeltaInputs V E) (payload : ContextPayload V E) : Prop where
  process : ∃ previous, payload.captured.processSignature = some previous ∧
    sameFields previous (processSignature inputs.process) = true
  capabilities : payload.captured.capabilitySignature = some (capabilitySignature inputs.capabilities)
  tools : payload.captured.toolSignature = some (toolSignature S.schemaSha256 S.noSchema inputs.tools)
  events : ∀ event ∈ inputs.events, event.eventId ∈ payload.captured.eventIds
  objects : ∀ oid ∈ inputs.context.objectRefs, Assoc.get (capturedObjectSignatures payload.captured) oid =
    some (objectSignature inputs.objects oid)
  omissions : inputs.context.omittedObjects = [] ∨
    payload.captured.omittedObjects = some (inputs.context.omittedObjects.dedup.insertionSort (· ≤ ·))

theorem Settled.silent {inputs : DeltaInputs V E} {payload : ContextPayload V E}
    (settled : Settled S inputs payload) : appendDeltas S inputs payload = .ok (payload, false) := by
  have process : appendProcessDelta inputs.process payload = (payload, false) := by
    obtain ⟨previous, captured, same⟩ := settled.process
    rw [appendProcessDelta, captured]
    exact if_pos same
  have capabilities : appendCapabilityDelta inputs.capabilities payload = (payload, false) := by
    rw [appendCapabilityDelta, settled.capabilities]
    exact if_pos rfl
  have tools : appendToolDelta S inputs.tools payload = (payload, false) := by
    rw [appendToolDelta, settled.tools]
    exact if_pos rfl
  have events : appendEventDelta S inputs.events payload = .ok (payload, false) := by
    have none : (inputs.events.filter fun event => event.eventId ∉ payload.captured.eventIds) = [] := by
      rw [List.filter_eq_nil_iff]
      intro event inside
      rw [decide_eq_true_iff, not_not]
      exact settled.events event inside
    rw [appendEventDelta, none]
    rfl
  have objects : appendObjectEntries inputs.context inputs.objects payload = (payload, false) := by
    rw [appendObjectEntries]
    refine if_pos (List.filter_eq_nil_iff.mpr fun oid inside => ?_)
    rw [decide_eq_true_iff, not_not]
    exact settled.objects oid inside
  have omissions : appendOmissions inputs.context payload = (payload, false) := if_pos settled.omissions
  simp only [appendDeltas, process, capabilities, tools, events]
  rw [bind_eq_ok]
  refine ⟨_, rfl, ?_⟩
  simp only [objects, omissions, Bool.or_self]

/-- The remembered objects are told apart by their identifiers. -/
def DistinctObjects (captured : Captured V) : Prop :=
  (Assoc.keys (capturedObjectSignatures captured)).Nodup

theorem appendProcessDelta_settles (process : PromptProcess V) (payload : ContextPayload V E) :
    ∃ previous, (appendProcessDelta process payload).1.captured.processSignature = some previous ∧
      sameFields previous (processSignature process) = true := by
  have itself : sameFields (processSignature process) (processSignature process) = true :=
    sameFields_of_get rfl fun _ _ => rfl
  rw [appendProcessDelta]
  cases captured : payload.captured.processSignature with
  | none => exact ⟨_, rfl, itself⟩
  | some previous =>
      simp only []
      split_ifs with same
      · exact ⟨previous, captured, same⟩
      · exact ⟨_, rfl, itself⟩
      · exact ⟨_, rfl, itself⟩

theorem appendCapabilityDelta_settles (capabilities : List (PromptCapability V))
    (payload : ContextPayload V E) :
    (appendCapabilityDelta capabilities payload).1.captured.capabilitySignature =
      some (capabilitySignature capabilities) := by
  rw [appendCapabilityDelta]
  cases captured : payload.captured.capabilitySignature with
  | none => rfl
  | some previous =>
      simp only []
      split_ifs with same
      · rw [captured, same]
      · rfl

omit [DecidableEq V] in
theorem appendToolDelta_settles (tools : List (ToolRow V)) (payload : ContextPayload V E) :
    (appendToolDelta S tools payload).1.captured.toolSignature =
      some (toolSignature S.schemaSha256 S.noSchema tools) := by
  rw [appendToolDelta]
  cases captured : payload.captured.toolSignature with
  | none => rfl
  | some previous =>
      simp only []
      split_ifs with same
      · rw [captured, same]
      · rfl

omit [DecidableEq V] in
theorem appendEventDelta_settles {payload payload' : ContextPayload V E} {events : List (Event E)}
    {changed : Bool} (done : appendEventDelta S events payload = .ok (payload', changed)) :
    ∀ event ∈ events, event.eventId ∈ payload'.captured.eventIds := by
  intro event inside
  rw [appendEventDelta] at done
  simp only [] at done
  split_ifs at done with none
  · cases done
    by_contra new
    have listed : event ∈ events.filter fun event => event.eventId ∉ payload.captured.eventIds :=
      List.mem_filter.mpr ⟨inside, decide_eq_true new⟩
    rw [List.isEmpty_iff.mp none] at listed
    cases listed
  · obtain ⟨projection, -, done⟩ := bind_eq_ok.mp done
    cases done
    change event.eventId ∈ (List.dedup _).insertionSort _
    rw [List.mem_insertionSort, List.mem_dedup, List.mem_append]
    by_cases old : event.eventId ∈ payload.captured.eventIds
    · exact .inl old
    · exact .inr (List.mem_map_of_mem (List.mem_filter.mpr ⟨inside, decide_eq_true old⟩))

omit [DecidableEq V] in
theorem appendObjectEntries_settles {payload : ContextPayload V E}
    (distinct : DistinctObjects payload.captured) (context : MaterializedContext)
    (objects : String → Option (PromptObject V)) :
    DistinctObjects (appendObjectEntries context objects payload).1.captured ∧
      ∀ oid ∈ context.objectRefs,
        Assoc.get (capturedObjectSignatures (appendObjectEntries context objects payload).1.captured) oid =
          some (objectSignature objects oid) := by
  rw [appendObjectEntries]
  simp only []
  split_ifs with none
  · refine ⟨distinct, fun oid inside => ?_⟩
    have kept := List.filter_eq_nil_iff.mp none oid inside
    rwa [decide_eq_true_iff, not_not] at kept
  · have distinct' := Assoc.fold_distinct (objectSignature objects) context.objectRefs distinct
    refine ⟨((List.perm_insertionSort _ _).map Prod.fst).nodup_iff.mpr distinct', fun oid inside => ?_⟩
    change Assoc.get (sortedByKey _) oid = _
    rw [sortedByKey, ← Assoc.get_perm (List.perm_insertionSort _ _).symm distinct', Assoc.get_fold,
      if_pos inside]

omit [DecidableEq V] in
theorem appendOmissions_settles (context : MaterializedContext) (payload : ContextPayload V E) :
    context.omittedObjects = [] ∨ (appendOmissions context payload).1.captured.omittedObjects =
      some (context.omittedObjects.dedup.insertionSort (· ≤ ·)) := by
  rw [appendOmissions]
  simp only []
  split_ifs with silent
  · exact silent
  · exact .inr rfl

theorem appendDeltas_settles {inputs : DeltaInputs V E} {payload payload' : ContextPayload V E}
    {changed : Bool} (distinct : DistinctObjects payload.captured)
    (done : appendDeltas S inputs payload = .ok (payload', changed)) :
    DistinctObjects payload'.captured ∧ Settled S inputs payload' := by
  obtain ⟨⟨evented, changed₄⟩, reported, rfl, -⟩ := appendDeltas_ok done
  clear done
  obtain ⟨previous, process, same⟩ := appendProcessDelta_settles inputs.process payload
  obtain ⟨-, kept₁⟩ := appendProcessDelta_frame payload inputs.process
  generalize (appendProcessDelta inputs.process payload).1 = first at *
  have capabilities := appendCapabilityDelta_settles inputs.capabilities first
  obtain ⟨-, kept₂⟩ := appendCapabilityDelta_frame first inputs.capabilities
  generalize (appendCapabilityDelta inputs.capabilities first).1 = second at *
  have tools := appendToolDelta_settles (S := S) inputs.tools second
  obtain ⟨-, kept₃⟩ := appendToolDelta_frame (S := S) second inputs.tools
  generalize (appendToolDelta S inputs.tools second).1 = third at *
  have events := appendEventDelta_settles reported
  obtain ⟨-, kept₄⟩ := appendEventDelta_frame third reported
  have distinct' : DistinctObjects evented.captured := by
    rw [kept₄, kept₃, kept₂, kept₁]
    exact distinct
  have objects := appendObjectEntries_settles distinct' inputs.context inputs.objects
  obtain ⟨-, kept₅⟩ := appendObjectEntries_frame evented inputs.context inputs.objects
  generalize (appendObjectEntries inputs.context inputs.objects evented).1 = fifth at *
  have omissions := appendOmissions_settles inputs.context fifth
  obtain ⟨-, kept₆⟩ := appendOmissions_frame fifth inputs.context
  generalize (appendOmissions inputs.context fifth).1 = last at *
  refine ⟨?_, ⟨previous, ?_, same⟩, ?_, ?_, ?_, ?_, omissions⟩
  · rw [kept₆]
    exact objects.1
  · rw [kept₆, kept₅, kept₄, kept₃, kept₂]
    exact process
  · rw [kept₆, kept₅, kept₄, kept₃]
    exact capabilities
  · rw [kept₆, kept₅, kept₄]
    exact tools
  · rw [kept₆, kept₅]
    exact events
  · rw [kept₆]
    exact objects.2

theorem ContextRun.distinctObjects {payload : ContextPayload V E} (run : ContextRun S payload) :
    DistinctObjects payload.captured := by
  induction run with
  | start tools => exact List.nodup_nil
  | call before distinct done ih => exact (appendDeltas_settles ih done).1
  | compact before recent ih => exact ih

/-- A call with the inputs of the last one says nothing. -/
theorem repeated_call_silent {payload payload' : ContextPayload V E} (run : ContextRun S payload)
    {inputs : DeltaInputs V E} {changed : Bool}
    (done : appendDeltas S inputs payload = .ok (payload', changed)) :
    appendDeltas S inputs payload' = .ok (payload', false) :=
  (appendDeltas_settles run.distinctObjects done).2.silent

theorem repeated_call_silent_small : ∃ payload payload' : ContextPayload String smallEncoding,
    ContextRun smallSettings payload ∧
      appendDeltas smallSettings (smallInputs "running" smallEvents) payload = .ok (payload', true) ∧
      appendDeltas smallSettings (smallInputs "running" smallEvents) payload' = .ok (payload', false) :=
  ⟨_, _, .start [], rfl, repeated_call_silent (.start []) rfl⟩

end AgentLibOS.Llm
