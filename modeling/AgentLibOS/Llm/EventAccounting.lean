import AgentLibOS.Library.Run
import AgentLibOS.Llm.EventProjection

namespace AgentLibOS.Llm
open Library Library.Json Library.Run Library.Counter

/-! ## The size of a payload -/

variable {E : PromptEncoding}

/-- `hexdigest` gives 64 hexadecimal digits. -/
def HexDigests (E : PromptEncoding) : Prop :=
  ∀ text, (E.sha256 text).length = 64 ∧
    ∀ c ∈ E.sha256 text, (48 ≤ c ∧ c ≤ 57) ∨ (97 ≤ c ∧ c ≤ 102)

theorem writeString_hex {text : Text} (hex : ∀ c ∈ text, (48 ≤ c ∧ c ≤ 57) ∨ (97 ≤ c ∧ c ≤ 102)) :
    text.flatMap (writePoint false) = text := by
  have plain (c : Nat) (known : (48 ≤ c ∧ c ≤ 57) ∨ (97 ≤ c ∧ c ≤ 102)) :
      writePoint false c = [c] := by
    have unescaped : shortEscape c = none := by
      simp only [shortEscape, quote, backslash]
      split_ifs <;> first | omega | rfl
    rw [writePoint, unescaped]
    exact if_pos ⟨by omega, .inr rfl⟩
  induction text with
  | nil => rfl
  | cons c text ih =>
      rw [List.forall_mem_cons] at hex
      rw [List.flatMap_cons, plain c hex.1, ih hex.2]
      rfl

/-- The entries of the last envelope, in order. -/
theorem lastEnvelope_sorted (digest : Text) (chars : Nat) :
    (normalizeJson E (lastEnvelope E digest chars)).sorted =
      .dict [(codes "_projection", .dict [(codes "omitted_chars", Json.int chars),
        (codes "original_chars", Json.int chars), (codes "payload_sha256", Json.text digest),
        (codes "truncated", .leaf (.bool true))])] := by
  rfl

theorem lastEnvelope_length {digest : Text} (chars : Nat) (sized : digest.length = 64)
    (hex : ∀ c ∈ digest, (48 ≤ c ∧ c ≤ 57) ∨ (97 ≤ c ∧ c ≤ 102)) :
    (canonicalPromptJson E (lastEnvelope E digest chars)).length =
      153 + 2 * (natText chars).length := by
  have quoted : (writeString false digest).length = 66 := by
    rw [writeString, writeString_hex hex]
    simp [sized]
  have key₁ : (writeString false (codes "_projection")).length = 13 := by rfl
  have key₂ : (writeString false (codes "omitted_chars")).length = 15 := by rfl
  have key₃ : (writeString false (codes "original_chars")).length = 16 := by rfl
  have key₄ : (writeString false (codes "payload_sha256")).length = 16 := by rfl
  have key₅ : (writeString false (codes "truncated")).length = 11 := by rfl
  have literal : (codes "true").length = 4 := by rfl
  rw [canonicalPromptJson, dumps, lastEnvelope_sorted]
  simp only [write, writeEntries, Style.enclose, Style.newline, Style.separator, writeScalar,
    Json.int, Json.text, intText_natCast, intercalate_cons, intercalate_single, Option.elim_none,
    List.replicate_zero, List.nil_append, List.append_nil, List.cons_ne_nil, if_false,
    List.length_cons, List.length_append, List.length_nil, quoted, key₁, key₂, key₃, key₄, key₅,
    literal]
  omega

theorem digestText_eq {text digest : Text} (done : digestText E text = .ok digest) :
    digest = E.sha256 text := by
  rw [digestText] at done
  split_ifs at done
  exact (Except.ok.inj done).symm

/-- The projection of a payload is within its bound: the last envelope always fits. -/
theorem boundedPayloadProjection_bounded (hex : HexDigests E) {maxChars : Nat} (room : 512 ≤ maxChars)
    {payload result : PromptJson E} {cut : Bool}
    (short : (canonicalPromptJson E (normalizeJson E payload)).length < 10 ^ 179)
    (done : boundedPayloadProjection E payload maxChars = .ok (result, cut)) :
    (canonicalPromptJson E result).length ≤ maxChars := by
  rw [boundedPayloadProjection] at done
  split_ifs at done with whole
  · cases done
    exact whole
  · obtain ⟨digest, hashed, done⟩ := bind_eq_ok.mp done
    obtain ⟨⟨projection, fields⟩, -, done⟩ := bind_eq_ok.mp done
    simp only [] at done
    split_ifs at done with fits
    · cases done
      exact fits
    · cases done
      rw [digestText_eq hashed, lastEnvelope_length _ (hex _).1 (hex _).2, natText_length]
      have digits := (Nat.digits_length_le_iff (b := 10) (by decide) _).mpr short
      omega

/-! ## Every event is accounted for -/

section
variable (contextObjectName : Option String) (maxChars : Nat)

def shows (event : Event E) : Bool := (omissionReason contextObjectName event).isNone

/-- What the loop has gathered of the events so far. -/
structure GatheredFrom (events : List (Event E)) (gathered : Gathered E) : Prop where
  sources : gathered.projectedSources = events.filter (shows contextObjectName)
  records : List.Forall₂ (fun event record => ∃ cut, projectVisibleEvent event maxChars = .ok (record, cut))
    gathered.projectedSources gathered.projected
  counts : ∀ reason, countOf gathered.omittedCounts reason =
    events.countP fun event => omissionReason contextObjectName event = some reason
  all : total gathered.omittedCounts + gathered.projected.length = events.length
  distinct : (Assoc.keys gathered.omittedCounts).Nodup

theorem gather_step {events : List (Event E)} {gathered next : Gathered E} {event : Event E}
    (before : GatheredFrom contextObjectName maxChars events gathered)
    (done : gather contextObjectName maxChars gathered event = .ok next) :
    GatheredFrom contextObjectName maxChars (events ++ [event]) next := by
  rw [gather] at done
  cases reason : omissionReason contextObjectName event with
  | some reason' =>
      simp only [reason] at done
      cases done
      have hidden : shows contextObjectName event = false := by simp [shows, reason]
      refine ⟨?_, before.records, fun other => ?_, ?_, addCount_distinct before.distinct _ _⟩
      · simp [before.sources, hidden]
      · simp [countOf_addCount, before.counts, reason]
      · change total (addCount gathered.omittedCounts reason' 1) + gathered.projected.length = _
        rw [total_addCount, List.length_append, List.length_singleton, ← before.all]
        omega
  | none =>
      simp only [reason] at done
      obtain ⟨⟨record, cut⟩, projected, done⟩ := bind_eq_ok.mp done
      cases done
      have visible : shows contextObjectName event = true := by simp [shows, reason]
      refine ⟨?_, ?_, fun other => ?_, ?_, before.distinct⟩
      · simp [before.sources, visible]
      · exact List.rel_append before.records (.cons ⟨cut, projected⟩ .nil)
      · simp [before.counts, reason]
      · simp only [List.length_append, List.length_singleton, ← before.all]
        omega

theorem gather_all {events : List (Event E)} {gathered : Gathered E}
    (done : events.foldlM (gather contextObjectName maxChars) {} = .ok gathered) :
    GatheredFrom contextObjectName maxChars events gathered := by
  suffices run : ∀ seen start, GatheredFrom contextObjectName maxChars seen start →
      events.foldlM (gather contextObjectName maxChars) start = .ok gathered →
        GatheredFrom contextObjectName maxChars (seen ++ events) gathered from
    run [] {} ⟨rfl, .nil, fun _ => rfl, rfl, List.nodup_nil⟩ done
  clear done
  induction events with
  | nil =>
      intro seen start before done
      cases done
      rwa [List.append_nil]
  | cons event events ih =>
      intro seen start before done
      rw [List.foldlM_cons] at done
      obtain ⟨next, stepped, rest⟩ := bind_eq_ok.mp done
      have later := ih _ next (gather_step contextObjectName maxChars before stepped) rest
      rwa [List.append_assoc] at later

theorem omissionReason_window (event : Event E) :
    omissionReason contextObjectName event ≠ some "recent_window" := by
  intro here
  unfold omissionReason at here
  cases kind : event.type <;> simp only [kind, EventType.value] at here <;>
    (try split_ifs at here) <;> first | cases here | (revert here; decide)

/-- What is kept of the gathered records. -/
structure KeptBatch (events : List (Event E)) (maxVisible : Option Nat) (kept : Gathered E) : Prop where
  newest : kept.projectedSources <:+ events.filter (shows contextObjectName)
  window : kept.projectedSources.length =
    maxVisible.elim (events.filter (shows contextObjectName)).length
      (min (events.filter (shows contextObjectName)).length)
  records : List.Forall₂ (fun event record => ∃ cut, projectVisibleEvent event maxChars = .ok (record, cut))
    kept.projectedSources kept.projected
  reasons : ∀ reason, reason ≠ "recent_window" → countOf kept.omittedCounts reason =
    events.countP fun event => omissionReason contextObjectName event = some reason
  older : countOf kept.omittedCounts "recent_window" =
    (events.filter (shows contextObjectName)).length - kept.projectedSources.length
  all : total kept.omittedCounts + kept.projected.length = events.length
  distinct : (Assoc.keys kept.omittedCounts).Nodup

theorem keepNewest_kept {events : List (Event E)} {gathered : Gathered E} (maxVisible : Option Nat)
    (before : GatheredFrom contextObjectName maxChars events gathered) :
    KeptBatch contextObjectName maxChars events maxVisible (keepNewest maxVisible gathered) := by
  have length := before.records.length_eq
  have none : countOf gathered.omittedCounts "recent_window" = 0 := by
    rw [before.counts, List.countP_eq_zero]
    intro event _
    simpa using omissionReason_window contextObjectName event
  have whole (window : maxVisible.elim gathered.projectedSources.length
      (min gathered.projectedSources.length) = gathered.projectedSources.length) :
      KeptBatch contextObjectName maxChars events maxVisible gathered := by
    refine ⟨?_, ?_, before.records, fun reason _ => before.counts reason, ?_, before.all,
      before.distinct⟩
    · rw [before.sources]
    · rw [← before.sources, window]
    · rw [none, ← before.sources, Nat.sub_self]
  cases maxVisible with
  | none => exact whole rfl
  | some window =>
      rw [keepNewest]
      simp only []
      split_ifs with fits
      · exact whole (Nat.min_eq_left (length ▸ fits))
      · have dropped : gathered.projected.length - window = gathered.projectedSources.length - window := by
          rw [length]
        refine ⟨?_, ?_, List.forall₂_drop _ before.records, fun reason other => ?_, ?_, ?_,
          addCount_distinct before.distinct _ _⟩
        · rw [← before.sources]
          exact List.drop_suffix _ _
        · rw [← before.sources]
          simp only [List.length_drop, Option.elim_some]
          omega
        · rw [countOf_addCount, if_neg (Ne.symm other), Nat.add_zero, before.counts]
        · rw [countOf_addCount, if_pos rfl, none, ← before.sources]
          simp only [List.length_drop]
          omega
        · change total (addCount gathered.omittedCounts _ _) + (gathered.projected.drop _).length = _
          rw [total_addCount, List.length_drop, ← before.all]
          omega

end

/-! ## Batches -/

/-- The payload of a record is within the bound. -/
def Bounded (maxChars : Nat) (record : Fields E.toContextFloats) : Prop :=
  ∃ payload, Fields.get record "payload" = some payload ∧
    (canonicalPromptJson E payload).length ≤ maxChars

/-- A payload whose number of characters can be written down in 179 digits. -/
def Measurable (event : Event E) : Prop :=
  ∀ payload, rawPayload event = .ok payload →
    (canonicalPromptJson E (normalizeJson E (.dict payload))).length < 10 ^ 179

theorem projectVisibleEvent_bounded (hex : HexDigests E) {maxChars : Nat} (room : 512 ≤ maxChars)
    {event : Event E} (measurable : Measurable event) (other : event.type ≠ .processMessageNotice)
    {record : Fields E.toContextFloats} {cut : Bool}
    (done : projectVisibleEvent event maxChars = .ok (record, cut)) : Bounded maxChars record := by
  rw [projectVisibleEvent, if_neg other] at done
  obtain ⟨raw, read, done⟩ := bind_eq_ok.mp done
  obtain ⟨⟨payload, cut'⟩, projected, done⟩ := bind_eq_ok.mp done
  obtain ⟨eventId, -, done⟩ := bind_eq_ok.mp done
  obtain ⟨source, -, done⟩ := bind_eq_ok.mp done
  obtain ⟨target, -, done⟩ := bind_eq_ok.mp done
  cases done
  exact ⟨payload, rfl, boundedPayloadProjection_bounded hex room (measurable raw read) projected⟩

/-- What a projected batch says of the events it was made from: `shown` are those it shows. -/
structure Accounts (contextObjectName : Option String) (payloadMaxChars : Nat)
    (maxVisible : Option Nat) (events shown : List (Event E)) (batch : ProjectedEventBatch E) :
    Prop where
  newest : shown <:+ events.filter (shows contextObjectName)
  window : shown.length = maxVisible.elim (events.filter (shows contextObjectName)).length
    (min (events.filter (shows contextObjectName)).length)
  records : List.Forall₂ (fun event record =>
      (∃ cut, projectVisibleEvent event payloadMaxChars = .ok (record, cut)) ∧
      (event.type ≠ .processMessageNotice → Bounded payloadMaxChars record))
    shown batch.visibleRecords
  reasons : ∀ reason, reason ≠ "recent_window" → countOf batch.omittedCounts reason =
    events.countP fun event => omissionReason contextObjectName event = some reason
  older : countOf batch.omittedCounts "recent_window" =
    (events.filter (shows contextObjectName)).length - shown.length
  all : total batch.omittedCounts + batch.visibleRecords.length = events.length
  types : ∀ type, countOf batch.summary.representedTypeCounts type =
    shown.countP fun event => event.type.value = type

/-- One float, and the digests of the two texts that `smallEvents` are hashed as. -/
def smallEncoding : PromptEncoding where
  Value := Unit
  repr _ := codes "0.0"
  truthy _ := false
  solid _ := ⟨48, rfl, rfl⟩
  finite _ := true
  zero _ := true
  plus _ _ := ()
  sha256 text :=
    if text = codes "[\"e1\",\"e2\"]" then
      codes "c3c4d87674f20090d0f85473d9ef7b05d0d23458f4df0d83a7934412dceb220f"
    else codes "b6f00ef16cc2ccdfd90ed0c17d81aefe06bd4a7965e76ed9ce892b24ae0e7dc8"

def smallEvents : List (Event smallEncoding) :=
  [⟨codes "e1", .toolCompleted, codes "s", none, []⟩,
    ⟨codes "e2", .objectCreated, codes "s", some (codes "o"), [(codes "name", Json.text (codes "n"))]⟩]

end AgentLibOS.Llm
