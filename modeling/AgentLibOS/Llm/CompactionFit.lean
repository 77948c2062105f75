import AgentLibOS.Library.Run
import AgentLibOS.Llm.Compaction

namespace AgentLibOS.Llm
open Library Library.Json Library.Climb Library.Run

variable {F : ContextFloats}

/-! ## The rendered text -/

/-- An entry behind what is rendered before it. -/
def entryText (shown : Json F) : Text := [10, 10] ++ codes "---" ++ [10] ++ stableJson shown

def contextText (staticPrefix : Json F) (shown : List (Json F)) : Text :=
  List.intercalate [10] (contextHeader staticPrefix) ++ shown.flatMap entryText

theorem intercalate_append (separator : Text) {front : List Text} (nonempty : front ≠ [])
    (back : List Text) : List.intercalate separator (front ++ back) =
      List.intercalate separator front ++ back.flatMap (separator ++ ·) := by
  induction front with
  | nil => exact absurd rfl nonempty
  | cons first front ih =>
      cases front with
      | cons second front =>
          rw [List.cons_append, List.cons_append, intercalate_cons, ← List.cons_append,
            ih (List.cons_ne_nil _ _), intercalate_cons, List.append_assoc, List.append_assoc]
      | nil =>
          rw [List.singleton_append, intercalate_single]
          clear ih nonempty
          induction back generalizing first with
          | nil => simp
          | cons next back ih => rw [intercalate_cons, ih, List.flatMap_cons, List.append_assoc]

theorem entryLines_flatten (shown : List (Json F)) :
    (shown.map fun entry => [[], codes "---", stableJson entry]).flatten.flatMap ([10] ++ ·) =
      shown.flatMap entryText := by
  induction shown with
  | nil => rfl
  | cons entry shown ih =>
      rw [List.map_cons, List.flatten_cons, List.flatMap_append, ih, List.flatMap_cons]
      simp [entryText]

theorem contextText_solid (staticPrefix : Json F) {shown : List (Json F)} (nonempty : shown ≠ []) :
    Solid (contextText staticPrefix shown) := by
  obtain ⟨front, last, rfl⟩ := (List.eq_nil_or_concat shown).resolve_left nonempty
  have solid : Solid (stableJson last) := write_solid _ F.solid 0 _
  rw [contextText, List.concat_eq_append, List.flatMap_append, List.flatMap_singleton, entryText]
  exact ((solid.append _).append _).append _

theorem render_eq {payload : Fields F} {entries shown : List (Json F)}
    (listed : Fields.get payload "entries" = some (.list entries)) (nonempty : entries ≠ [])
    (faced : List.Forall₂ (fun entry face => modelFacingEntry entry = .ok face) entries shown) :
    render payload =
      .ok (contextText ((Fields.get payload "static_prefix").getD (.dict [])) shown) := by
  have lines : entries.mapM entryLines =
      .ok (shown.map fun face => [[], codes "---", stableJson face]) := by
    rw [mapM_eq_ok, List.forall₂_map_right_iff]
    refine faced.imp fun entry face known => ?_
    rw [entryLines, known]
    rfl
  have some : shown ≠ [] := by
    rw [← List.length_pos_iff, ← faced.length_eq]
    exact List.length_pos_iff.mpr nonempty
  have header : contextHeader ((Fields.get payload "static_prefix").getD (.dict [])) ≠ [] := by
    simp [contextHeader]
  have text : List.intercalate [10] (contextHeader ((Fields.get payload "static_prefix").getD (.dict []))
      ++ (shown.map fun face => [[], codes "---", stableJson face]).flatten) =
        contextText ((Fields.get payload "static_prefix").getD (.dict [])) shown := by
    rw [intercalate_append [10] header, entryLines_flatten]
    rfl
  have solid := (contextText_solid ((Fields.get payload "static_prefix").getD (.dict [])) some).stripped
  rw [render, listed]
  change (entries.mapM entryLines >>= fun lines => _) = _
  rw [lines]
  change Except.ok (rstrip _) = _
  rw [text, rstrip, solid]

/-! ## What the counts weigh -/

theorem natText_ascii (value : Nat) : (natText value).countP isAscii = (natText value).length := by
  rw [List.countP_eq_length]
  intro c inside
  have digit := natText_digits value c inside
  simp only [isDigit, Bool.and_eq_true, decide_eq_true_iff] at digit
  exact decide_eq_true (by omega)

theorem natText_others (value : Nat) : (natText value).countP isOther = 0 := by
  rw [List.countP_eq_zero]
  intro c inside
  have digit := natText_digits value c inside
  simp only [isDigit, Bool.and_eq_true, decide_eq_true_iff] at digit
  simp only [isOther, isAscii, decide_eq_true_eq]
  omega

section
variable (staticPrefix : Json F) (front : Fields F)

/-- The compact entry as it is rendered. -/
def compactFace (preserved tokens : Nat) : Json F :=
  .dict (front ++ [(codes "preserved_recent_entries", Json.int preserved),
    (codes "compacted_tokens", Json.int tokens)])

/-- The counts add their digits to the text. -/
theorem countP_compacted (p : Nat → Bool) : ∃ base, ∀ (preserved tokens : Nat) (shown : List (Json F)),
    (contextText staticPrefix (compactFace front preserved tokens :: shown)).countP p =
      base + (natText preserved).countP p + (natText tokens).countP p +
        (shown.flatMap entryText).countP p := by
  obtain ⟨base, weighs⟩ := countP_dumps_append F.repr ⟨false, 0, 1, some 2⟩ p front 2
  have field (key : Text) (value : Nat) :
      entryWeight F.repr ⟨false, 0, 1, some 2⟩ p (key, (Json.int value : Json F)) =
        (writeString false key ++ colon :: [32]).countP p + (natText value).countP p := by
    change (writeString false key ++ colon :: ([32] ++ intText (value : Int))).countP p = _
    rw [intText_natCast, ← List.countP_append, List.append_assoc]
    rfl
  refine ⟨(List.intercalate [10] (contextHeader staticPrefix)).countP p +
    ([10, 10] ++ codes "---" ++ [10]).countP p + base +
    (writeString false (codes "preserved_recent_entries") ++ colon :: [32]).countP p +
    (writeString false (codes "compacted_tokens") ++ colon :: [32]).countP p, ?_⟩
  intro preserved tokens shown
  have face := weighs [(codes "preserved_recent_entries", Json.int preserved),
    (codes "compacted_tokens", Json.int tokens)] rfl
  simp only [List.map_cons, List.map_nil, List.sum_cons, List.sum_nil, field] at face
  rw [contextText, List.flatMap_cons, List.countP_append, List.countP_append, entryText,
    List.countP_append, stableJson, compactFace, face]
  ring

/-- The estimate of a compacted text, by the number of digits of its two counts. -/
theorem estimate_compacted : ∃ a n, ∀ (preserved tokens : Nat) (shown : List (Json F)),
    estimateTokens (contextText staticPrefix (compactFace front preserved tokens :: shown)) =
      max 1 ((a + (natText preserved).length + (natText tokens).length +
          (shown.flatMap entryText).countP isAscii + 2) / 3 +
        (n + (shown.flatMap entryText).countP isOther)) := by
  obtain ⟨a, ascii⟩ := countP_compacted staticPrefix front isAscii
  obtain ⟨n, others⟩ := countP_compacted staticPrefix front isOther
  refine ⟨a, n, fun preserved tokens shown => ?_⟩
  rw [estimateTokens_eq, ascii, others]
  simp only [natText_ascii, natText_others, Nat.add_zero]

/-- A compacted text with more entries, or a larger count in it, is not estimated as smaller. -/
theorem estimate_mono {preserved preserved' tokens tokens' : Nat} {shown shown' : List (Json F)}
    (counted : preserved ≤ preserved') (stored : tokens ≤ tokens') (part : shown <:+ shown') :
    estimateTokens (contextText staticPrefix (compactFace front preserved tokens :: shown)) ≤
      estimateTokens (contextText staticPrefix (compactFace front preserved' tokens' :: shown')) := by
  obtain ⟨a, n, estimate⟩ := estimate_compacted staticPrefix front
  have digits := natText_length_mono counted
  have digits' := natText_length_mono stored
  have part' : shown.flatMap entryText <:+ shown'.flatMap entryText := by
    obtain ⟨older, rfl⟩ := part
    rw [List.flatMap_append]
    exact List.suffix_append _ _
  have ascii := part'.sublist.countP_le (p := isAscii)
  have others := part'.sublist.countP_le (p := isOther)
  rw [estimate, estimate]
  omega

/-- A large enough count stands in no longer text than it says. -/
theorem estimate_bounded (preserved : Nat) (shown : List (Json F)) : ∃ bound,
    estimateTokens (contextText staticPrefix (compactFace front preserved bound :: shown)) ≤
      bound := by
  obtain ⟨a, n, estimate⟩ := estimate_compacted staticPrefix front
  refine ⟨a + (natText preserved).length + (shown.flatMap entryText).countP isAscii +
    3 * (n + (shown.flatMap entryText).countP isOther) + 5, ?_⟩
  rw [estimate]
  have digits := natText_length_le (a + (natText preserved).length +
    (shown.flatMap entryText).countP isAscii + 3 * (n + (shown.flatMap entryText).countP isOther) + 5)
  omega

end

/-! ## Compacted payloads -/

section
variable (request : CompactionRequest F) (now : Text) (count : Nat) (method : Text)
  (metadata summary : Json F)

/-- The fields of the compact entry before its counts, without its time. -/
def compactFront : Fields F :=
  [(codes "kind", Json.text (codes "context_compacted")),
    (codes "source_oid", Json.text request.contextOid),
    (codes "source_version", Json.int request.expectedVersion),
    (codes "source_entry_count", Json.int count),
    (codes "source_tokens", Json.int request.sourceTokens),
    (codes "target_tokens", Json.int request.targetTokens),
    (codes "compaction_method", Json.text method),
    (codes "compaction_metadata", metadata),
    (codes "compressor_pids", .list (request.compressorPids.map Json.text)),
    (codes "summary", summary)]

theorem compactEntry_face (preserved tokens : Nat) :
    modelFacingEntry (.dict (compactEntry request now count method metadata summary preserved tokens)) =
      .ok (compactFace (compactFront request count method metadata summary) preserved tokens) := by
  rfl

theorem compactEntry_put (preserved tokens tokens' : Nat) :
    Fields.put (compactEntry request now count method metadata summary preserved tokens)
        "compacted_tokens" (Json.int tokens') =
      compactEntry request now count method metadata summary preserved tokens' := by
  rfl

/-- The payload with these entries behind the compact one. -/
def compactedWith (base : Fields F) (suffix : List (Json F)) (tokens : Nat) : Fields F :=
  withEntries base
    (.dict (compactEntry request now count method metadata summary suffix.length tokens) :: suffix)

theorem compactedWith_set (base : Fields F) (suffix : List (Json F)) (tokens tokens' : Nat) :
    setCompactedTokens (compactedWith request now count method metadata summary base suffix tokens)
        tokens' =
      compactedWith request now count method metadata summary base suffix tokens' := by
  rw [setCompactedTokens, compactedWith, withEntries, Fields.get_put]
  simp only [compactEntry_put, withEntries, Fields.put_put, compactedWith]

/-- What an entry is rendered as. -/
def faceOf (entry : Json F) : Json F := (modelFacingEntry entry).toOption.getD entry

theorem faceOf_ok {entry shown : Json F} (known : modelFacingEntry entry = .ok shown) :
    modelFacingEntry entry = .ok (faceOf entry) := by
  rw [faceOf, known]
  rfl

/-- The estimate of the text that the compacted payload with a stored count is rendered as. -/
def estimateWith (base : Fields F) (suffix : List (Json F)) (tokens : Nat) : Nat :=
  estimateTokens (contextText ((Fields.get base "static_prefix").getD (.dict []))
    (compactFace (compactFront request count method metadata summary) suffix.length tokens ::
      suffix.map faceOf))

theorem estimateWith_mono (base : Fields F) {suffix longer : List (Json F)} (part : suffix <:+ longer)
    {tokens tokens' : Nat} (stored : tokens ≤ tokens') :
    estimateWith request count method metadata summary base suffix tokens ≤
      estimateWith request count method metadata summary base longer tokens' :=
  estimate_mono _ _ part.length_le stored (part.map faceOf)

theorem render_compactedWith (base : Fields F) {suffix : List (Json F)}
    (faced : ∀ entry ∈ suffix, ∃ shown, modelFacingEntry entry = .ok shown) (tokens : Nat) :
    ∃ text, render (compactedWith request now count method metadata summary base suffix tokens) =
        .ok text ∧
      estimateTokens text = estimateWith request count method metadata summary base suffix tokens := by
  have faces : List.Forall₂ (fun entry face => modelFacingEntry entry = .ok face)
      (.dict (compactEntry request now count method metadata summary suffix.length tokens) :: suffix)
      (compactFace (compactFront request count method metadata summary) suffix.length tokens ::
        suffix.map faceOf) := by
    refine .cons (compactEntry_face request now count method metadata summary _ _) ?_
    rw [List.forall₂_map_right_iff, List.forall₂_same]
    intro entry inside
    obtain ⟨shown, known⟩ := faced entry inside
    exact faceOf_ok known
  have staticPrefix : Fields.get (compactedWith request now count method metadata summary base suffix
      tokens) "static_prefix" = Fields.get base "static_prefix" :=
    Fields.get_put_other (by decide) _ _
  refine ⟨_, render_eq (Fields.get_put _ _ _) (List.cons_ne_nil _ _) faces, ?_⟩
  rw [staticPrefix]
  rfl

/-- Every suffix is measured at the least count that its text is estimated at. -/
theorem measure_compactedWith (base : Fields F) {whole : List (Json F)}
    (faced : ∀ entry ∈ whole, ∃ shown, modelFacingEntry entry = .ok shown) :
    ∃ bound, ∀ suffix, suffix <:+ whole → ∃ found,
      Least (estimateWith request count method metadata summary base suffix) found ∧
        ∀ fuel > bound, measureCompactedPayload fuel
          (compactedWith request now count method metadata summary base suffix 0) = .ok found := by
  obtain ⟨bound, bounded⟩ := estimate_bounded ((Fields.get base "static_prefix").getD (.dict []))
    (compactFront request count method metadata summary) whole.length (whole.map faceOf)
  refine ⟨bound, fun suffix part => ?_⟩
  apply climb_least
  · intro tokens
    obtain ⟨text, rendered, estimated⟩ := render_compactedWith request now count method metadata
      summary base (fun entry inside => faced entry (part.subset inside)) tokens
    rw [measuredTokens, compactedWith_set, rendered, ← estimated]
    rfl
  · exact fun tokens tokens' stored =>
      estimateWith_mono request count method metadata summary base (List.suffix_refl _) stored
  · exact (estimateWith_mono request count method metadata summary base part (Nat.le_refl _)).trans
      bounded

end

/-! ## The loop over the candidates -/

/-- A suffix that the loop keeps of the candidates. -/
structure Kept (estimate : List (Json F) → Nat → Nat) (targetTokens : Int)
    (candidates kept : List (Json F)) : Prop where
  suffix : kept <:+ candidates
  plain : ∀ entry ∈ kept, isCompacted entry = false
  fits : kept ≠ [] → ∀ tokens, Least (estimate kept) tokens → tokens ≤ targetTokens
  longest : ∀ longer, longer <:+ candidates → kept.length < longer.length →
    (∀ entry ∈ longer, isCompacted entry = false) →
      ∀ tokens, estimate longer tokens = tokens → targetTokens < tokens

theorem keepFitting_kept {estimate : List (Json F) → Nat → Nat} {payloadWith : List (Json F) → Fields F}
    (targetTokens : Int) {whole : List (Json F)} {bound : Nat}
    (rising : ∀ suffix longer, suffix <:+ longer → ∀ tokens,
      estimate suffix tokens ≤ estimate longer tokens)
    (measured : ∀ suffix, suffix <:+ whole → ∃ found, Least (estimate suffix) found ∧
      ∀ fuel > bound, measureCompactedPayload fuel (payloadWith suffix) = .ok found)
    (older preserved : List (Json F)) (inside : older.reverse ++ preserved <:+ whole)
    (plain : ∀ entry ∈ preserved, isCompacted entry = false)
    (fits : preserved ≠ [] → ∀ tokens, Least (estimate preserved) tokens → tokens ≤ targetTokens) :
    ∃ kept, (∀ fuel > bound,
        keepFitting fuel payloadWith targetTokens older preserved = .ok kept) ∧
      Kept estimate targetTokens (older.reverse ++ preserved) kept := by
  induction older generalizing preserved with
  | nil =>
      refine ⟨preserved, fun _ _ => rfl, List.suffix_refl _, plain, fits, ?_⟩
      intro longer part more
      exact absurd part.length_le (Nat.not_le.mpr more)
  | cons entry older ih =>
      rw [List.reverse_cons, List.append_assoc, List.singleton_append] at inside ⊢
      have here : entry :: preserved <:+ older.reverse ++ entry :: preserved := List.suffix_append _ _
      -- A longer suffix begins at this entry or before it.
      have reaches (longer : List (Json F)) (part : longer <:+ older.reverse ++ entry :: preserved)
          (more : preserved.length < longer.length) : entry :: preserved <:+ longer :=
        List.suffix_of_suffix_length_le here part more
      by_cases compacted : isCompacted entry = true
      · refine ⟨preserved, fun _ _ => ?_, (List.suffix_cons _ _).trans here, plain, fits, ?_⟩
        · rw [keepFitting, if_pos compacted]
        · intro longer part more none
          have first := none entry ((reaches longer part more).subset List.mem_cons_self)
          rw [compacted] at first
          cases first
      · obtain ⟨found, least, ran⟩ := measured (entry :: preserved) (here.trans inside)
        by_cases exceeds : targetTokens < found
        · refine ⟨preserved, fun fuel enough => ?_, (List.suffix_cons _ _).trans here, plain, fits, ?_⟩
          · rw [keepFitting, if_neg compacted, ran fuel enough]
            exact if_pos exceeds
          · intro longer part more _ tokens reported
            have below := least.least tokens
              ((rising _ _ (reaches longer part more) tokens).trans reported.le)
            omega
        · have plain' : ∀ e ∈ entry :: preserved, isCompacted e = false := by
            rw [List.forall_mem_cons]
            exact ⟨Bool.eq_false_iff.mpr compacted, plain⟩
          have fits' : entry :: preserved ≠ [] → ∀ tokens,
              Least (estimate (entry :: preserved)) tokens → tokens ≤ targetTokens := by
            intro _ tokens lowest
            rw [lowest.unique least]
            exact Int.not_lt.mp exceeds
          obtain ⟨kept, loops, keeps⟩ := ih (entry :: preserved) inside plain' fits'
          refine ⟨kept, fun fuel enough => ?_, keeps⟩
          rw [keepFitting, if_neg compacted, ran fuel enough]
          exact (if_neg exceeds).trans (loops fuel enough)

/-! ## Compaction keeps what fits -/

/-- A request that the code takes, with what its checks make of it. -/
structure Admitted (request : CompactionRequest F) (old : List (Json F)) (method : Text)
    (metadata summary : Json F) : Prop where
  summary : validateCompactSummary request.summary = .ok summary
  method : validateCompactionMethod request.compactionMethod = .ok method
  metadata : validateCompactionMetadata request.compactionMetadata = .ok metadata
  entries : Json.elements ((Fields.get request.payload "entries").getD (.list [])) = .ok old
  rendered : ∀ entry ∈ old, ∃ shown, modelFacingEntry entry = .ok shown
  captured : ∃ fields, objectOf (Fields.get request.payload "captured") = .ok fields
  strategy : ∃ fields, objectOf (Fields.get request.payload "cache_strategy") = .ok fields

/-- The result holds an envelope with a suffix of the old entries: the longest that fits. -/
structure KeepsWhatFits (envelope : Nat → Nat → Fields F) (request : CompactionRequest F)
    (old : List (Json F)) (result : CompactedPayload F) (suffix : List (Json F)) : Prop where
  entries : Fields.get result.payload "entries" =
    some (.list (.dict (envelope suffix.length result.compactedTokens) :: suffix))
  recent : suffix <:+ old
  short : (suffix.length : Int) ≤ max 0 request.preserveRecentEntries
  plain : ∀ entry ∈ suffix, isCompacted entry = false
  count : result.preservedCount = suffix.length
  measured : ∃ text, render result.payload = .ok text ∧ estimateTokens text = result.compactedTokens
  fits : suffix ≠ [] → result.compactedTokens ≤ request.targetTokens
  longest : ∀ longer, longer <:+ old → suffix.length < longer.length →
    (longer.length : Int) ≤ max 0 request.preserveRecentEntries →
    (∀ entry ∈ longer, isCompacted entry = false) →
    ∀ tokens text, render (withEntries result.payload (.dict (envelope longer.length tokens) :: longer)) =
      .ok text → estimateTokens text = tokens → request.targetTokens < tokens

theorem recentCandidates_suffix (limit : Int) (old : List (Json F)) :
    recentCandidates limit old <:+ old := by
  rw [recentCandidates]
  split_ifs
  · exact List.nil_suffix
  · exact List.drop_suffix _ _

theorem recentCandidates_length (limit : Int) (old : List (Json F)) :
    ((recentCandidates limit old).length : Int) ≤ max 0 limit := by
  rw [recentCandidates]
  split_ifs
  · exact le_max_left _ _
  · rw [List.length_drop]
    omega

/-- Every suffix within the limit is one of the candidates'. -/
theorem recentCandidates_all {limit : Int} {old longer : List (Json F)} (part : longer <:+ old)
    (short : (longer.length : Int) ≤ max 0 limit) : longer <:+ recentCandidates limit old := by
  have length := part.length_le
  rw [recentCandidates]
  split_ifs with none
  · have empty : longer.length = 0 := by omega
    rw [List.length_eq_zero_iff.mp empty]
  · refine List.suffix_of_suffix_length_le part (List.drop_suffix _ _) ?_
    rw [List.length_drop]
    omega

theorem compaction_keeps_what_fits (now : Text) {request : CompactionRequest F}
    {old : List (Json F)} {method : Text} {metadata summary : Json F}
    (admitted : Admitted request old method metadata summary) :
    ∃ result suffix bound,
      (∀ fuel > bound, buildCompactedPayload fuel now request = .ok result) ∧
      KeepsWhatFits (compactEntry request now old.length method metadata summary) request old result
        suffix := by
  obtain ⟨captured, capturedOk⟩ := admitted.captured
  obtain ⟨strategy, strategyOk⟩ := admitted.strategy
  let base := compactedBase request.payload captured strategy now
    (compactEntry request now old.length method metadata summary 0 0)
  let candidates := recentCandidates request.preserveRecentEntries old
  have recent : candidates <:+ old := recentCandidates_suffix _ _
  have faced : ∀ entry ∈ candidates, ∃ shown, modelFacingEntry entry = .ok shown :=
    fun entry inside => admitted.rendered entry (recent.subset inside)
  obtain ⟨bound, measured⟩ :=
    measure_compactedWith request now old.length method metadata summary base faced
  have same : candidates.reverse.reverse ++ [] = candidates := by
    rw [List.reverse_reverse, List.append_nil]
  obtain ⟨kept, loops, keeps⟩ := keepFitting_kept request.targetTokens
    (fun suffix longer part tokens => estimateWith_mono request old.length method metadata summary
      base part (Nat.le_refl tokens)) measured candidates.reverse [] (by rw [same])
    (fun _ none => absurd none List.not_mem_nil) (fun some => absurd rfl some)
  rw [same] at keeps
  obtain ⟨tokens, least, ran⟩ := measured kept keeps.suffix
  have stays := keeps.suffix.trans recent
  have short : (kept.length : Int) ≤ max 0 request.preserveRecentEntries := by
    have part := Int.ofNat_le.mpr keeps.suffix.length_le
    exact part.trans (recentCandidates_length request.preserveRecentEntries old)
  have rendered (suffix : List (Json F)) (part : suffix <:+ candidates) (tokens : Nat) :=
    render_compactedWith request now old.length method metadata summary base
      (fun entry inside => faced entry (part.subset inside)) tokens
  refine ⟨⟨compactedWith request now old.length method metadata summary base kept tokens, tokens,
    kept.length⟩, kept, bound, ?_, ?_⟩
  · intro fuel enough
    have loop := loops fuel enough
    have run := ran fuel enough
    have set := compactedWith_set request now old.length method metadata summary base kept 0 tokens
    have phases : buildCompactedPayload fuel now request =
        keepFitting fuel (fun suffix => compactedWith request now old.length method metadata summary
          base suffix 0) request.targetTokens candidates.reverse [] >>= fun preserved =>
        measureCompactedPayload fuel (compactedWith request now old.length method metadata summary
          base preserved 0) >>= fun tokens =>
        .ok ⟨setCompactedTokens (compactedWith request now old.length method metadata summary
          base preserved 0) tokens, tokens, preserved.length⟩ := by
      rw [buildCompactedPayload, admitted.summary, admitted.method, admitted.metadata,
        admitted.entries, capturedOk, strategyOk]
      rfl
    rw [phases, loop]
    change measureCompactedPayload fuel _ >>= _ = _
    rw [run]
    change Except.ok (CompactedPayload.mk _ _ _) = _
    rw [set]
  · refine ⟨Fields.get_put _ _ _, stays, short, keeps.plain, rfl, ?_, ?_, ?_⟩
    · obtain ⟨text, shown, estimated⟩ := rendered kept keeps.suffix tokens
      exact ⟨text, shown, estimated.trans least.settled⟩
    · exact fun some => keeps.fits some tokens least
    · intro longer part more limited none tokens' text shown reported
      have inside := recentCandidates_all part limited
      have again : withEntries (compactedWith request now old.length method metadata summary base kept
          tokens) (.dict (compactEntry request now old.length method metadata summary longer.length
            tokens') :: longer) =
          compactedWith request now old.length method metadata summary base longer tokens' :=
        Fields.put_put _ _ _ _
      obtain ⟨text', shown', estimated⟩ := rendered longer inside tokens'
      rw [again, shown', Except.ok.injEq] at shown
      rw [shown, reported] at estimated
      exact keeps.longest longer inside more none tokens' estimated.symm

def noFloats : ContextFloats := ⟨Empty, nofun, nofun, nofun⟩

def smallSummary : Json noFloats :=
  .dict (requiredSummaryFields.map fun name => (codes name, Json.text (codes name)))

def smallEntries : List (Json noFloats) :=
  [.dict [(codes "kind", Json.text (codes "process_started")), (codes "pid", Json.text (codes "p"))],
    Json.text (codes "note")]

def smallRequest : CompactionRequest noFloats where
  contextOid := codes "oid"
  expectedVersion := 1
  payload := [(codes "entries", .list smallEntries)]
  summary := smallSummary
  compactionMethod := codes " manual "
  compactionMetadata := none
  preserveRecentEntries := 2
  sourceTokens := 900
  targetTokens := 400
  compressorPids := [codes "c"]

theorem compaction_keeps_what_fits_small : ∃ result suffix bound,
    (∀ fuel > bound, buildCompactedPayload fuel (codes "now") smallRequest = .ok result) ∧
    KeepsWhatFits (compactEntry smallRequest (codes "now") 2 (codes "manual") (.dict []) smallSummary)
      smallRequest smallEntries result suffix := by
  have admitted : Admitted smallRequest smallEntries (codes "manual") (.dict []) smallSummary := by
    refine ⟨rfl, rfl, rfl, rfl, ?_, ⟨[], rfl⟩, ⟨[], rfl⟩⟩
    rw [smallEntries, List.forall_mem_cons, List.forall_mem_singleton]
    exact ⟨⟨_, rfl⟩, ⟨_, rfl⟩⟩
  exact compaction_keeps_what_fits (codes "now") admitted

end AgentLibOS.Llm
