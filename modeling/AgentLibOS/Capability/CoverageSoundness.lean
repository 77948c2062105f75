import AgentLibOS.Capability.Coverage

namespace AgentLibOS.Capability.ResourceAuthority
open Library.Text

/-! ## The three patterns that coverage gets wrong -/

/-- Any subtree pattern covers the prefix pattern over its own base, which also selects the
adjacent `base:...` names. -/
def AdjacentPrefix (granted requested : ResourcePattern) : Prop :=
  granted.scope = .subtreeScope ∧ requested.scope = .prefixScope ∧ requested.body = granted.body

/-- The text of a wildcard is itself the base of the granted prefix, as in `k:a:*` under
`k:a:*:*`. -/
def WildcardBase (granted requested : ResourcePattern) : Prop :=
  granted.scope = .prefixScope ∧ requested.scope ≠ .exactScope ∧
    granted.raw = requested.raw ++ [':', '*']

/-- An exact resource whose canonical text is cut again by the second parse, down to the base of
the granted pattern. -/
def CutToBase (granted requested : ResourcePattern) : Prop :=
  requested.scope = .exactScope ∧ granted.body ≠ [] ∧
    canonicalText requested.raw ≠ requested.raw ∧
    canonicalText requested.raw = granted.kind ++ ':' :: granted.body ∧
    (granted.scope = .subtreeScope →
      ¬ granted.kind ++ ':' :: (granted.body ++ ['/']) <+: requested.raw)

def Defect (granted requested : ResourcePattern) : Prop :=
  granted.kind = requested.kind ∧
    (AdjacentPrefix granted requested ∨ WildcardBase granted requested ∨
      CutToBase granted requested)

/-- The condition on the two pattern texts. -/
def CoverageDefect (granted requested : String) : Prop :=
  ∃ G P, parse granted false = .ok G ∧ parse requested false = .ok P ∧ Defect G P

/-! ## The second parse inside `covers` -/

theorem reparse_wildcard {resource : List Char} {P : ResourcePattern} {full : List Char}
    (canon : P.raw = canonicalText resource) (reads : Reads P full)
    (wild : P.scope ≠ .exactScope) : canonicalText P.raw = P.raw :=
  canonicalText_eq_self (canon ▸ canonicalText_form resource) (reads.wildcard_last wild) (by decide)

theorem parse_wildcard {resource : List Char} {P P' : ResourcePattern} {full : List Char}
    (canon : P.raw = canonicalText resource) (reads : Reads P full)
    (wild : P.scope ≠ .exactScope) (again : parseText P.raw true = .ok P') : P' = P := by
  obtain ⟨canon', ⟨full', reads'⟩, -⟩ := parseText_ok again
  have same := reparse_wildcard canon reads wild
  exact (Reads.unique reads reads' canon (by rw [canon', same])).symm

/-- Reading an exact resource again keeps its kind and cuts its body. -/
theorem parse_exact {resource : List Char} {P P' : ResourcePattern} {full : List Char}
    (canon : P.raw = canonicalText resource) (reads : Reads P full) (exact : P.scope = .exactScope)
    (again : parseText P.raw true = .ok P') :
    P'.raw = canonicalText P.raw ∧ Reads P' P'.body ∧ P'.scope = .exactScope ∧
      P'.kind = P.kind ∧ ∃ cut, P.body = P'.body ++ cut ∧
        ∀ c ∈ cut, isSpace c = true ∨ c = '/' := by
  obtain ⟨canon', ⟨full', reads'⟩, -⟩ := parseText_ok again
  obtain ⟨cut, split, cutChars⟩ := canonicalText_cut (canon ▸ canonicalText_form resource)
  have shape := reads.body
  simp only [BodyOf, exact] at shape
  obtain ⟨rfl, -, star⟩ := shape
  have scope' : P'.scope = .exactScope := by
    by_contra wild
    refine star ?_
    rw [split, ← canon']
    exact List.mem_append_left _ ((reads'.wildcard_last wild).subset (by simp))
  have shape' := reads'.body
  simp only [BodyOf, scope'] at shape'
  obtain ⟨rfl, -, -⟩ := shape'
  have same : P'.kind = P.kind := by
    have inner := takeWhile_kind (P'.body ++ cut) reads'.colon
    have outer := takeWhile_kind P.body reads.colon
    rw [← List.cons_append, ← List.append_assoc, ← reads'.raw, canon', ← split] at inner
    rw [← reads.raw] at outer
    exact inner.symm.trans outer
  refine ⟨canon', reads', scope', same, cut, ?_, cutChars⟩
  rw [← canon', reads.raw, reads'.raw, same, List.append_assoc, List.append_cancel_left_eq,
    List.cons_append, List.cons.injEq] at split
  exact split.2

/-! ## Coverage of a wildcard -/

theorem prefix_over_prefix {G P : ResourcePattern} {fullP fullR : List Char}
    (readsP : Reads P fullP) (hP : P.scope = .prefixScope) (base : fullP ≠ G.body)
    (covered : G.body = [] ∨ G.body ++ [':'] <+: fullP ∨ fullP = G.body)
    (hit : P.body = [] ∨ P.body ++ [':'] <+: fullR ∨ fullR = P.body) :
    G.body = [] ∨ G.body ++ [':'] <+: fullR ∨ fullR = G.body := by
  have shape := readsP.body
  simp only [BodyOf, hP] at shape
  rcases covered with empty | le | same
  · exact Or.inl empty
  · rcases shape with ⟨rfl, -⟩ | rfl
    · have short := le.length_le
      have : G.body = [] := by simpa using short
      exact Or.inl this
    · have split : P.body ++ [':', '*'] = (P.body ++ [':']) ++ ['*'] := by simp
      rw [split, List.prefix_concat_iff] at le
      rcases le with same | le
      · exact absurd (List.append_inj_right' same rfl) (by simp)
      rcases List.prefix_concat_iff.mp le with same | le
      · rw [List.append_inj_left' same rfl]
        exact hit
      · rcases hit with empty | hit | hit
        · rw [empty] at le
          simp at le
        · exact Or.inr (Or.inl (le.trans ((List.prefix_append ..).trans hit)))
        · exact Or.inr (Or.inl (hit ▸ le))
  · exact absurd same base

theorem prefix_over_subtree {G P R : ResourcePattern} {fullP fullR : List Char}
    (readsP : Reads P fullP) (readsR : Reads R fullR) (hP : P.scope = .subtreeScope)
    (base : fullP ≠ G.body)
    (covered : G.body = [] ∨ G.body ++ [':'] <+: fullP ∨ fullP = G.body)
    (hit : R.body = P.body ∨ P.body ++ ['/'] <+: R.body) :
    G.body = [] ∨ G.body ++ [':'] <+: fullR ∨ fullR = G.body := by
  have shape := readsP.body
  simp only [BodyOf, hP] at shape
  rcases covered with empty | le | same
  · exact Or.inl empty
  · subst shape
    have inside := prefix_before_wildcard (by decide) (by decide) le
    have below : P.body <+: R.body := by
      rcases hit with same | le
      · rw [same]
      · exact (List.prefix_append ..).trans le
    exact Or.inr (Or.inl (inside.trans (below.trans readsR.body_prefix)))
  · exact absurd same base

theorem subtree_over_prefix {G P R : ResourcePattern} {fullR : List Char}
    (readsR : Reads R fullR) (base : P.body ≠ G.body)
    (covered : P.body = G.body ∨ G.body ++ ['/'] <+: P.body)
    (hit : P.body = [] ∨ P.body ++ [':'] <+: fullR ∨ fullR = P.body) :
    R.body = G.body ∨ G.body ++ ['/'] <+: R.body := by
  have le := covered.resolve_left base
  refine readsR.inside_subtree ?_
  rcases hit with empty | hit | hit
  · rw [empty] at le
    simp at le
  · exact le.trans ((List.prefix_append ..).trans hit)
  · exact hit ▸ le

theorem subtree_over_subtree {G P R : ResourcePattern}
    (covered : P.body = G.body ∨ G.body ++ ['/'] <+: P.body)
    (hit : R.body = P.body ∨ P.body ++ ['/'] <+: R.body) :
    R.body = G.body ∨ G.body ++ ['/'] <+: R.body := by
  rcases covered with same | le
  · exact same ▸ hit
  · rcases hit with same | hit
    · exact Or.inr (same ▸ le)
    · exact Or.inr (le.trans ((List.prefix_append ..).trans hit))

theorem wildcard_sound {G P R : ResourcePattern} {fullG fullP fullR : List Char}
    (readsG : Reads G fullG) (readsP : Reads P fullP) (readsR : Reads R fullR)
    (wild : P.scope ≠ .exactScope) (fine : ¬ Defect G P) (covered : selects G P = true)
    (hit : selects P R = true) : selects G R = true := by
  rw [selects_iff _ readsP] at covered
  rw [selects_iff _ readsR] at hit ⊢
  obtain ⟨kind, covered⟩ := covered
  obtain ⟨kind', hit⟩ := hit
  refine ⟨kind.trans kind', ?_⟩
  have fine' : ¬ AdjacentPrefix G P ∧ ¬ WildcardBase G P :=
    ⟨fun h => fine ⟨kind, Or.inl h⟩, fun h => fine ⟨kind, Or.inr (Or.inl h)⟩⟩
  cases hG : G.scope with
  | exactScope =>
      simp only [hG] at covered
      have shape := readsG.body
      simp only [BodyOf, hG] at shape
      have star := (readsP.wildcard_last wild).subset (List.mem_singleton.mpr rfl)
      exact absurd (covered ▸ star) shape.2.2
  | prefixScope =>
      simp only [hG] at covered ⊢
      by_cases base : fullP = G.body
      · have shape := readsG.body
        simp only [BodyOf, hG] at shape
        have filled : G.body ≠ [] := by
          have tail := (readsP.wildcard_last wild)
          rintro empty
          rw [readsP.raw, base, empty] at tail
          have := List.append_inj_right' (tail.choose_spec) rfl
          simp at this
        rcases shape with ⟨-, empty⟩ | full
        · exact absurd empty filled
        · refine absurd ⟨hG, wild, ?_⟩ fine'.2
          simp [readsG.raw, readsP.raw, kind, full, base]
      · cases hP : P.scope with
        | exactScope => exact absurd hP wild
        | prefixScope =>
            simp only [hP] at hit
            exact prefix_over_prefix readsP hP base covered hit
        | subtreeScope =>
            simp only [hP] at hit
            exact prefix_over_subtree readsP readsR hP base covered hit
  | subtreeScope =>
      simp only [hG] at covered ⊢
      cases hP : P.scope with
      | exactScope => exact absurd hP wild
      | prefixScope =>
          simp only [hP] at hit
          exact subtree_over_prefix readsR (fun base => fine'.1 ⟨hG, hP, base⟩) covered hit
      | subtreeScope =>
          simp only [hP] at hit
          exact subtree_over_subtree covered hit

/-! ## Coverage of an exact resource -/

theorem exact_selects {P R : ResourcePattern} {fullP fullR resource : List Char}
    (canon : P.raw = canonicalText resource) (readsP : Reads P fullP) (readsR : Reads R fullR)
    (exact : P.scope = .exactScope) (hit : selects P R = true) : R = P := by
  rw [selects_iff _ readsR] at hit
  simp only [exact] at hit
  exact (Reads.unique readsP readsR canon hit.2).symm

/-- The second reading decides what covers an exact resource, the first one what it is. -/
theorem exact_selected_iff {G P P' : ResourcePattern} {full cut : List Char} (readsG : Reads G full)
    (readsP : Reads P P.body) (readsP' : Reads P' P'.body) (hP : P.scope = .exactScope)
    (hP' : P'.scope = .exactScope) (canon' : P'.raw = canonicalText P.raw)
    (kind : P'.kind = P.kind) (split : P.body = P'.body ++ cut)
    (cutChars : ∀ c ∈ cut, isSpace c = true ∨ c = '/') (covered : selects G P' = true) :
    selects G P = true ↔ ¬ CutToBase G P := by
  rw [selects_iff _ readsP'] at covered
  rw [selects_iff _ readsP]
  obtain ⟨kind', covered⟩ := covered
  have cutting : CutToBase G P ↔ G.body ≠ [] ∧ P'.body ≠ P.body ∧ P'.body = G.body ∧
      (G.scope = .subtreeScope → ¬ G.body ++ ['/'] <+: P.body) := by
    have continued : G.kind ++ ':' :: (G.body ++ ['/']) <+: P.raw ↔ G.body ++ ['/'] <+: P.body := by
      rw [readsP.raw, kind', kind, List.prefix_append_right_inj, List.cons_prefix_cons]
      simp
    rw [CutToBase, continued, ← canon', readsP'.raw, readsP.raw, kind', kind]
    simp [hP]
  have filled : P'.body ≠ [] := by
    have shape := readsP'.body
    simp only [BodyOf, hP'] at shape
    exact shape.2.1
  rw [cutting]
  simp only [kind', kind, true_and]
  cases hG : G.scope with
  | exactScope =>
      have shape := readsG.body
      simp only [BodyOf, hG] at shape covered ⊢
      have same : P'.body = G.body := by
        rw [readsG.raw, readsP'.raw, shape.1, kind'] at covered
        simpa using covered.symm
      have whole : G.raw = P.raw ↔ P'.body = P.body := by
        rw [covered, readsP'.raw, readsP.raw, kind]
        simp
      rw [whole]
      constructor
      · exact fun fixed moved => moved.2.1 fixed
      · exact fun fine => by_contra fun moved => fine ⟨shape.2.1, moved, same, by simp⟩
  | prefixScope =>
      simp only [hG] at covered ⊢
      constructor
      · rintro hit ⟨nonempty, moved, same, -⟩
        rcases hit with empty | le | whole
        · exact nonempty empty
        · rw [split, same, List.prefix_append_right_inj] at le
          have colon := cutChars ':' (le.subset (List.mem_singleton.mpr rfl))
          exact absurd colon (by decide)
        · exact moved (same.trans whole.symm)
      · intro fine
        rcases covered with empty | le | same
        · exact Or.inl empty
        · exact Or.inr (Or.inl (split ▸ le.trans (List.prefix_append ..)))
        · by_cases moved : P'.body = P.body
          · exact Or.inr (Or.inr (moved.symm.trans same))
          · exact absurd ⟨same ▸ filled, moved, same, by simp⟩ fine
  | subtreeScope =>
      simp only [hG] at covered ⊢
      constructor
      · rintro hit ⟨-, moved, same, other⟩
        rcases hit with whole | le
        · exact moved (same.trans whole.symm)
        · exact other trivial le
      · intro fine
        rcases covered with same | le
        · by_cases moved : P'.body = P.body
          · exact Or.inl (moved.symm.trans same)
          · exact Or.inr (by_contra fun other => fine ⟨same ▸ filled, moved, same, fun _ => other⟩)
        · exact Or.inr (split ▸ le.trans (List.prefix_append ..))

/-! ## Requests that slip through a defect -/

/-- `base:x:*`, a request that only the prefix pattern over `base` selects. -/
def adjacentRequest (P : ResourcePattern) : ResourcePattern :=
  ⟨P.kind ++ ':' :: (P.body ++ [':', 'x', ':', '*']), P.kind, P.body ++ [':', 'x'], .prefixScope⟩

/-- `base/x/*`. -/
def nestedRequest (P : ResourcePattern) : ResourcePattern :=
  ⟨P.kind ++ ':' :: (P.body ++ ['/', 'x', '/', '*']), P.kind, P.body ++ ['/', 'x'], .subtreeScope⟩

theorem wildcard_parses {R : ResourcePattern} {full : List Char} (reads : Reads R full)
    (single : doubled '/' R.raw = false) (head : ∀ c ∈ R.raw.head?, isSpace c = false)
    (wild : R.scope ≠ .exactScope) (requested : Bool) : parseText R.raw requested = .ok R := by
  have last := reads.wildcard_last wild
  have form : CanonicalForm R.raw := ⟨single, head, fun slash =>
    absurd (List.suffix_of_suffix_length_le last slash le_rfl) (by decide)⟩
  exact parseText_of_reads reads (canonicalText_eq_self form last (by decide)).symm
    (fun _ _ => rfl)

theorem head_of_kind {kind left right : List Char} (filled : kind ≠ []) :
    (kind ++ left).head? = (kind ++ right).head? := by
  cases kind <;> simp_all

theorem adjacentRequest_reads {P : ResourcePattern} {full : List Char} (reads : Reads P full) :
    Reads (adjacentRequest P) (P.body ++ [':', 'x', ':', '*']) :=
  ⟨rfl, reads.kind, reads.colon, Or.inr (by simp [adjacentRequest])⟩

theorem nestedRequest_reads {P : ResourcePattern} {full : List Char} (reads : Reads P full) :
    Reads (nestedRequest P) (P.body ++ ['/', 'x', '/', '*']) :=
  ⟨rfl, reads.kind, reads.colon, by simp [BodyOf, nestedRequest]⟩

theorem adjacentRequest_parses {P : ResourcePattern} {full : List Char} (reads : Reads P full)
    (form : CanonicalForm P.raw) (requested : Bool) :
    parseText (adjacentRequest P).raw requested = .ok (adjacentRequest P) := by
  refine wildcard_parses (adjacentRequest_reads reads) ?_ ?_ (by simp [adjacentRequest]) requested
  · have base := form.single
    obtain ⟨rest, shape⟩ := reads.body_prefix
    have below : P.kind ++ ':' :: P.body <+: P.raw := ⟨rest, by simp [reads.raw, ← shape]⟩
    have split : (adjacentRequest P).raw = (P.kind ++ ':' :: P.body) ++ ':' :: ['x', ':', '*'] := by
      simp [adjacentRequest]
    rw [split, doubled_split (by decide), doubled_shorter below base]
    decide
  · rw [(adjacentRequest_reads reads).raw]
    have head := form.head
    rw [reads.raw] at head
    exact (head_of_kind reads.kind).symm ▸ head

theorem nestedRequest_parses {P : ResourcePattern} {full : List Char} (reads : Reads P full)
    (form : CanonicalForm P.raw) (hP : P.scope = .subtreeScope) (requested : Bool) :
    parseText (nestedRequest P).raw requested = .ok (nestedRequest P) := by
  refine wildcard_parses (nestedRequest_reads reads) ?_ ?_ (by simp [nestedRequest]) requested
  · have shape := reads.body
    simp only [BodyOf, hP] at shape
    have below : P.kind ++ ':' :: P.body ++ ['/'] <+: P.raw := ⟨['*'], by simp [reads.raw, shape]⟩
    have split : (nestedRequest P).raw = (P.kind ++ ':' :: P.body ++ ['/']) ++ 'x' :: ['/', '*'] := by
      simp [nestedRequest]
    rw [split, doubled_split (by decide), doubled_shorter below form.single]
    decide
  · rw [(nestedRequest_reads reads).raw]
    have head := form.head
    rw [reads.raw] at head
    exact (head_of_kind reads.kind).symm ▸ head

theorem slash_not_in_adjacent {P : ResourcePattern} :
    (adjacentRequest P).body ≠ P.body ∧ ¬ P.body ++ ['/'] <+: (adjacentRequest P).body := by
  refine ⟨by simp [adjacentRequest], fun le => ?_⟩
  rw [adjacentRequest, List.prefix_append_right_inj] at le
  simp at le

theorem wildcard_base {G P : ResourcePattern} {fullG fullP : List Char} (readsG : Reads G fullG)
    (readsP : Reads P fullP) (kind : G.kind = P.kind) (hG : G.scope = .prefixScope)
    (longer : G.raw = P.raw ++ [':', '*']) : G.body = fullP := by
  have shape := readsG.body
  rw [readsG.raw, readsP.raw, kind] at longer
  simp only [BodyOf, hG] at shape
  have whole : fullG = fullP ++ [':', '*'] := by simpa using longer
  rcases shape with ⟨star, -⟩ | full
  · have lengths := congrArg List.length (star.symm.trans whole)
    simp at lengths
  · exact List.append_cancel_right (full.symm.trans whole)

/-- Every wildcard defect has a request that the covered pattern selects and the covering one does
not. -/
theorem wildcard_unsound {G P : ResourcePattern} {fullG fullP : List Char} (readsG : Reads G fullG)
    (readsP : Reads P fullP) (form : CanonicalForm P.raw) (wild : P.scope ≠ .exactScope)
    (defect : Defect G P) :
    ∃ R, parseText R.raw true = .ok R ∧ selects P R = true ∧ selects G R = false := by
  obtain ⟨kind, ⟨hG, hP, base⟩ | ⟨hG, -, longer⟩ | cut⟩ := defect
  · refine ⟨adjacentRequest P, adjacentRequest_parses readsP form true, ?_, ?_⟩
    · rw [selects_iff _ (adjacentRequest_reads readsP)]
      refine ⟨rfl, ?_⟩
      simp only [hP]
      exact Or.inr (Or.inl ⟨['x', ':', '*'], by simp⟩)
    · rw [Bool.eq_false_iff, Ne, selects_iff _ (adjacentRequest_reads readsP)]
      rintro ⟨-, hit⟩
      simp only [hG, ← base] at hit
      exact hit.elim slash_not_in_adjacent.1 slash_not_in_adjacent.2
  · have base := wildcard_base readsG readsP kind hG longer
    have shape := readsP.body
    cases hP : P.scope with
    | exactScope => exact absurd hP wild
    | prefixScope =>
        simp only [BodyOf, hP] at shape
        refine ⟨adjacentRequest P, adjacentRequest_parses readsP form true, ?_, ?_⟩
        · rw [selects_iff _ (adjacentRequest_reads readsP)]
          refine ⟨rfl, ?_⟩
          simp only [hP]
          exact Or.inr (Or.inl ⟨['x', ':', '*'], by simp⟩)
        · rw [Bool.eq_false_iff, Ne, selects_iff _ (adjacentRequest_reads readsP)]
          rintro ⟨-, hit⟩
          simp only [hG, base] at hit
          rcases shape with ⟨rfl, empty⟩ | rfl
          · simp [empty] at hit
          · simp [List.prefix_append_right_inj] at hit
    | subtreeScope =>
        simp only [BodyOf, hP] at shape
        refine ⟨nestedRequest P, nestedRequest_parses readsP form hP true, ?_, ?_⟩
        · rw [selects_iff _ (nestedRequest_reads readsP)]
          refine ⟨rfl, ?_⟩
          simp only [hP]
          exact Or.inr ⟨['x'], by simp [nestedRequest]⟩
        · rw [Bool.eq_false_iff, Ne, selects_iff _ (nestedRequest_reads readsP)]
          rintro ⟨-, hit⟩
          simp only [hG, base, shape] at hit
          simp [List.prefix_append_right_inj] at hit
  · exact absurd cut.1 wild

/-! ## When coverage is sound -/

theorem coversText_iff {granted requested : List Char} :
    coversText granted requested = true ↔ ∃ G P P', parseText granted false = .ok G ∧
      parseText requested false = .ok P ∧ parseText P.raw true = .ok P' ∧ selects G P' = true := by
  unfold coversText matchesText
  cases parseText requested false with
  | error _ => simp
  | ok P =>
      cases parseText granted false with
      | error _ => simp
      | ok G =>
          cases h : parseText P.raw true with
          | error _ => simp [h]
          | ok P' => simp [h]

theorem matchesText_iff {granted requested : List Char} :
    matchesText granted requested = true ↔ ∃ G R, parseText granted false = .ok G ∧
      parseText requested true = .ok R ∧ selects G R = true := by
  unfold matchesText
  cases parseText granted false with
  | error _ => simp
  | ok G =>
      cases parseText requested true with
      | error _ => simp
      | ok R => simp

/-- Coverage at the level of parsed patterns: `R` ranges over what requests parse to. -/
theorem patterns_sound_iff {granted requested : List Char} {G P P' : ResourcePattern}
    (parsedG : parseText granted false = .ok G) (parsedP : parseText requested false = .ok P)
    (again : parseText P.raw true = .ok P') (covered : selects G P' = true) :
    (∀ resource R, parseText resource true = .ok R → selects P R = true → selects G R = true) ↔
      ¬ Defect G P := by
  obtain ⟨canonG, ⟨fullG, readsG⟩, -⟩ := parseText_ok parsedG
  obtain ⟨canonP, ⟨fullP, readsP⟩, -⟩ := parseText_ok parsedP
  by_cases exact : P.scope = .exactScope
  · have shape := readsP.body
    simp only [BodyOf, exact] at shape
    obtain ⟨rfl, -, -⟩ := shape
    obtain ⟨canon', readsP', hP', kind, cut, split, cutChars⟩ := parse_exact canonP readsP exact again
    have decided := exact_selected_iff readsG readsP readsP' exact hP' canon' kind split cutChars
      covered
    have kindG : G.kind = P.kind := by
      rw [selects_iff _ readsP'] at covered
      exact covered.1.trans kind
    have onlyCut : Defect G P ↔ CutToBase G P := by
      simp [Defect, kindG, AdjacentPrefix, WildcardBase, exact]
    rw [onlyCut, ← decided]
    constructor
    · intro sound
      refine sound requested P ?_ ?_
      · exact parseText_of_reads readsP canonP (by simp [exact])
      · rw [selects_iff _ readsP]
        simp [exact]
    · intro whole resource R parsedR hit
      obtain ⟨-, ⟨fullR, readsR⟩, -⟩ := parseText_ok parsedR
      exact (exact_selects canonP readsP readsR exact hit).symm ▸ whole
  · obtain rfl := parse_wildcard canonP readsP exact again
    constructor
    · intro sound defect
      obtain ⟨R, parsedR, hit, miss⟩ :=
        wildcard_unsound readsG readsP (canonP ▸ canonicalText_form requested) exact defect
      exact absurd (sound R.raw R parsedR hit) (by simp [miss])
    · intro fine resource R parsedR hit
      obtain ⟨-, ⟨fullR, readsR⟩, -⟩ := parseText_ok parsedR
      exact wildcard_sound readsG readsP readsR exact fine covered hit

theorem defect_covered {requested : List Char} {G P : ResourcePattern} {fullG fullP : List Char}
    (readsG : Reads G fullG) (readsP : Reads P fullP) (canonP : P.raw = canonicalText requested)
    (defect : Defect G P) : ∃ P', parseText P.raw true = .ok P' ∧ selects G P' = true := by
  obtain ⟨kind, ⟨hG, hP, base⟩ | ⟨hG, wild, longer⟩ | ⟨hP, filled, -, cut, -⟩⟩ := defect
  · have settled := reparse_wildcard canonP readsP (by simp [hP])
    refine ⟨P, parseText_of_reads readsP settled.symm (fun _ _ => rfl), ?_⟩
    rw [selects_iff _ readsP]
    simp [kind, hG, base]
  · have settled := reparse_wildcard canonP readsP wild
    refine ⟨P, parseText_of_reads readsP settled.symm (fun _ _ => rfl), ?_⟩
    rw [selects_iff _ readsP]
    simp [kind, hG, wildcard_base readsG readsP kind hG longer]
  · obtain ⟨tail, split, -⟩ := canonicalText_cut (canonP ▸ canonicalText_form requested)
    have star : '*' ∉ canonicalText P.raw := by
      have shape := readsP.body
      simp only [BodyOf, hP] at shape
      exact fun member => shape.2.2 (split ▸ List.mem_append_left _ member)
    let P' : ResourcePattern := ⟨canonicalText P.raw, G.kind, G.body, .exactScope⟩
    have readsP' : Reads P' G.body := ⟨cut, readsG.kind, readsG.colon, rfl, filled, star⟩
    refine ⟨P', parseText_of_reads readsP' rfl (by simp [P']), ?_⟩
    rw [selects_iff _ readsP']
    refine ⟨rfl, ?_⟩
    have shape := readsG.body
    cases hG : G.scope with
    | exactScope =>
        simp only [BodyOf, hG] at shape
        rw [readsG.raw, shape.1]
        exact cut.symm
    | prefixScope => exact Or.inr (Or.inr rfl)
    | subtreeScope => exact Or.inl rfl

/-- `covers granted requested` promises that `requested` selects nothing `granted` does not. The
promise is kept exactly outside the three defects. -/
theorem covers_sound_iff (granted requested : String) :
    (covers granted requested = true → ∀ resource, «matches» requested resource = true →
      «matches» granted resource = true) ↔ ¬ CoverageDefect granted requested := by
  have promise : ∀ {G P P' : ResourcePattern}, parse granted false = .ok G →
      parse requested false = .ok P → parseText P.raw true = .ok P' → selects G P' = true →
      ((∀ resource, «matches» requested resource = true → «matches» granted resource = true) ↔
        ¬ Defect G P) := by
    intro G P P' parsedG parsedP again hit
    rw [← patterns_sound_iff parsedG parsedP again hit]
    constructor
    · intro sound resource R parsedR selected
      have reached := sound (String.ofList resource) <|
        matchesText_iff.mpr ⟨P, R, parsedP, by simpa using parsedR, selected⟩
      obtain ⟨G', R', parsedG', parsedR', selected'⟩ := matchesText_iff.mp reached
      rw [parse] at parsedG
      rw [parsedG] at parsedG'
      rw [String.toList_ofList, parsedR] at parsedR'
      cases parsedG'
      cases parsedR'
      exact selected'
    · intro sound resource reached
      obtain ⟨P', R, parsedP', parsedR, selected⟩ := matchesText_iff.mp reached
      rw [parse] at parsedP
      rw [parsedP] at parsedP'
      cases parsedP'
      exact matchesText_iff.mpr ⟨G, R, parsedG, parsedR, sound _ R parsedR selected⟩
  constructor
  · rintro sound ⟨G, P, parsedG, parsedP, defect⟩
    obtain ⟨-, ⟨fullG, readsG⟩, -⟩ := parseText_ok parsedG
    obtain ⟨canonP, ⟨fullP, readsP⟩, -⟩ := parseText_ok parsedP
    obtain ⟨P', again, hit⟩ := defect_covered readsG readsP canonP defect
    have covered : covers granted requested = true :=
      coversText_iff.mpr ⟨G, P, P', parsedG, parsedP, again, hit⟩
    exact (promise parsedG parsedP again hit).mp (sound covered) defect
  · intro fine covered
    obtain ⟨G, P, P', parsedG, parsedP, again, hit⟩ := coversText_iff.mp covered
    exact (promise parsedG parsedP again hit).mpr fun defect =>
      fine ⟨G, P, parsedG, parsedP, defect⟩

/-- A subtree pattern covers the prefix pattern over its base, but not the names it selects. -/
theorem covers_adjacent_prefix_unsound :
    ¬ ∀ granted requested, covers granted requested = true → ∀ resource,
      «matches» requested resource = true → «matches» granted resource = true := by
  intro sound
  have reached := sound "filesystem:workspace:src/*" "filesystem:workspace:src:*" (by decide)
    "filesystem:workspace:src:key" (by decide)
  exact absurd reached (by decide)

example : covers "object:a:*:*" "object:a:*" = true := by decide
example : covers "object:a:b" "object:a:b /" = true := by decide

end AgentLibOS.Capability.ResourceAuthority
