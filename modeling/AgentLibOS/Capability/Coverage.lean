import AgentLibOS.Capability.Resources

namespace AgentLibOS.Capability.ResourceAuthority
open Library.Text

/-! ## Canonical text -/

/-- What `canonical` guarantees about its result. It does not guarantee a fixed point: dropping the
trailing slash can expose white space. -/
structure CanonicalForm (raw : List Char) : Prop where
  single : doubled '/' raw = false
  head : ∀ c ∈ raw.head?, isSpace c = false
  slash : ['/'] <:+ raw → [':', '/'] <:+ raw

theorem not_suffix_rdropWhile_slash (raw : List Char) : ¬ ['/'] <:+ raw.rdropWhile (· == '/') := by
  rintro ⟨front, shape⟩
  have last := List.rdropWhile_last_not (p := (· == '/')) raw (by rw [← shape]; simp)
  simp [← shape] at last

theorem canonicalText_form (resource : List Char) : CanonicalForm (canonicalText resource) := by
  have single := collapse_single '/' (strip isSpace resource)
  have head : ∀ c ∈ (collapse '/' (strip isSpace resource)).head?, isSpace c = false := by
    rw [collapse_head?]
    exact strip_head isSpace resource
  unfold canonicalText
  generalize collapse '/' (strip isSpace resource) = raw at single head
  dsimp only
  split_ifs with trimmed
  · have le := List.rdropWhile_prefix (fun c => c == '/') raw
    exact ⟨doubled_shorter le single, fun c first => head c (head?_shorter le first),
      fun slash => absurd slash (not_suffix_rdropWhile_slash raw)⟩
  · exact ⟨single, head, fun slash => by_contra fun colon => trimmed ⟨slash, colon⟩⟩

theorem canonicalText_of_form {raw : List Char} (form : CanonicalForm raw) :
    canonicalText raw =
      if ['/'] <:+ raw.rdropWhile isSpace ∧ ¬ [':', '/'] <:+ raw.rdropWhile isSpace
      then (raw.rdropWhile isSpace).rdropWhile (· == '/') else raw.rdropWhile isSpace := by
  have le := List.rdropWhile_prefix isSpace raw
  rw [canonicalText, strip_eq_rdropWhile form.head,
    collapse_of_single (doubled_shorter le form.single)]

/-- Text in canonical form that does not end in white space is a fixed point. -/
theorem canonicalText_eq_self {raw : List Char} {c : Char} (form : CanonicalForm raw)
    (last : [c] <:+ raw) (visible : isSpace c = false) : canonicalText raw = raw := by
  rw [canonicalText_of_form form, rdropWhile_eq_self_of_suffix last visible, if_neg]
  exact fun trimmed => trimmed.2 (form.slash trimmed.1)

/-- A second pass only cuts white space and slashes off the end. -/
theorem canonicalText_cut {raw : List Char} (form : CanonicalForm raw) :
    ∃ cut, raw = canonicalText raw ++ cut ∧ ∀ c ∈ cut, isSpace c = true ∨ c = '/' := by
  obtain ⟨spaces, split, blank⟩ := rdropWhile_append_block isSpace raw
  rw [canonicalText_of_form form]
  generalize raw.rdropWhile isSpace = kept at split
  by_cases trimmed : ['/'] <:+ kept ∧ ¬ [':', '/'] <:+ kept
  · obtain ⟨slashes, kept_split, all_slash⟩ := rdropWhile_append_block (· == '/') kept
    refine ⟨slashes ++ spaces, ?_, ?_⟩
    · rw [if_pos trimmed, ← List.append_assoc, ← kept_split]
      exact split
    · intro c member
      rcases List.mem_append.mp member with h | h
      · exact Or.inr (by simpa using all_slash c h)
      · exact Or.inl (blank c h)
  · refine ⟨spaces, ?_, fun c member => Or.inl (blank c member)⟩
    rw [if_neg trimmed]
    exact split


/-! ## What a parse means -/

/-- How the text `full` after the first colon determines the body of a parsed pattern. -/
def BodyOf (pattern : ResourcePattern) (full : List Char) : Prop :=
  match pattern.scope with
  | .exactScope => full = pattern.body ∧ pattern.body ≠ [] ∧ '*' ∉ pattern.raw
  | .prefixScope => (full = ['*'] ∧ pattern.body = []) ∨ full = pattern.body ++ [':', '*']
  | .subtreeScope => full = pattern.body ++ ['/', '*']

structure Reads (pattern : ResourcePattern) (full : List Char) : Prop where
  raw : pattern.raw = pattern.kind ++ ':' :: full
  kind : pattern.kind ≠ []
  colon : ':' ∉ pattern.kind
  body : BodyOf pattern full

theorem takeWhile_kind {kind : List Char} (full : List Char) (colon : ':' ∉ kind) :
    (kind ++ ':' :: full).takeWhile (· != ':') = kind := by
  rw [List.takeWhile_append_of_pos]
  · simp
  · intro c member
    have : c ≠ ':' := fun same => colon (same ▸ member)
    simpa using this

theorem dropWhile_kind {kind : List Char} (full : List Char) (colon : ':' ∉ kind) :
    ((kind ++ ':' :: full).dropWhile (· != ':')).tail = full := by
  rw [List.dropWhile_append_of_pos]
  · simp
  · intro c member
    have : c ≠ ':' := fun same => colon (same ▸ member)
    simpa using this

theorem split_at_colon {raw : List Char} (typed : ':' ∈ raw) :
    raw = raw.takeWhile (· != ':') ++ ':' :: (raw.dropWhile (· != ':')).tail ∧
      ':' ∉ raw.takeWhile (· != ':') := by
  constructor
  · conv_lhs => rw [← List.takeWhile_append_dropWhile (p := (· != ':')) (l := raw)]
    congr 1
    cases shape : raw.dropWhile (· != ':') with
    | nil =>
        have all := List.dropWhile_eq_nil_iff.mp shape ':' typed
        simp at all
    | cons c rest =>
        have first := List.head?_dropWhile_not (· != ':') raw
        rw [shape] at first
        have colon : c = ':' := by simpa using first
        simp [colon]
  · intro member
    have := List.mem_takeWhile_imp member
    simp at this

theorem dropTwo_append (front : List Char) (a b : Char) : dropTwo (front ++ [a, b]) = front := by
  simp [dropTwo]

/-- Only `kind:*` has a wildcard without a separator of its own inside the body. -/
theorem wildcard_after_kind {kind full : List Char} {sep : Char} (nonempty : full ≠ [])
    (wild : [sep, '*'] <:+ kind ++ ':' :: full) :
    (sep = ':' ∧ full = ['*']) ∨ ∃ body, full = body ++ [sep, '*'] := by
  obtain ⟨front, shape⟩ := wild
  rcases List.eq_nil_or_concat full with rfl | ⟨init, last, rfl⟩
  · exact absurd rfl nonempty
  · rcases List.eq_nil_or_concat init with rfl | ⟨body, penult, rfl⟩
    · have split : front ++ [sep, '*'] = kind ++ [':', last] := by simpa using shape
      have := List.append_inj_right' split rfl
      simp only [List.cons.injEq, and_true] at this
      exact Or.inl ⟨this.1, by simp [← this.2]⟩
    · have split : front ++ [sep, '*'] = (kind ++ ':' :: body) ++ [penult, last] := by
        simpa using shape
      have := List.append_inj_right' split rfl
      simp only [List.cons.injEq, and_true] at this
      exact Or.inr ⟨body, by simp [← this.1, ← this.2]⟩

/-- The body of a subtree pattern has no trailing slash left to strip. -/
theorem subtree_body_settled {kind body : List Char}
    (single : doubled '/' (kind ++ ':' :: (body ++ ['/', '*'])) = false) :
    body.rdropWhile (· == '/') = body := by
  refine List.rdropWhile_eq_self_iff.mpr fun filled slash => ?_
  obtain ⟨front, last, rfl⟩ := List.eq_nil_or_concat body |>.resolve_left filled
  obtain rfl : last = '/' := by simpa using slash
  have pair := doubled_middle '/' (kind ++ ':' :: front) ['*']
  simp_all

theorem parseText_ok {resource : List Char} {requested : Bool} {pattern : ResourcePattern}
    (parsed : parseText resource requested = .ok pattern) :
    pattern.raw = canonicalText resource ∧ (∃ full, Reads pattern full) ∧
      (requested = true → pattern.scope = .prefixScope → pattern.raw = resource) := by
  have form := canonicalText_form resource
  unfold parseText at parsed
  generalize canonicalText resource = raw at form parsed
  dsimp only at parsed
  split_ifs at parsed with globe wild typed empty prefixed fixed subtree
  all_goals cases parsed
  all_goals
    obtain ⟨split, colon⟩ := split_at_colon (by simpa using typed)
    generalize raw.takeWhile (· != ':') = kind at split colon empty
    generalize (raw.dropWhile (· != ':')).tail = full at split empty
    rw [not_or] at empty
  · rw [split] at prefixed
    refine ⟨rfl, ⟨full, split, empty.1, colon, ?_⟩, fun asked _ => ?_⟩
    · rcases wildcard_after_kind empty.2 prefixed with ⟨-, rfl⟩ | ⟨body, rfl⟩
      · exact Or.inl ⟨rfl, rfl⟩
      · exact Or.inr (by simp [dropTwo_append])
    · exact by_contra fun other => fixed ⟨asked, other⟩
  · rw [split] at subtree
    refine ⟨rfl, ⟨full, split, empty.1, colon, ?_⟩, fun _ other => by cases other⟩
    rcases wildcard_after_kind empty.2 subtree with ⟨other, -⟩ | ⟨body, rfl⟩
    · exact absurd other (by decide)
    · have settled := subtree_body_settled (split ▸ form.single)
      simp [BodyOf, dropTwo_append, settled]
  · refine ⟨rfl, ⟨full, split, empty.1, colon, rfl, empty.2, ?_⟩, fun _ other => by cases other⟩
    exact fun star => wild ⟨star, by simp [prefixed, subtree]⟩

/-- Every well-read pattern is what its own text parses to. -/
theorem parseText_of_reads {resource : List Char} {requested : Bool} {pattern : ResourcePattern}
    {full : List Char} (reads : Reads pattern full) (canon : pattern.raw = canonicalText resource)
    (fixed : requested = true → pattern.scope = .prefixScope → pattern.raw = resource) :
    parseText resource requested = .ok pattern := by
  have form := canonicalText_form resource
  obtain ⟨raw, kind, body, scope⟩ := pattern
  obtain ⟨split, nonempty, colon, shape⟩ := reads
  dsimp only at split nonempty colon canon fixed
  unfold parseText
  rw [← canon] at form ⊢
  have typed : ':' ∈ raw := by simp [split]
  have globe : raw ≠ ['*'] := by
    rintro rfl
    simp at typed
  have takes := takeWhile_kind full colon
  have drops := dropWhile_kind full colon
  rw [← split] at takes drops
  simp only [globe, if_false, typed, not_true_eq_false, takes, drops, nonempty, false_or]
  cases scope with
  | exactScope =>
      obtain ⟨rfl, filled, star⟩ := shape
      dsimp only at filled star
      have noPrefix : ¬ [':', '*'] <:+ raw := fun wild => star (wild.subset (by simp))
      have noSubtree : ¬ ['/', '*'] <:+ raw := fun wild => star (wild.subset (by simp))
      simp [star, noPrefix, noSubtree, filled]
  | prefixScope =>
      have wild : [':', '*'] <:+ raw := by
        rcases shape with ⟨rfl, -⟩ | shape
        · exact ⟨kind, split.symm⟩
        · exact ⟨kind ++ ':' :: body, by simp [split, shape]⟩
      have filled : full ≠ [] := by rcases shape with ⟨rfl, -⟩ | rfl <;> simp
      have cut : dropTwo full = body := by
        rcases shape with ⟨rfl, empty⟩ | rfl
        · exact empty.symm
        · exact dropTwo_append _ _ _
      have asked : ¬ (requested = true ∧ raw ≠ resource) := fun h => h.2 (fixed h.1 rfl)
      simp [wild, filled, cut, asked]
  | subtreeScope =>
      change full = body ++ ['/', '*'] at shape
      subst shape
      have wild : ['/', '*'] <:+ raw := ⟨kind ++ ':' :: body, by simp [split]⟩
      have noPrefix : ¬ [':', '*'] <:+ raw := by
        rintro ⟨front, other⟩
        have ends : front ++ [':', '*'] = (kind ++ ':' :: body) ++ ['/', '*'] := by
          simpa [split] using other
        have := List.append_inj_right' ends rfl
        simp at this
      have settled := subtree_body_settled (split ▸ form.single)
      simp [wild, noPrefix, dropTwo_append, settled]

theorem Reads.unique {resource : List Char} {left right : ResourcePattern} {full full' : List Char}
    (hl : Reads left full) (hr : Reads right full') (canon : left.raw = canonicalText resource)
    (same : left.raw = right.raw) : left = right := by
  have parsedLeft := @parseText_of_reads _ false _ _ hl canon (by simp)
  have parsedRight := @parseText_of_reads _ false _ _ hr (same ▸ canon) (by simp)
  exact Except.ok.inj (parsedLeft.symm.trans parsedRight)

/-! ## What a match means -/

theorem selects_iff (pattern : ResourcePattern) {request : ResourcePattern} {full' : List Char}
    (hr : Reads request full') :
    selects pattern request = true ↔ pattern.kind = request.kind ∧
      match pattern.scope with
      | .exactScope => pattern.raw = request.raw
      | .prefixScope => pattern.body = [] ∨ pattern.body ++ [':'] <+: full' ∨ full' = pattern.body
      | .subtreeScope => request.body = pattern.body ∨ pattern.body ++ ['/'] <+: request.body := by
  by_cases same : pattern.kind = request.kind
  · have front : ∀ text : List Char, pattern.kind ++ ':' :: text <+: request.raw ↔ text <+: full' := by
      intro text
      rw [hr.raw, same, List.prefix_append_right_inj, List.cons_prefix_cons]
      simp
    cases scope : pattern.scope with
    | exactScope => simp [selects, same, scope]
    | subtreeScope => simp [selects, same, scope]
    | prefixScope =>
        have bare := front []
        have sub := front (pattern.body ++ [':'])
        have base : request.raw = pattern.kind ++ ':' :: pattern.body ↔ full' = pattern.body := by
          rw [hr.raw, same]
          simp
        have open_ : pattern.kind ++ ':' :: pattern.body ++ [':'] =
            pattern.kind ++ ':' :: (pattern.body ++ [':']) := by simp
        simp only [List.nil_prefix, iff_true] at bare
        by_cases empty : pattern.body = []
        · simp [selects, same.symm, scope, empty, bare]
        · simp only [selects, same.symm, scope, empty, open_, sub, base, ne_eq, not_true_eq_false,
            if_false, decide_eq_true_eq, false_or, true_and]
  · simp [selects, same]

theorem Reads.body_prefix {pattern : ResourcePattern} {full : List Char} (reads : Reads pattern full) :
    pattern.body <+: full := by
  have shape := reads.body
  unfold BodyOf at shape
  cases scope : pattern.scope <;> simp only [scope] at shape
  · rw [shape.1]
  · exact ⟨_, shape.symm⟩
  · rcases shape with ⟨-, empty⟩ | rfl
    · simp [empty]
    · exact List.prefix_append ..

theorem Reads.wildcard_last {pattern : ResourcePattern} {full : List Char}
    (reads : Reads pattern full) (wild : pattern.scope ≠ .exactScope) : ['*'] <:+ pattern.raw := by
  have shape := reads.body
  rw [reads.raw]
  unfold BodyOf at shape
  cases scope : pattern.scope <;> simp only [scope] at shape
  · exact absurd scope wild
  · exact ⟨pattern.kind ++ ':' :: pattern.body ++ ['/'], by simp [shape]⟩
  · rcases shape with ⟨rfl, -⟩ | rfl
    · exact ⟨pattern.kind ++ [':'], by simp⟩
    · exact ⟨pattern.kind ++ ':' :: pattern.body ++ [':'], by simp⟩

/-- A text that ends in two characters other than `a` has no prefix that ends in `a` at its end. -/
theorem prefix_before_wildcard {front body : List Char} {a b : Char} (hb : a ≠ b) (star : a ≠ '*')
    (le : front ++ [a] <+: body ++ [b, '*']) : front ++ [a] <+: body := by
  have split : body ++ [b, '*'] = (body ++ [b]) ++ ['*'] := by simp
  rw [split, List.prefix_concat_iff] at le
  rcases le with same | le
  · exact absurd (List.append_inj_right' same rfl) (by simpa using star)
  · rcases List.prefix_concat_iff.mp le with same | le
    · exact absurd (List.append_inj_right' same rfl) (by simpa using hb)
    · exact le

/-- A request whose text continues `base` with a slash is inside the subtree of `base`. -/
theorem Reads.inside_subtree {request : ResourcePattern} {full base : List Char}
    (reads : Reads request full) (le : base ++ ['/'] <+: full) :
    request.body = base ∨ base ++ ['/'] <+: request.body := by
  have shape := reads.body
  unfold BodyOf at shape
  cases scope : request.scope <;> simp only [scope] at shape
  · exact Or.inr (shape.1 ▸ le)
  · have split : request.body ++ ['/', '*'] = (request.body ++ ['/']) ++ ['*'] := by simp
    rw [shape, split, List.prefix_concat_iff] at le
    rcases le with same | le
    · exact absurd (List.append_inj_right' same rfl) (by simp)
    · rcases List.prefix_concat_iff.mp le with same | le
      · exact Or.inl (List.append_inj_left' same rfl).symm
      · exact Or.inr le
  · rcases shape with ⟨rfl, -⟩ | rfl
    · rcases (@List.prefix_concat_iff _ _ [] _).mp le with same | le
      · exact absurd (congrArg List.getLast? same) (by simp)
      · simp at le
    · exact Or.inr (prefix_before_wildcard (by decide) (by decide) le)

end AgentLibOS.Capability.ResourceAuthority
