import AgentLibOS.Capability.CoverageSoundness
import AgentLibOS.Capability.Manager

namespace AgentLibOS.Capability
open ResourceAuthority

namespace CapabilityManager

/-! ## Overlapping resources -/

/-- The text ends in `:*` or `/*` as it is written. -/
def endsInWildcard (resource : List Char) : Bool :=
  [':', '*'].isSuffixOf resource || ['/', '*'].isSuffixOf resource

def overlapText (left right : List Char) : Bool :=
  match parseText left false, parseText right false with
  | .ok leftPattern, .ok rightPattern =>
      if leftPattern.kind ≠ rightPattern.kind then false
      else if matchesText left right || matchesText right left then true
      else if endsInWildcard left || endsInWildcard right then
        rightPattern.body.isPrefixOf leftPattern.body ||
          leftPattern.body.isPrefixOf rightPattern.body
      else false
  | _, _ => left == right

/-- `resources_overlap`. -/
def resourcesOverlap (left right : String) : Bool := overlapText left.toList right.toList

/-! ## Rights that survive a transition -/

section Transition
variable (engine : Engine) (config : CapabilityConfig) (store : AuthorityStore) (now : Int)

/-- `authorize`: a match whose stored constraints are not valid counts with a constraint that nothing
meets. -/
def authorize (constraintError : Capability → Option String) (chains : String → List String)
    (subject resource right : String) (context : Dict) :
    Except AuthorityError CapabilityDecision :=
  match store.matchingCapabilities now subject resource right with
  | .error denied => .error (.denied denied.message)
  | .ok caps =>
      let evaluated := caps.map fun cap =>
        if (constraintError cap).isSome then
          { cap with constraints := [("invalid_persisted_constraint", .bool true)] }
        else cap
      match CapabilityEvaluator.decide engine config.regex ⟨subject, resource, right⟩ evaluated
          context chains with
      | .error escaped => .error (.raised escaped)
      | .ok decision => .ok decision

/-- The loop over the rights of a capability. -/
def keepRights (kept : String → Except AuthorityError Bool) :
    List String → Except AuthorityError (List String)
  | [] => .ok []
  | right :: rights => do
      let here ← kept right
      let rest ← keepRights kept rights
      .ok (if here then right :: rest else rest)

def transitionAllowedRights (constraintError : Capability → Option String)
    (chains : String → List String) (capability : Capability) (transitionKind : String)
    (duplicatesAuthority : Bool) : Except AuthorityError (List String) :=
  if capability.active = false ∨ capability.isExpired now = true then .ok []
  else if duplicatesAuthority = true ∧ capability.usesRemaining.isSome = true then .ok []
  else if capability.effect ≠ .allow then .ok (sortedKeys capability.rights)
  else
    let restrictive := (store.capabilitiesFor capability.subject).filter fun candidate =>
      candidate.active && !candidate.isExpired now &&
        (candidate.effect == .deny || candidate.effect == .ask)
    keepRights (fun right =>
      if restrictive.any fun candidate => candidate.rights.contains right &&
          resourcesOverlap capability.resource candidate.resource then .ok false
      else do
        let decision ← authorize engine config store now constraintError chains capability.subject
          capability.resource right [("primitive", .str "authority_transition"),
            ("operation", .str transitionKind)]
        .ok (decision.allowed && decision.selectedCapabilityId == some capability.capId))
      (sortedKeys capability.rights)

end Transition

/-! ## Where overlap misses something -/

/-- A wildcard pattern whose text does not end in the wildcard: blanks or slashes follow it. -/
def Respelled (resource : String) (pattern : ResourcePattern) : Prop :=
  parse resource false = .ok pattern ∧ pattern.scope ≠ .exactScope ∧
    endsInWildcard resource.toList = false

/-- Two respelled wildcards, of which one is a prefix pattern. -/
def RespelledPair (left right : String) : Prop :=
  ∃ leftPattern rightPattern, Respelled left leftPattern ∧ Respelled right rightPattern ∧
    (leftPattern.scope = .prefixScope ∨ rightPattern.scope = .prefixScope)

/-- What a wildcard selects continues its body. -/
theorem selected_continues {pattern request : ResourcePattern} {full : List Char}
    (wild : pattern.scope ≠ .exactScope) (reads : Reads request full)
    (selected : selects pattern request = true) : pattern.body <+: full := by
  obtain ⟨-, inside⟩ := (selects_iff pattern reads).mp selected
  cases scope : pattern.scope with
  | exactScope => exact absurd scope wild
  | prefixScope =>
      rw [scope] at inside
      rcases inside with empty | below | same
      · rw [empty]
        exact List.nil_prefix
      · exact (List.prefix_append _ _).trans below
      · rw [same]
  | subtreeScope =>
      rw [scope] at inside
      rcases inside with same | below
      · rw [← same]
        exact reads.body_prefix
      · exact ((List.prefix_append _ _).trans below).trans reads.body_prefix

/-- Of two subtrees around one text the deeper one lies in the other. -/
theorem inside_of_shorter {a b text : List Char} (insideA : text = a ∨ a ++ ['/'] <+: text)
    (insideB : text = b ∨ b ++ ['/'] <+: text) (short : a.length ≤ b.length) :
    b = a ∨ a ++ ['/'] <+: b := by
  have front : b <+: text := by
    rcases insideB with rfl | below
    · exact List.prefix_refl _
    · exact (List.prefix_append _ _).trans below
  rcases insideA with rfl | below
  · exact Or.inl (front.eq_of_length (le_antisymm front.length_le short))
  · rcases Nat.eq_or_lt_of_le short with same | longer
    · have whole := List.prefix_of_prefix_length_le ((List.prefix_append _ _).trans below) front short
      exact Or.inl (whole.eq_of_length same).symm
    · exact Or.inr (List.prefix_of_prefix_length_le below front (by simpa using Nat.succ_le_of_lt longer))

/-- Two subtrees with a common resource lie inside one another. -/
theorem subtrees_nested {left right request : ResourcePattern} {fullL fullR full : List Char}
    (readsL : Reads left fullL) (readsR : Reads right fullR) (reads : Reads request full)
    (scopeL : left.scope = .subtreeScope) (scopeR : right.scope = .subtreeScope)
    (selectedL : selects left request = true) (selectedR : selects right request = true) :
    selects left right = true ∨ selects right left = true := by
  obtain ⟨kindL, insideL⟩ := (selects_iff left reads).mp selectedL
  obtain ⟨kindR, insideR⟩ := (selects_iff right reads).mp selectedR
  simp only [scopeL] at insideL
  simp only [scopeR] at insideR
  rw [selects_iff left readsR, selects_iff right readsL]
  simp only [scopeL, scopeR, kindL, kindR, true_and]
  exact (Nat.le_total left.body.length right.body.length).imp (inside_of_shorter insideL insideR)
    (inside_of_shorter insideR insideL)

/-- A pattern that is no prefix pattern can be requested as it is written. -/
theorem requested_as_written {resource : List Char} {pattern : ResourcePattern}
    (parsed : parseText resource false = .ok pattern) (scope : pattern.scope ≠ .prefixScope) :
    parseText resource true = .ok pattern := by
  obtain ⟨canon, ⟨full, reads⟩, -⟩ := parseText_ok parsed
  exact parseText_of_reads reads canon fun _ other => absurd other scope

/-- An exact pattern is the resource that it selects. -/
theorem exact_selected {left right : List Char} {pattern other request : ResourcePattern}
    (parsed : parseText left false = .ok pattern) (parsed' : parseText right false = .ok other)
    {requested : List Char} (asked : parseText requested true = .ok request)
    (scope : pattern.scope = .exactScope) (selected : selects pattern request = true)
    (selected' : selects other request = true) : matchesText right left = true := by
  obtain ⟨canon, ⟨full, reads⟩, -⟩ := parseText_ok parsed
  obtain ⟨-, ⟨full', reads'⟩, -⟩ := parseText_ok asked
  obtain ⟨-, inside⟩ := (selects_iff pattern reads').mp selected
  simp only [scope] at inside
  obtain rfl := Reads.unique reads reads' canon inside
  exact matchesText_iff.mpr
    ⟨other, pattern, parsed', requested_as_written parsed (by simp [scope]), selected'⟩

/-- Patterns with a common resource overlap, unless both are respelled wildcards and one of them is
a prefix pattern. -/
theorem overlapText_complete {left right requested : List Char}
    (matchedL : matchesText left requested = true) (matchedR : matchesText right requested = true) :
    overlapText left right = true ∨ ∃ leftPattern rightPattern,
      parseText left false = .ok leftPattern ∧ parseText right false = .ok rightPattern ∧
      leftPattern.scope ≠ .exactScope ∧ rightPattern.scope ≠ .exactScope ∧
      endsInWildcard left = false ∧ endsInWildcard right = false ∧
      (leftPattern.scope = .prefixScope ∨ rightPattern.scope = .prefixScope) := by
  obtain ⟨L, R, parsedL, asked, selectedL⟩ := matchesText_iff.mp matchedL
  obtain ⟨L', R', parsedR, asked', selectedR⟩ := matchesText_iff.mp matchedR
  obtain rfl : R = R' := Except.ok.inj (asked.symm.trans asked')
  obtain ⟨-, ⟨fullL, readsL⟩, -⟩ := parseText_ok parsedL
  obtain ⟨-, ⟨fullR, readsR⟩, -⟩ := parseText_ok parsedR
  obtain ⟨-, ⟨full, reads⟩, -⟩ := parseText_ok asked
  have kinds : L.kind = L'.kind :=
    ((selects_iff L reads).mp selectedL).1.trans ((selects_iff L' reads).mp selectedR).1.symm
  unfold overlapText
  rw [parsedL, parsedR]
  simp only [kinds, ne_eq, not_true_eq_false, if_false]
  by_cases exactL : L.scope = .exactScope
  · have matched := exact_selected parsedL parsedR asked exactL selectedL selectedR
    simp [matched]
  by_cases exactR : L'.scope = .exactScope
  · have matched := exact_selected parsedR parsedL asked exactR selectedR selectedL
    simp [matched]
  have nested : L'.body <+: L.body ∨ L.body <+: L'.body :=
    List.prefix_or_prefix_of_prefix (selected_continues exactR reads selectedR)
      (selected_continues exactL reads selectedL)
  by_cases written : (endsInWildcard left || endsInWildcard right) = true
  · left
    rw [if_pos written]
    split_ifs
    · rfl
    · simpa using nested
  · rw [Bool.not_eq_true, Bool.or_eq_false_iff] at written
    by_cases prefixed : L.scope = .prefixScope ∨ L'.scope = .prefixScope
    · exact Or.inr ⟨L, L', rfl, rfl, exactL, exactR, written.1, written.2, prefixed⟩
    · left
      rw [not_or] at prefixed
      have scopeL : L.scope = .subtreeScope := by cases scope : L.scope <;> simp_all
      have scopeR : L'.scope = .subtreeScope := by cases scope : L'.scope <;> simp_all
      have matched : matchesText left right = true ∨ matchesText right left = true :=
        (subtrees_nested readsL readsR reads scopeL scopeR selectedL selectedR).imp
          (fun selected => matchesText_iff.mpr
            ⟨L, L', parsedL, requested_as_written parsedR prefixed.2, selected⟩)
          (fun selected => matchesText_iff.mpr
            ⟨L', L, parsedR, requested_as_written parsedL prefixed.1, selected⟩)
      rw [if_pos (by simpa using matched)]

/-- The canonical text that a draft stores for a resource that parses. -/
def StoredResource (resource : String) : Prop :=
  ∃ text pattern, parse text false = .ok pattern ∧ resource = canonical text

/-- A stored wildcard ends in its wildcard. -/
theorem StoredResource.written {resource : String} (stored : StoredResource resource)
    {pattern : ResourcePattern} : ¬ Respelled resource pattern := by
  rintro ⟨parsed, wild, unwritten⟩
  obtain ⟨text, first, parsedText, rfl⟩ := stored
  obtain ⟨canon, ⟨full, reads⟩, -⟩ := parseText_ok parsedText
  obtain ⟨canon', ⟨full', reads'⟩, -⟩ := parseText_ok parsed
  unfold canonical at canon' unwritten
  rw [String.toList_ofList] at canon' unwritten
  rw [← canon] at canon' unwritten
  have star : '*' ∈ first.raw := by
    obtain ⟨cut, split, -⟩ := canonicalText_cut (canon ▸ canonicalText_form text.toList)
    have last : '*' ∈ pattern.raw := (reads'.wildcard_last wild).subset (by simp)
    rw [split, ← canon']
    exact List.mem_append_left _ last
  have shape := reads.body
  unfold BodyOf at shape
  cases scope : first.scope with
  | exactScope =>
      simp only [scope] at shape
      exact shape.2.2 star
  | prefixScope =>
      simp only [scope] at shape
      have ends : [':', '*'] <:+ first.raw := by
        rw [reads.raw]
        rcases shape with ⟨rfl, -⟩ | rfl
        · exact List.suffix_append _ _
        · exact ⟨first.kind ++ ':' :: first.body, by simp⟩
      simp [endsInWildcard, List.isSuffixOf_iff_suffix.mpr ends] at unwritten
  | subtreeScope =>
      simp only [scope] at shape
      have ends : ['/', '*'] <:+ first.raw := by
        rw [reads.raw, shape]
        exact ⟨first.kind ++ ':' :: first.body, by simp⟩
      simp [endsInWildcard, List.isSuffixOf_iff_suffix.mpr ends] at unwritten

theorem keepRights_kept {kept : String → Except AuthorityError Bool} {rights result : List String}
    (done : keepRights kept rights = .ok result) : ∀ right ∈ result, kept right = .ok true := by
  induction rights generalizing result with
  | nil =>
      cases done
      simp
  | cons right rights ih =>
      obtain ⟨here, first, later⟩ := Library.Run.bind_eq_ok.mp done
      obtain ⟨rest, there, same⟩ := Library.Run.bind_eq_ok.mp later
      cases same
      cases here with
      | false => exact ih there
      | true =>
          intro other member
          rcases List.mem_cons.mp member with rfl | member
          · exact first
          · exact ih there other member

/-- A right that survives is not named by a restrictive capability with an overlapping resource. -/
theorem transitionAllowedRights_apart {engine : Engine} {config : CapabilityConfig}
    {store : AuthorityStore} {now : Int} {constraintError : Capability → Option String}
    {chains : String → List String} {capability : Capability} {transitionKind : String}
    {duplicatesAuthority : Bool} {allowed : List String}
    (done : transitionAllowedRights engine config store now constraintError chains capability
      transitionKind duplicatesAuthority = .ok allowed) (allows : capability.effect = .allow)
    {right : String} (survives : right ∈ allowed) {candidate : Capability}
    (listed : candidate ∈ store.capabilitiesFor capability.subject)
    (active : candidate.active = true) (lasting : candidate.isExpired now = false)
    (restrictive : candidate.effect ≠ .allow) (named : right ∈ candidate.rights) :
    resourcesOverlap capability.resource candidate.resource = false := by
  unfold transitionAllowedRights at done
  split at done
  · cases done
    cases survives
  split at done
  · cases done
    cases survives
  rw [if_neg (not_not.mpr allows)] at done
  have kept := keepRights_kept done right survives
  split at kept
  · cases kept
  · rename_i apart
    rw [Bool.not_eq_true, List.any_eq_false] at apart
    have effect : candidate.effect = .deny ∨ candidate.effect = .ask := by
      cases effect : candidate.effect with
      | allow => exact absurd effect restrictive
      | deny => exact Or.inl rfl
      | ask => exact Or.inr rfl
    have filtered := apart candidate (List.mem_filter.mpr
      ⟨listed, by simpa [active, lasting] using effect⟩)
    simpa [named] using filtered

/-- Overlap detection misses no common resource, unless it is asked about two respelled wildcards of
which one is a prefix pattern; stored resources never are. So no right of a capability survives a
transition that a restrictive capability of its subject names for some common resource. -/
theorem overlap_misses_nothing :
    (∀ left right requested : String, ¬ RespelledPair left right →
      «matches» left requested = true → «matches» right requested = true →
      resourcesOverlap left right = true) ∧
    (∀ left right, StoredResource left → ¬ RespelledPair left right) ∧
    ∀ (engine : Engine) (config : CapabilityConfig) (store : AuthorityStore) (now : Int)
      (constraintError : Capability → Option String) (chains : String → List String)
      (capability : Capability) (transitionKind : String) (duplicatesAuthority : Bool)
      (allowed : List String),
      transitionAllowedRights engine config store now constraintError chains capability
        transitionKind duplicatesAuthority = .ok allowed →
      capability.effect = .allow → StoredResource capability.resource →
      ∀ right ∈ allowed, ∀ candidate ∈ store.capabilitiesFor capability.subject,
        candidate.active = true → candidate.isExpired now = false → candidate.effect ≠ .allow →
        right ∈ candidate.rights →
        ∀ requested, ¬ («matches» capability.resource requested = true ∧
          «matches» candidate.resource requested = true) := by
  have complete : ∀ left right requested : String, ¬ RespelledPair left right →
      «matches» left requested = true → «matches» right requested = true →
      resourcesOverlap left right = true := by
    intro left right requested spelled matchedL matchedR
    rcases overlapText_complete matchedL matchedR with overlaps | ⟨L, R, gap⟩
    · exact overlaps
    · obtain ⟨parsedL, parsedR, wildL, wildR, unwrittenL, unwrittenR, prefixed⟩ := gap
      exact absurd ⟨L, R, ⟨parsedL, wildL, unwrittenL⟩, ⟨parsedR, wildR, unwrittenR⟩, prefixed⟩
        spelled
  have stored : ∀ left right, StoredResource left → ¬ RespelledPair left right := by
    rintro left right stored ⟨L, R, respelled, -⟩
    exact stored.written respelled
  refine ⟨complete, stored, ?_⟩
  intro engine config store now constraintError chains capability transitionKind
    duplicatesAuthority allowed done allows kept right survives candidate listed active lasting
    restrictive named requested common
  have apart := transitionAllowedRights_apart done allows survives listed active lasting
    restrictive named
  have overlaps := complete _ _ requested (stored _ candidate.resource kept) common.1 common.2
  rw [apart] at overlaps
  cases overlaps

/-- Two prefix patterns with a blank after them select a common resource and do not overlap. -/
theorem respelled_prefixes_missed :
    «matches» "k:x:* " "k:x:y:z" = true ∧ «matches» "k:x:y:* " "k:x:y:z" = true ∧
      resourcesOverlap "k:x:* " "k:x:y:* " = false := by
  decide

end CapabilityManager
end AgentLibOS.Capability
