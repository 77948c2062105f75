import AgentLibOS.DataFlow.SinkTrust
import Mathlib.Data.List.Nodup

namespace AgentLibOS.DataFlow
open Library.Text Library.Run Memory

/-! ## One pattern, one base -/

/-- A validated pattern has at most one `*`, so both ways to drop it agree. -/
theorem rankedBase_eq {pattern : String} (valid : validateSinkPattern pattern = true) :
    rankedBase pattern = patternBase pattern := by
  unfold rankedBase patternBase
  simp only [validateSinkPattern, Bool.and_eq_true, decide_eq_true_eq] at valid
  obtain ⟨⟨⟨⟨-, -⟩, once⟩, -⟩, -⟩ := valid
  split_ifs with wild
  · obtain ⟨front, split⟩ := List.getLast?_eq_some_iff.mp (eq_of_beq wild)
    rw [split, List.count_append, List.count_singleton_self] at once
    have free : '*' ∉ front := List.count_eq_zero.mp (by omega)
    rw [split, List.rdropWhile_concat_pos _ _ _ (by decide), List.dropLast_concat]
    apply List.rdropWhile_eq_self_iff.mpr
    intro nonempty
    simp only [beq_iff_eq]
    intro last
    exact free (last ▸ List.getLast_mem nonempty)
  · apply List.rdropWhile_eq_self_iff.mpr
    intro nonempty star
    apply wild
    rw [wildcard, List.getLast?_eq_getLast_of_ne_nil nonempty]
    exact star

/-- The base of a pattern is a prefix of every identity the pattern matches. -/
theorem patternBase_isPrefix {pattern identity : String}
    (hit : matchesIdentity pattern identity = true) :
    patternBase pattern <+: identity.toList := by
  unfold matchesIdentity at hit
  unfold patternBase
  split_ifs at hit ⊢
  · exact List.isPrefixOf_iff_prefix.mp hit
  · rw [eq_of_beq hit]

/-! ## Selecting by the longest base -/

theorem filter_length_le_one {α β : Type*} {items : List α} {base : α → β} {p : α → Bool}
    (distinct : (items.map base).Nodup)
    (same : ∀ a ∈ items, ∀ b ∈ items, p a = true → p b = true → base a = base b) :
    (items.filter p).length ≤ 1 := by
  have nodup : ((items.filter p).map base).Nodup :=
    distinct.sublist (List.filter_sublist.map base)
  match kept : items.filter p with
  | [] => simp
  | [_] => simp
  | a :: b :: rest =>
      rw [kept, List.map_cons, List.map_cons] at nodup
      have here : a ∈ items.filter p := by simp [kept]
      have there : b ∈ items.filter p := by simp [kept]
      obtain ⟨a_in, a_hit⟩ := List.mem_filter.mp here
      obtain ⟨b_in, b_hit⟩ := List.mem_filter.mp there
      rw [same a a_in b b_in a_hit b_hit] at nodup
      simp at nodup

theorem first_of_insertionSort {α : Type*} {r : α → α → Prop} [DecidableRel r] [Std.Total r]
    [IsTrans α r] {items rest : List α} {first : α}
    (sorted : items.insertionSort r = first :: rest) {item : α} (member : item ∈ items) :
    item = first ∨ r first item := by
  have ordered := List.pairwise_insertionSort r items
  rw [sorted, List.pairwise_cons] at ordered
  have inside : item ∈ first :: rest := by
    rw [← sorted, List.mem_insertionSort]
    exact member
  rcases List.mem_cons.mp inside with rfl | inside
  · exact Or.inl rfl
  · exact Or.inr (ordered.1 item inside)

namespace SinkTrustRegistry

/-! ## What resolution computes -/

theorem matching_valid {identity : String} (valid : validSinkIdentity identity = true)
    (items : List SinkTrustSpec) :
    matching identity items =
      .ok (items.filter fun item => matchesIdentity item.rule.pattern identity) := by
  induction items with
  | nil => rfl
  | cons item items ih =>
      have accepted : sinkPatternMatches item.rule.pattern identity =
          .ok (matchesIdentity item.rule.pattern identity) := by
        simp [sinkPatternMatches, item.rule.patternValid, valid]
      rw [matching, accepted, ih, List.filter_cons]
      rfl

theorem matching_invalid {identity : String} (invalid : validSinkIdentity identity = false)
    (item : SinkTrustSpec) (items : List SinkTrustSpec) :
    matching identity (item :: items) = .error .value := by
  have rejected : sinkPatternMatches item.rule.pattern identity = .error .value := by
    simp [sinkPatternMatches, item.rule.patternValid, invalid]
  rw [matching, rejected]
  rfl

/-- No two active rules have the same base. -/
def Unambiguous (registry : SinkTrustRegistry) : Prop :=
  (registry.active.map fun item => patternBase item.rule.pattern).Nodup

/-- The active rule that matches the identity with a longer base than every other one. -/
structure Longest (registry : SinkTrustRegistry) (identity : String) (item : SinkTrustSpec) :
    Prop where
  active : item ∈ registry.active
  hit : matchesIdentity item.rule.pattern identity = true
  longest : ∀ other ∈ registry.active, matchesIdentity other.rule.pattern identity = true →
    other = item ∨
      (patternBase other.rule.pattern).length < (patternBase item.rule.pattern).length

/-- Nothing active matches the identity. -/
def Unmatched (registry : SinkTrustRegistry) (identity : String) : Prop :=
  ∀ item ∈ registry.active, matchesIdentity item.rule.pattern identity = false

structure ResolvesExactly (registry : SinkTrustRegistry) (sink : DataSink) : Prop where
  noConflict : registry.resolveSinkTrust sink ≠ .error .validation
  returns : ∃ found, registry.resolveSinkTrust sink = .ok found
  some_iff : ∀ item, registry.resolveSinkTrust sink = .ok (some item) ↔
    registry.Longest sink.registryIdentity item
  none_iff : registry.resolveSinkTrust sink = .ok none ↔ registry.Unmatched sink.registryIdentity

variable {registry registry' : SinkTrustRegistry}

theorem Longest.unique {identity : String} {left right : SinkTrustSpec}
    (first : registry.Longest identity left) (second : registry.Longest identity right) :
    left = right := by
  rcases first.longest right second.active second.hit with same | shorter
  · exact same.symm
  · rcases second.longest left first.active first.hit with same | longer
    · exact same
    · omega

/-- Rules that match one identity have bases of different lengths. -/
theorem base_eq {identity : String} {left right : SinkTrustSpec}
    (left_hit : matchesIdentity left.rule.pattern identity = true)
    (right_hit : matchesIdentity right.rule.pattern identity = true)
    (same : (patternBase left.rule.pattern).length = (patternBase right.rule.pattern).length) :
    patternBase left.rule.pattern = patternBase right.rule.pattern := by
  have within := List.prefix_of_prefix_length_le (patternBase_isPrefix left_hit)
    (patternBase_isPrefix right_hit) same.le
  exact within.eq_of_length same

/-- The descending order by priority. -/
def ranked (left right : SinkTrustSpec) : Prop := priority right ≤ priority left

instance : DecidableRel ranked := fun left right =>
  inferInstanceAs (Decidable (priority right ≤ priority left))

instance : Std.Total ranked := ⟨fun left right => le_total (priority right) (priority left)⟩

instance : IsTrans SinkTrustSpec ranked := ⟨fun _ _ _ first second => le_trans second first⟩

theorem ranked_length {left right : SinkTrustSpec} (le : ranked left right) :
    (patternBase right.rule.pattern).length ≤ (patternBase left.rule.pattern).length := by
  rw [ranked, priority, priority, Prod.Lex.toLex_le_toLex, rankedBase_eq right.rule.patternValid,
    rankedBase_eq left.rule.patternValid] at le
  rcases le with shorter | ⟨same, -⟩
  · exact shorter.le
  · exact same.le

theorem resolveSinkTrust_nil {sink : DataSink} {hits : List SinkTrustSpec}
    (found : matching sink.registryIdentity registry.active = .ok hits)
    (sorted : hits.insertionSort ranked = []) : registry.resolveSinkTrust sink = .ok none := by
  have sorted' : hits.insertionSort (fun left right => priority right ≤ priority left) = [] :=
    sorted
  simp only [resolveSinkTrust, found, bind, Except.bind, sorted']

theorem resolveSinkTrust_cons {sink : DataSink} {hits rest : List SinkTrustSpec}
    {first : SinkTrustSpec} (found : matching sink.registryIdentity registry.active = .ok hits)
    (sorted : hits.insertionSort ranked = first :: rest) :
    registry.resolveSinkTrust sink =
      if 1 < ((first :: rest).filter fun item => (rankedBase item.rule.pattern).length ==
        (rankedBase first.rule.pattern).length).length then .error .validation
      else .ok (some first) := by
  have sorted' : hits.insertionSort (fun left right => priority right ≤ priority left) =
    first :: rest := sorted
  simp only [resolveSinkTrust, found, bind, Except.bind, sorted']

theorem resolveSinkTrust_valid (unambiguous : registry.Unambiguous) {sink : DataSink}
    (valid : validSinkIdentity sink.registryIdentity = true) :
    (∃ item, registry.resolveSinkTrust sink = .ok (some item) ∧
      registry.Longest sink.registryIdentity item) ∨
    registry.resolveSinkTrust sink = .ok none ∧ registry.Unmatched sink.registryIdentity := by
  have found := matching_valid valid registry.active
  have same : ∀ a ∈ registry.active, ∀ b ∈ registry.active,
      matchesIdentity a.rule.pattern sink.registryIdentity = true →
      matchesIdentity b.rule.pattern sink.registryIdentity = true →
      (rankedBase a.rule.pattern).length = (rankedBase b.rule.pattern).length →
      patternBase a.rule.pattern = patternBase b.rule.pattern := by
    intro a _ b _ a_hit b_hit same
    rw [rankedBase_eq a.rule.patternValid, rankedBase_eq b.rule.patternValid] at same
    exact base_eq a_hit b_hit same
  generalize hits : (registry.active.filter fun item =>
    matchesIdentity item.rule.pattern sink.registryIdentity) = matches_ at found
  have hit_iff : ∀ item, item ∈ matches_ ↔ item ∈ registry.active ∧
      matchesIdentity item.rule.pattern sink.registryIdentity = true := by
    intro item
    rw [← hits, List.mem_filter]
  cases sorted : matches_.insertionSort ranked with
  | nil =>
      right
      refine ⟨resolveSinkTrust_nil found sorted, fun item active => ?_⟩
      by_contra hit
      have member : item ∈ matches_ := (hit_iff item).mpr ⟨active, by simpa using hit⟩
      rw [← List.mem_insertionSort ranked, sorted] at member
      cases member
  | cons first rest =>
      left
      have inside : ∀ item, item ∈ first :: rest ↔ item ∈ registry.active ∧
          matchesIdentity item.rule.pattern sink.registryIdentity = true := by
        intro item
        rw [← sorted, List.mem_insertionSort]
        exact hit_iff item
      obtain ⟨first_active, first_hit⟩ := (inside first).mp List.mem_cons_self
      have distinct : ((first :: rest).map fun item => patternBase item.rule.pattern).Nodup := by
        have perm := (List.perm_insertionSort ranked matches_).map
          fun item : SinkTrustSpec => patternBase item.rule.pattern
        rw [sorted] at perm
        rw [perm.nodup_iff, ← hits]
        exact unambiguous.sublist (List.filter_sublist.map _)
      have alone := @filter_length_le_one _ _ (first :: rest)
        (fun item : SinkTrustSpec => patternBase item.rule.pattern)
        (fun item => (rankedBase item.rule.pattern).length ==
          (rankedBase first.rule.pattern).length) distinct (by
            intro a a_in b b_in a_tied b_tied
            obtain ⟨a_active, a_hit⟩ := (inside a).mp a_in
            obtain ⟨b_active, b_hit⟩ := (inside b).mp b_in
            exact same a a_active b b_active a_hit b_hit
              ((eq_of_beq a_tied).trans (eq_of_beq b_tied).symm))
      refine ⟨first, ?_, first_active, first_hit, fun other active hit => ?_⟩
      · rw [resolveSinkTrust_cons found sorted]
        exact if_neg (not_lt.mpr alone)
      · have member : other ∈ matches_ := (hit_iff other).mpr ⟨active, hit⟩
        rcases first_of_insertionSort sorted member with rfl | le
        · exact Or.inl rfl
        · rcases (ranked_length le).lt_or_eq with shorter | tied
          · exact Or.inr shorter
          · left
            exact List.inj_on_of_nodup_map unambiguous active first_active
              (base_eq hit first_hit tied)

theorem resolveSinkTrust_invalid {sink : DataSink}
    (invalid : validSinkIdentity sink.registryIdentity = false) (some_ : registry.active ≠ []) :
    registry.resolveSinkTrust sink = .error .value := by
  obtain ⟨item, items, listed⟩ := List.exists_cons_of_ne_nil some_
  rw [resolveSinkTrust, listed, matching_invalid invalid]
  rfl

theorem resolveSinkTrust_empty (empty : registry.active = []) (sink : DataSink) :
    registry.resolveSinkTrust sink = .ok none := by
  rw [resolveSinkTrust, empty]
  rfl

/-- Resolution is exact unless the identity of the sink is malformed and some rule is active. -/
theorem resolvesExactly_iff (unambiguous : registry.Unambiguous) (sink : DataSink) :
    registry.ResolvesExactly sink ↔
      registry.active = [] ∨ validSinkIdentity sink.registryIdentity = true := by
  constructor
  · intro exact_
    by_contra neither
    rw [not_or, Bool.not_eq_true] at neither
    obtain ⟨found, returned⟩ := exact_.returns
    rw [resolveSinkTrust_invalid neither.2 neither.1] at returned
    cases returned
  · intro condition
    have answer : (∃ item, registry.resolveSinkTrust sink = .ok (some item) ∧
        registry.Longest sink.registryIdentity item) ∨
        registry.resolveSinkTrust sink = .ok none ∧
          registry.Unmatched sink.registryIdentity := by
      rcases condition with empty | valid
      · right
        refine ⟨resolveSinkTrust_empty empty sink, fun item active => ?_⟩
        rw [empty] at active
        cases active
      · exact resolveSinkTrust_valid unambiguous valid
    rcases answer with ⟨item, resolved, longest⟩ | ⟨resolved, unmatched⟩
    · refine ⟨by rw [resolved]; simp, ⟨_, resolved⟩, fun other => ?_, ?_⟩
      · rw [resolved]
        constructor
        · intro same
          obtain rfl := Option.some.inj (Except.ok.inj same)
          exact longest
        · intro other_longest
          rw [longest.unique other_longest]
      · rw [resolved]
        refine iff_of_false (by simp) fun unmatched => ?_
        have missed := unmatched item longest.active
        rw [longest.hit] at missed
        cases missed
    · refine ⟨by rw [resolved]; simp, ⟨_, resolved⟩, fun other => ?_, ?_⟩
      · rw [resolved]
        refine iff_of_false (by simp) fun longest => ?_
        have missed := unmatched other longest.active
        rw [longest.hit] at missed
        cases missed
      · rw [resolved]
        exact iff_of_true rfl unmatched

/-! ## Reachable registries -/

theorem active_cons_deactivate (registry : SinkTrustRegistry) (pattern : String) :
    (registry.deactivate pattern).filter (·.active) =
      registry.active.filter (·.rule.pattern != pattern) := by
  rw [deactivate, active, List.filter_filter]
  induction registry.records with
  | nil => rfl
  | cons item rest ih =>
      rw [List.map_cons, List.filter_cons, List.filter_cons, ih]
      by_cases same : item.rule.pattern = pattern <;> simp [same]

theorem unambiguous_deactivate (unambiguous : registry.Unambiguous) (pattern : String) :
    ((registry.active.filter (·.rule.pattern != pattern)).map
      fun item => patternBase item.rule.pattern).Nodup :=
  unambiguous.sublist (List.filter_sublist.map _)

theorem storeRegister_ok {spec : SinkTrustSpec} {replace : Bool}
    (done : registry.storeRegister spec replace = .ok registry') :
    spec.generation = registry.generation + 1 ∧
      registry' = ⟨spec :: registry.deactivate spec.rule.pattern, spec.generation⟩ := by
  unfold storeRegister at done
  split_ifs at done with stale
  exact ⟨not_not.mp stale, (Except.ok.inj done).symm⟩

theorem storeUnregister_ok {pattern : String} {generation : Nat}
    (done : registry.storeUnregister pattern generation = .ok registry') :
    generation = registry.generation + 1 ∧ registry' = ⟨registry.deactivate pattern, generation⟩ := by
  unfold storeUnregister at done
  split_ifs at done with stale
  exact ⟨not_not.mp stale, (Except.ok.inj done).symm⟩

/-- A registered rule differs in its base from every active rule with another pattern. -/
theorem registerSinkTrust_ok {config : Config} {rule : SinkTrustRule} {actor trustId : String}
    {replace authorized : Bool}
    (done : registry.registerSinkTrust config rule actor trustId replace authorized =
      .ok registry') :
    (∀ existing ∈ registry.active, existing.rule.pattern ≠ rule.pattern →
      patternBase existing.rule.pattern ≠ patternBase rule.pattern) ∧
    registry' = ⟨⟨trustId, rule, registry.generation + 1, actor, true⟩ ::
      registry.deactivate rule.pattern, registry.generation + 1⟩ := by
  unfold registerSinkTrust at done
  split_ifs at done with _ _ conflict _
  refine ⟨fun existing active different same => conflict ?_, (storeRegister_ok done).2⟩
  exact List.any_eq_true.mpr ⟨existing, active, by simp [different, same]⟩

theorem unregisterSinkTrust_ok {pattern : String} {authorized : Bool}
    (done : registry.unregisterSinkTrust pattern authorized = .ok registry') :
    registry' = ⟨registry.deactivate (String.ofList (strip isSpace pattern.toList)),
      registry.generation + 1⟩ := by
  unfold unregisterSinkTrust at done
  dsimp only at done
  split_ifs at done
  exact (storeUnregister_ok done).2

theorem Unambiguous.exec {config : Config} {change : Change} (unambiguous : registry.Unambiguous)
    (done : change.exec config registry = .ok registry') : registry'.Unambiguous := by
  cases change with
  | register rule actor trustId replace authorized =>
      obtain ⟨apart, rfl⟩ := registerSinkTrust_ok done
      rw [Unambiguous, active, List.filter_cons_of_pos rfl, active_cons_deactivate, List.map_cons,
        List.nodup_cons]
      refine ⟨fun listed => ?_, unambiguous_deactivate unambiguous _⟩
      obtain ⟨existing, kept, same⟩ := List.mem_map.mp listed
      obtain ⟨active, different⟩ := List.mem_filter.mp kept
      exact apart existing active (by simpa using different) same
  | unregister pattern authorized =>
      obtain rfl := unregisterSinkTrust_ok done
      rw [Unambiguous, active, active_cons_deactivate]
      exact unambiguous_deactivate unambiguous _

theorem generation_exec {config : Config} {change : Change}
    (done : change.exec config registry = .ok registry') :
    registry'.generation = registry.generation + 1 := by
  cases change with
  | register rule actor trustId replace authorized =>
      obtain ⟨-, rfl⟩ := registerSinkTrust_ok done
      rfl
  | unregister pattern authorized =>
      obtain rfl := unregisterSinkTrust_ok done
      rfl

/-- `n` successful changes lead from one registry to the other. -/
inductive Changed (config : Config) :
    Nat → SinkTrustRegistry → SinkTrustRegistry → Prop
  | none (registry : SinkTrustRegistry) : Changed config 0 registry registry
  | next {n : Nat} {registry middle registry' : SinkTrustRegistry} {change : Change}
      (before : Changed config n registry middle)
      (done : change.exec config middle = .ok registry') : Changed config (n + 1) registry registry'

section Changed
variable {config : Config} {n : Nat}

theorem Changed.trans {m : Nat} {middle : SinkTrustRegistry}
    (first : Changed config m registry middle) (second : Changed config n middle registry') :
    Changed config (m + n) registry registry' := by
  induction second with
  | none _ => exact first
  | next _ done ih => exact .next (ih first) done

theorem Changed.unambiguous (changed : Changed config n registry registry')
    (unambiguous : registry.Unambiguous) : registry'.Unambiguous := by
  induction changed with
  | none _ => exact unambiguous
  | next _ done ih => exact (ih unambiguous).exec done

theorem Changed.generation (changed : Changed config n registry registry') :
    registry'.generation = registry.generation + n := by
  induction changed with
  | none _ => rfl
  | next _ done ih => rw [generation_exec done, ih, Nat.add_assoc]

theorem changed_changeAll (registry : SinkTrustRegistry)
    (changes : List (SinkTrustRegistry → Option Change)) :
    ∃ n, Changed config n registry (registry.changeAll config changes) := by
  induction changes generalizing registry with
  | nil => exact ⟨0, .none registry⟩
  | cons decide_ rest ih =>
      unfold changeAll
      split
      · exact ih registry
      · split
        · rename_i registry' done
          obtain ⟨n, later⟩ := ih registry'
          exact ⟨_, (Changed.next (.none registry) done).trans later⟩
        · exact ⟨0, .none registry⟩

theorem changed_step (registry : SinkTrustRegistry) (op : Op) :
    ∃ n, Changed config n registry (registry.step config op) := by
  cases op with
  | change change =>
      rcases transact_cases (Change.exec config) registry change with done | same
      · exact ⟨1, .next (.none registry) done⟩
      · refine ⟨0, ?_⟩
        rw [step, same]
        exact .none registry
  | bootstrap configured => exact changed_changeAll registry _

theorem changed_run (registry : SinkTrustRegistry) (ops : List Op) :
    ∃ n, Changed config n registry (run (step config) registry ops) := by
  induction ops generalizing registry with
  | nil => exact ⟨0, .none registry⟩
  | cons op ops ih =>
      obtain ⟨m, first⟩ := @changed_step config registry op
      obtain ⟨n, later⟩ := ih (registry.step config op)
      exact ⟨_, first.trans later⟩

end Changed

/-! ## Provider-backed identities -/

theorem colon_mem_patternBase {pattern : String} (valid : validateSinkPattern pattern = true) :
    ':' ∈ patternBase pattern := by
  simp only [validateSinkPattern, canonicalNamespaced, Bool.and_eq_true] at valid
  have colon : ':' ∈ pattern.toList := by simpa using valid.2.1.1.2
  unfold patternBase
  split_ifs with wild
  · obtain ⟨front, split⟩ := List.getLast?_eq_some_iff.mp (eq_of_beq wild)
    rw [split, List.mem_append] at colon
    rw [split, List.dropLast_concat]
    rcases colon with inside | last
    · exact inside
    · simp at last
  · exact colon

/-- The namespace of an identity is the namespace of every pattern that matches it. -/
theorem namespace_of_base {start : List Char} {base identity : List Char} (free : ':' ∉ start)
    (colon : ':' ∈ base) (within : base <+: identity) (starts : start ++ [':'] <+: identity) :
    start ++ [':'] <+: base := by
  rcases List.prefix_or_prefix_of_prefix starts within with found | short
  · exact found
  · rcases List.prefix_concat_iff.mp short with rfl | inside
    · exact List.prefix_refl _
    · exact absurd (inside.subset colon) free

theorem patternBase_isPrefix_pattern (pattern : String) :
    patternBase pattern <+: pattern.toList := by
  unfold patternBase
  split_ifs
  · exact List.dropLast_prefix _
  · exact List.prefix_refl _

theorem providerBacked_of_match {pattern identity : String}
    (valid : validateSinkPattern pattern = true) (hit : matchesIdentity pattern identity = true)
    (backed : providerBacked identity = true) : providerBacked pattern = true := by
  obtain ⟨start, listed, starts⟩ := List.any_eq_true.mp backed
  refine List.any_eq_true.mpr ⟨start, listed, ?_⟩
  have shape : ∃ front, ':' ∉ front ∧ start.toList = front ++ [':'] := by
    refine ⟨start.toList.dropLast, ?_⟩
    clear starts
    revert start
    decide
  obtain ⟨front, free, shape⟩ := shape
  rw [List.isPrefixOf_iff_prefix, shape] at starts ⊢
  exact (namespace_of_base free (colon_mem_patternBase valid) (patternBase_isPrefix hit)
    starts).trans (patternBase_isPrefix_pattern pattern)

/-- No unpinned rule clears a provider-backed identity above `normal`. -/
def Bounded (registry : SinkTrustRegistry) (identity : String) : Prop :=
  ∀ item ∈ registry.active, item.rule.identitySha256 = none →
    matchesIdentity item.rule.pattern identity = true → providerBacked identity = true →
      sensitivityRank item.rule.maxSensitivity ≤ sensitivityRank .normal

theorem bounded (registry : SinkTrustRegistry) (identity : String) : registry.Bounded identity :=
  fun item _ unpinned hit backed =>
    item.rule.providerBounded (providerBacked_of_match item.rule.patternValid hit backed) unpinned

/-! ## Every run of registrations -/

structure Sound (config : Config) (registry : SinkTrustRegistry) (sink : DataSink) : Prop where
  resolves : registry.ResolvesExactly sink
  single : ∀ left ∈ registry.active, ∀ right ∈ registry.active,
    left.rule.pattern = right.rule.pattern → left = right
  nodup : registry.active.Nodup
  counted : Changed config registry.generation .empty registry
  increases : ∀ (change : Change) (registry' : SinkTrustRegistry),
    change.exec config registry = .ok registry' → registry'.generation = registry.generation + 1
  bounded : registry.Bounded sink.registryIdentity

def fileRule : SinkTrustRule where
  pattern := "file:*"
  trustLevel := .conditional
  maxSensitivity := .normal
  tenants := []
  principals := []
  identitySha256 := none
  patternValid := by decide
  untrustedBounded := fun h => by cases h
  providerBounded := fun _ _ => le_rfl

theorem untargeted_valid : validSinkIdentity "file:out" = true := by decide

def untargetedSink : DataSink where
  identity := "file:out"
  identitySha256 := none
  trustIdentity := some "file:"
  trustIdentitySha256 := none
  identityValid := untargeted_valid
  trustValid := by
    intro value given
    obtain rfl := Option.some.inj given
    decide

end SinkTrustRegistry
end AgentLibOS.DataFlow
