import AgentLibOS.Capability.Value
import AgentLibOS.Memory.DataLabels
import Mathlib.Data.Prod.Lex
import Mathlib.Data.String.Basic
import Mathlib.Order.Lattice.Nat

namespace AgentLibOS.DataFlow
open Library.Text Memory

/-! ## Texts -/

/-- `_require_text`: not blank and without control characters. -/
def requireText (value : String) : Bool :=
  strip isSpace value.toList != [] && value.toList.all fun c => 32 ≤ c.toNat && c.toNat != 127

def validateOptionalText (allowMixed : Bool) : Option String → Bool
  | none => true
  | some value =>
      requireText value && value.toList == strip isSpace value.toList &&
        decide (value.length ≤ 256) && (value != "mixed" || allowMixed)

/-- Data-flow labels and object metadata admit the same identities. -/
theorem validateOptionalText_eq (allowMixed : Bool) (value : Option String) :
    validateOptionalText allowMixed value = validateOptionalIdentity allowMixed value := by
  cases value with
  | none => rfl
  | some value =>
      unfold validateOptionalText validateOptionalIdentity requireText
      by_cases same : value.toList = strip isSpace value.toList
      · have blank : (strip isSpace value.toList != []) = (value != "") := by
          rw [← same, Bool.eq_iff_iff]
          simp
        dsimp only
        rw [blank]
        generalize (value.toList == strip isSpace value.toList) = stripped
        cases value != "" <;> cases stripped <;> cases value != "mixed" || allowMixed <;>
          simp [Bool.and_comm]
      · have differs : (value.toList == strip isSpace value.toList) = false := by simpa using same
        simp only [differs, Bool.and_false, Bool.false_and]

/-! ## Labels -/

@[ext] structure DataLabels where
  sensitivity : DataSensitivity
  trustLevel : DataTrustLevel
  integrity : DataIntegrity
  origin : Option String
  tenant : Option String
  principal : Option String
  declassificationAuthority : Option String
  originValid : validateOptionalText false origin = true
  tenantValid : validateOptionalText true tenant = true
  principalValid : validateOptionalText true principal = true
  authorityValid : validateOptionalText false declassificationAuthority = true

def DataLabels.default : DataLabels where
  sensitivity := .normal
  trustLevel := .unknown
  integrity := .unknown
  origin := some "local"
  tenant := none
  principal := none
  declassificationAuthority := none
  originValid := by decide
  tenantValid := rfl
  principalValid := rfl
  authorityValid := rfl

def DataLabels.isMixedIdentity (labels : DataLabels) : Bool :=
  labels.tenant == some "mixed" || labels.principal == some "mixed"

def mergeIdentity (values : List (Option String)) (mixed : String) : Option String :=
  match identities values with
  | [] => none
  | [value] => some value
  | _ => some mixed

def mergeDeclassificationAuthority : List (Option String) → Option String
  | [] => none
  | none :: _ => none
  | some first :: rest => if rest.all (· == some first) then some first else none

theorem mergeIdentity_valid {allowMixed : Bool} {values : List (Option String)} {mixed : String}
    (valid : ∀ value ∈ values, validateOptionalText allowMixed value = true)
    (fallback : validateOptionalText allowMixed (some mixed) = true) :
    validateOptionalText allowMixed (mergeIdentity values mixed) = true := by
  unfold mergeIdentity
  split
  · rfl
  · rename_i value single
    have member : value ∈ identities values := by simp [single]
    exact valid _ (mem_identities.mp member).1
  · exact fallback

theorem mergeDeclassificationAuthority_valid {values : List (Option String)}
    (valid : ∀ value ∈ values, validateOptionalText false value = true) :
    validateOptionalText false (mergeDeclassificationAuthority values) = true := by
  unfold mergeDeclassificationAuthority
  split
  · rfl
  · rfl
  · split_ifs
    · exact valid _ List.mem_cons_self
    · rfl

def DataLabels.aggregate : List DataLabels → DataLabels
  | [] => .default
  | first :: rest =>
    { sensitivity := highest sensitivityOrder first.sensitivity (rest.map (·.sensitivity))
      trustLevel := lowest trustOrder first.trustLevel (rest.map (·.trustLevel))
      integrity := lowest integrityOrder first.integrity (rest.map (·.integrity))
      origin := mergeIdentity ((first :: rest).map (·.origin)) "derived"
      tenant := mergeIdentity ((first :: rest).map (·.tenant)) "mixed"
      principal := mergeIdentity ((first :: rest).map (·.principal)) "mixed"
      declassificationAuthority := mergeDeclassificationAuthority
        ((first :: rest).map (·.declassificationAuthority))
      originValid := mergeIdentity_valid
        (List.forall_mem_map.mpr fun labels _ => labels.originValid) (by decide)
      tenantValid := mergeIdentity_valid
        (List.forall_mem_map.mpr fun labels _ => labels.tenantValid) (by decide)
      principalValid := mergeIdentity_valid
        (List.forall_mem_map.mpr fun labels _ => labels.principalValid) (by decide)
      authorityValid := mergeDeclassificationAuthority_valid
        (List.forall_mem_map.mpr fun labels _ => labels.authorityValid) }

/-- The labels as object metadata, the form that label propagation is decided on. -/
def DataLabels.metadata (labels : DataLabels) : ObjectMetadata where
  sensitivity := labels.sensitivity
  trustLevel := labels.trustLevel
  integrity := labels.integrity
  origin := labels.origin
  tenant := labels.tenant
  principal := labels.principal
  declassificationAuthority := labels.declassificationAuthority
  originValid := validateOptionalText_eq false labels.origin ▸ labels.originValid
  tenantValid := validateOptionalText_eq true labels.tenant ▸ labels.tenantValid
  principalValid := validateOptionalText_eq true labels.principal ▸ labels.principalValid
  authorityValid :=
    validateOptionalText_eq false labels.declassificationAuthority ▸ labels.authorityValid

/-- `is_conservative_label_propagation` on the metadata forms. -/
def DataLabels.Conservative (current proposed : DataLabels) : Prop :=
  isConservativeLabelPropagation current.metadata proposed.metadata = true

/-! ## Sources and contexts -/

structure DataSourceRef where
  oid : String
  version : Nat
  contentSha256 : String
  deriving DecidableEq, Repr

/-- The order of the tuples `(oid, version, content_sha256)`. -/
def DataSourceRef.le (left right : DataSourceRef) : Bool :=
  decide (left.oid < right.oid) || left.oid == right.oid &&
    (decide (left.version < right.version) ||
      left.version == right.version && decide (left.contentSha256 ≤ right.contentSha256))

def DataSourceRef.Le (left right : DataSourceRef) : Prop := left.le right = true

instance : DecidableRel DataSourceRef.Le := fun left right =>
  inferInstanceAs (Decidable (left.le right = true))

def normalizeSourceRefs (refs : List DataSourceRef) : List DataSourceRef :=
  refs.dedup.insertionSort DataSourceRef.Le

theorem mem_normalizeSourceRefs {refs : List DataSourceRef} {ref : DataSourceRef} :
    ref ∈ normalizeSourceRefs refs ↔ ref ∈ refs := by
  rw [normalizeSourceRefs, List.mem_insertionSort, List.mem_dedup]

structure DataFlowContext where
  labels : DataLabels
  sourceRefs : List DataSourceRef
  materializationId : Option String

/-- The constructor normalises the source references. -/
def DataFlowContext.of (labels : DataLabels) (sourceRefs : List DataSourceRef)
    (materializationId : Option String) : DataFlowContext :=
  ⟨labels, normalizeSourceRefs sourceRefs, materializationId⟩

def DataFlowContext.aggregate (contexts : List DataFlowContext) : DataFlowContext :=
  .of (.aggregate (contexts.map (·.labels)))
    (normalizeSourceRefs (contexts.flatMap (·.sourceRefs))) none

theorem mem_aggregate_sourceRefs {contexts : List DataFlowContext} {ref : DataSourceRef} :
    ref ∈ (DataFlowContext.aggregate contexts).sourceRefs ↔
      ∃ context ∈ contexts, ref ∈ context.sourceRefs := by
  rw [DataFlowContext.aggregate, DataFlowContext.of, mem_normalizeSourceRefs,
    mem_normalizeSourceRefs, List.mem_flatMap]

/-! ## The aggregate is at least as restrictive as each of its members -/

theorem highest_le {α : Type} [DecidableEq α] (order : List α) (first : α) (rest : List α) :
    ∀ value ∈ first :: rest, order.idxOf value ≤ order.idxOf (highest order first rest) := by
  induction rest generalizing first with
  | nil => simp [highest]
  | cons next rest ih =>
      intro value member
      rw [highest, List.foldl_cons]
      have step := ih (if order.idxOf first < order.idxOf next then next else first)
      have best := step _ List.mem_cons_self
      rcases List.mem_cons.mp member with rfl | member
      · refine le_trans ?_ best
        split_ifs with less
        · exact less.le
        · exact le_rfl
      · rcases List.mem_cons.mp member with rfl | member
        · refine le_trans ?_ best
          split_ifs with less
          · exact le_rfl
          · exact not_lt.mp less
        · exact step value (List.mem_cons_of_mem _ member)

theorem le_lowest {α : Type} [DecidableEq α] (order : List α) (first : α) (rest : List α) :
    ∀ value ∈ first :: rest, order.idxOf (lowest order first rest) ≤ order.idxOf value := by
  induction rest generalizing first with
  | nil => simp [lowest]
  | cons next rest ih =>
      intro value member
      rw [lowest, List.foldl_cons]
      have step := ih (if order.idxOf next < order.idxOf first then next else first)
      have best := step _ List.mem_cons_self
      rcases List.mem_cons.mp member with rfl | member
      · refine le_trans best ?_
        split_ifs with less
        · exact less.le
        · exact le_rfl
      · rcases List.mem_cons.mp member with rfl | member
        · refine le_trans best ?_
          split_ifs with less
          · exact le_rfl
          · exact not_lt.mp less
        · exact step value (List.mem_cons_of_mem _ member)

/-- Different identities of the members become `mixed`. -/
theorem mergeIdentity_conservative {values : List (Option String)} {value : Option String}
    (member : value ∈ values) (filled : value ≠ some "") :
    identityIsConservative value (mergeIdentity values "mixed") = true := by
  cases value with
  | none => cases mergeIdentity values "mixed" <;> simp [identityIsConservative]
  | some value =>
      have listed : value ∈ identities values :=
        mem_identities.mpr ⟨member, fun empty => filled (congrArg some empty)⟩
      unfold mergeIdentity
      split
      · rename_i none_
        rw [none_] at listed
        cases listed
      · rename_i only single
        rw [single, List.mem_singleton] at listed
        simp [identityIsConservative, listed]
      · simp [identityIsConservative]

theorem validText_filled {allowMixed : Bool} {value : Option String}
    (valid : validateOptionalText allowMixed value = true) : value ≠ some "" := by
  rintro rfl
  revert valid
  cases allowMixed <;> decide

theorem mergeDeclassificationAuthority_mem {values : List (Option String)} {value : Option String}
    (member : value ∈ values) : mergeDeclassificationAuthority values ∈ [value, none] := by
  unfold mergeDeclassificationAuthority
  split
  · cases member
  · simp
  · rename_i first rest
    split_ifs with same
    · rcases List.mem_cons.mp member with rfl | member
      · simp
      · have := List.all_eq_true.mp same value member
        simp only [beq_iff_eq] at this
        simp [this]
    · simp

theorem DataLabels.aggregate_conservative {members : List DataLabels} {labels : DataLabels}
    (member : labels ∈ members) : labels.Conservative (.aggregate members) := by
  cases members with
  | nil => cases member
  | cons first rest =>
      unfold DataLabels.Conservative isConservativeLabelPropagation
      have sensitivity := highest_le sensitivityOrder first.sensitivity
        (rest.map (·.sensitivity)) _
        (List.mem_map_of_mem (f := fun one : DataLabels => one.sensitivity) member)
      have trust := le_lowest trustOrder first.trustLevel (rest.map (·.trustLevel)) _
        (List.mem_map_of_mem (f := fun one : DataLabels => one.trustLevel) member)
      have integrity := le_lowest integrityOrder first.integrity (rest.map (·.integrity)) _
        (List.mem_map_of_mem (f := fun one : DataLabels => one.integrity) member)
      have authority : (aggregate (first :: rest)).declassificationAuthority ∈
          [labels.declassificationAuthority, none] :=
        mergeDeclassificationAuthority_mem
          (List.mem_map_of_mem (f := fun one : DataLabels => one.declassificationAuthority) member)
      simp only [Bool.and_eq_true]
      refine ⟨⟨⟨⟨⟨decide_eq_true sensitivity, decide_eq_true trust⟩, decide_eq_true integrity⟩,
        ?_⟩, ?_⟩, decide_eq_true authority⟩
      · exact mergeIdentity_conservative
          (List.mem_map_of_mem (f := fun one : DataLabels => one.tenant) member)
          (validText_filled labels.tenantValid)
      · exact mergeIdentity_conservative
          (List.mem_map_of_mem (f := fun one : DataLabels => one.principal) member)
          (validText_filled labels.principalValid)

/-! ## Aggregating one more member -/

theorem mergeIdentity_none {values : List (Option String)} {mixed : String}
    (unnamed : ∀ value, value ∉ identities values) : mergeIdentity values mixed = none := by
  rw [mergeIdentity, List.eq_nil_iff_forall_not_mem.mpr unnamed]

theorem mergeIdentity_one {values : List (Option String)} {value mixed : String}
    (only : ∀ other, other ∈ identities values ↔ other = value) :
    mergeIdentity values mixed = some value := by
  have nodup : (identities values).Nodup := List.nodup_dedup _
  have single : identities values = [value] := by
    apply List.perm_singleton.mp
    apply (List.perm_ext_iff_of_nodup nodup (List.nodup_singleton value)).mpr
    intro other
    rw [only, List.mem_singleton]
  rw [mergeIdentity, single]

theorem mergeIdentity_many {values : List (Option String)} {left right mixed : String}
    (left_in : left ∈ identities values) (right_in : right ∈ identities values)
    (different : left ≠ right) : mergeIdentity values mixed = some mixed := by
  unfold mergeIdentity
  split
  · rename_i none_
    rw [none_] at left_in
    cases left_in
  · rename_i value single
    rw [single, List.mem_singleton] at left_in right_in
    exact absurd (left_in.trans right_in.symm) different
  · rfl

theorem mergeIdentity_cases (values : List (Option String)) (mixed : String) :
    (mergeIdentity values mixed = none ∧ ∀ value, value ∉ identities values) ∨
    (∃ value, mergeIdentity values mixed = some value ∧
      ∀ other, other ∈ identities values ↔ other = value) ∨
    mergeIdentity values mixed = some mixed ∧
      ∃ left ∈ identities values, ∃ right ∈ identities values, left ≠ right := by
  have nodup : (identities values).Nodup := List.nodup_dedup _
  match listed : identities values with
  | [] => exact Or.inl ⟨by rw [mergeIdentity, listed], by simp⟩
  | [value] => exact Or.inr (Or.inl ⟨value, by rw [mergeIdentity, listed], by simp⟩)
  | left :: right :: rest =>
      rw [listed, List.nodup_cons] at nodup
      refine Or.inr (Or.inr ⟨by rw [mergeIdentity, listed], left, by simp, right, by simp, ?_⟩)
      rintro rfl
      exact nodup.1 List.mem_cons_self

/-- The merged identity depends on which identities are listed only. -/
theorem mergeIdentity_congr {left right : List (Option String)}
    (same : ∀ value, value ∈ identities left ↔ value ∈ identities right) (mixed : String) :
    mergeIdentity left mixed = mergeIdentity right mixed := by
  rcases mergeIdentity_cases right mixed with ⟨merged, unnamed⟩ | ⟨value, merged, only⟩ |
    ⟨merged, first, first_in, second, second_in, different⟩
  · rw [merged, mergeIdentity_none fun value listed => unnamed value ((same value).mp listed)]
  · rw [merged, mergeIdentity_one fun other => (same other).trans (only other)]
  · rw [merged,
      mergeIdentity_many ((same first).mpr first_in) ((same second).mpr second_in) different]

theorem mem_identities_append {values : List (Option String)} {last : Option String}
    {value : String} : value ∈ identities (values ++ [last]) ↔
      value ∈ identities values ∨ some value = last ∧ value ≠ "" := by
  simp only [mem_identities, List.mem_append, List.mem_singleton]
  tauto

theorem mem_identities_pair {first last : Option String} {value : String} :
    value ∈ identities [first, last] ↔ (some value = first ∨ some value = last) ∧ value ≠ "" := by
  simp only [mem_identities, List.mem_cons, List.not_mem_nil, or_false]

theorem mergeIdentity_append {values : List (Option String)} {mixed : String}
    (named : mixed ≠ "") (last : Option String) :
    mergeIdentity [mergeIdentity values mixed, last] mixed =
      mergeIdentity (values ++ [last]) mixed := by
  rcases mergeIdentity_cases values mixed with ⟨merged, unnamed⟩ | ⟨value, merged, only⟩ |
    ⟨merged, left, left_in, right, right_in, different⟩
  · rw [merged]
    apply mergeIdentity_congr
    intro value
    rw [mem_identities_pair, mem_identities_append]
    simp [unnamed value]
  · rw [merged]
    have filled : value ≠ "" := (mem_identities.mp ((only value).mpr rfl)).2
    apply mergeIdentity_congr
    intro other
    rw [mem_identities_pair, mem_identities_append, only, Option.some.injEq]
    constructor
    · rintro ⟨rfl | given, nonempty⟩
      · exact Or.inl rfl
      · exact Or.inr ⟨given, nonempty⟩
    · rintro (rfl | ⟨given, nonempty⟩)
      · exact ⟨Or.inl rfl, filled⟩
      · exact ⟨Or.inr given, nonempty⟩
  · rw [merged, mergeIdentity_many (mem_identities_append.mpr (Or.inl left_in))
      (mem_identities_append.mpr (Or.inl right_in)) different]
    by_cases other : ∃ value, last = some value ∧ value ≠ "" ∧ value ≠ mixed
    · obtain ⟨value, rfl, filled, apart⟩ := other
      have first_in : mixed ∈ identities [some mixed, some value] :=
        mem_identities_pair.mpr ⟨Or.inl rfl, named⟩
      have last_in : value ∈ identities [some mixed, some value] :=
        mem_identities_pair.mpr ⟨Or.inr rfl, filled⟩
      exact mergeIdentity_many first_in last_in apart.symm
    · apply mergeIdentity_one
      intro value
      rw [mem_identities_pair, Option.some.injEq]
      constructor
      · rintro ⟨rfl | given, nonempty⟩
        · rfl
        · by_contra apart
          exact other ⟨value, given.symm, nonempty, apart⟩
      · rintro rfl
        exact ⟨Or.inl rfl, named⟩

theorem highest_append {α : Type} [DecidableEq α] (order : List α) (first : α) (rest : List α)
    (last : α) :
    highest order (highest order first rest) [last] = highest order first (rest ++ [last]) := by
  rw [highest, highest, highest, List.foldl_append]

theorem lowest_append {α : Type} [DecidableEq α] (order : List α) (first : α) (rest : List α)
    (last : α) :
    lowest order (lowest order first rest) [last] = lowest order first (rest ++ [last]) := by
  rw [lowest, lowest, lowest, List.foldl_append]

theorem mergeDeclassificationAuthority_append (first : Option String)
    (rest : List (Option String)) (last : Option String) :
    mergeDeclassificationAuthority [mergeDeclassificationAuthority (first :: rest), last] =
      mergeDeclassificationAuthority (first :: (rest ++ [last])) := by
  cases first with
  | none => rfl
  | some first =>
      simp only [mergeDeclassificationAuthority, List.all_append, List.all_cons, List.all_nil,
        Bool.and_true]
      cases rest.all (· == some first) <;> simp

theorem DataLabels.aggregate_append {members : List DataLabels} (some_ : members ≠ [])
    (last : DataLabels) :
    DataLabels.aggregate [.aggregate members, last] = .aggregate (members ++ [last]) := by
  cases members with
  | nil => exact absurd rfl some_
  | cons first rest =>
      ext1
      · simpa [aggregate] using highest_append sensitivityOrder first.sensitivity
          (rest.map (·.sensitivity)) last.sensitivity
      · simpa [aggregate] using lowest_append trustOrder first.trustLevel
          (rest.map (·.trustLevel)) last.trustLevel
      · simpa [aggregate] using lowest_append integrityOrder first.integrity
          (rest.map (·.integrity)) last.integrity
      · simpa [aggregate] using @mergeIdentity_append ((first :: rest).map (·.origin)) "derived"
          (by decide) last.origin
      · simpa [aggregate] using @mergeIdentity_append ((first :: rest).map (·.tenant)) "mixed"
          (by decide) last.tenant
      · simpa [aggregate] using @mergeIdentity_append ((first :: rest).map (·.principal)) "mixed"
          (by decide) last.principal
      · simpa [aggregate] using mergeDeclassificationAuthority_append
          first.declassificationAuthority (rest.map (·.declassificationAuthority))
          last.declassificationAuthority

theorem mergeIdentity_single {value : Option String} (filled : value ≠ some "") (mixed : String) :
    mergeIdentity [value] mixed = value := by
  cases value with
  | none => rfl
  | some value =>
      apply mergeIdentity_one
      intro other
      simp only [mem_identities, List.mem_singleton, Option.some.injEq]
      constructor
      · exact fun listed => listed.1
      · rintro rfl
        exact ⟨rfl, fun empty => filled (congrArg some empty)⟩

theorem DataLabels.aggregate_single (labels : DataLabels) :
    DataLabels.aggregate [labels] = labels := by
  ext1
  · rfl
  · rfl
  · rfl
  · exact mergeIdentity_single (validText_filled labels.originValid) "derived"
  · exact mergeIdentity_single (validText_filled labels.tenantValid) "mixed"
  · exact mergeIdentity_single (validText_filled labels.principalValid) "mixed"
  · rcases labels with ⟨_, _, _, _, _, _, authority, _, _, _, _⟩
    cases authority <;> rfl

/-! ## Source references in their order -/

def DataSourceRef.key (ref : DataSourceRef) : String ×ₗ ℕ ×ₗ String :=
  toLex (ref.oid, toLex (ref.version, ref.contentSha256))

theorem DataSourceRef.key_injective : Function.Injective DataSourceRef.key := by
  rintro ⟨oid, version, sha⟩ ⟨oid', version', sha'⟩ same
  simpa [key] using same

theorem DataSourceRef.le_iff {left right : DataSourceRef} :
    left.le right = true ↔ left.key ≤ right.key := by
  simp [le, key, Prod.Lex.toLex_le_toLex]

instance : Std.Total DataSourceRef.Le := ⟨fun left right => by
  rw [DataSourceRef.Le, DataSourceRef.Le, DataSourceRef.le_iff, DataSourceRef.le_iff]
  exact le_total _ _⟩

instance : IsTrans DataSourceRef DataSourceRef.Le := ⟨fun left middle right first second => by
  rw [DataSourceRef.Le, DataSourceRef.le_iff] at *
  exact first.trans second⟩

instance : Std.Antisymm DataSourceRef.Le := ⟨fun left right first second => by
  rw [DataSourceRef.Le, DataSourceRef.le_iff] at *
  exact DataSourceRef.key_injective (le_antisymm first second)⟩

/-- Normalised references list a set in one way. -/
theorem normalizeSourceRefs_congr {left right : List DataSourceRef}
    (same : ∀ ref, ref ∈ left ↔ ref ∈ right) :
    normalizeSourceRefs left = normalizeSourceRefs right := by
  have perm : left.dedup.Perm right.dedup := by
    apply (List.perm_ext_iff_of_nodup (List.nodup_dedup _) (List.nodup_dedup _)).mpr
    intro ref
    rw [List.mem_dedup, List.mem_dedup]
    exact same ref
  have sorted := ((List.perm_insertionSort DataSourceRef.Le left.dedup).trans perm).trans
    (List.perm_insertionSort DataSourceRef.Le right.dedup).symm
  exact sorted.eq_of_pairwise' (List.pairwise_insertionSort _ _) (List.pairwise_insertionSort _ _)

theorem normalizeSourceRefs_idem (refs : List DataSourceRef) :
    normalizeSourceRefs (normalizeSourceRefs refs) = normalizeSourceRefs refs :=
  normalizeSourceRefs_congr fun _ => mem_normalizeSourceRefs

theorem aggregate_sourceRefs_append (contexts : List DataFlowContext) (labels : DataLabels)
    (last : DataFlowContext) :
    (DataFlowContext.aggregate
      [.of labels (DataFlowContext.aggregate contexts).sourceRefs none, last]).sourceRefs =
      (DataFlowContext.aggregate (contexts ++ [last])).sourceRefs := by
  apply normalizeSourceRefs_congr
  intro ref
  simp only [mem_normalizeSourceRefs, List.flatMap_append, List.flatMap_cons, List.flatMap_nil,
    List.append_nil, List.mem_append, DataFlowContext.aggregate, DataFlowContext.of]

end AgentLibOS.DataFlow
