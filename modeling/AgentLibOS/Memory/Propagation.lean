import AgentLibOS.Library.JoinFold
import AgentLibOS.Memory.DataLabels
import Mathlib.Order.Lattice.Nat

namespace AgentLibOS.Memory
open Library.JoinFold OrderDual

/-! ## Labels as a lattice -/

/-- Sensitivity grows, trust and integrity fall, tenant and principal can only become mixed. -/
abbrev Restriction := ℕ × ℕᵒᵈ × ℕᵒᵈ × Flat String × Flat String

def domain : Option String → Flat String
  | none => .bot
  | some value => if value = "" then .bot else if value = "mixed" then .top else .single value

def ObjectMetadata.restriction (metadata : ObjectMetadata) : Restriction :=
  (sensitivityOrder.idxOf metadata.sensitivity, toDual (trustOrder.idxOf metadata.trustLevel),
    toDual (integrityOrder.idxOf metadata.integrity), domain metadata.tenant,
    domain metadata.principal)

theorem highest_rank {α : Type} [DecidableEq α] (order : List α) (first : α) (rest : List α) :
    order.idxOf (highest order first rest) =
      joinAll (order.idxOf first) (rest.map order.idxOf) := by
  induction rest generalizing first with
  | nil => rfl
  | cons value rest ih =>
      rw [List.map_cons, joinAll_cons, highest, List.foldl_cons]
      refine (ih _).trans (congrArg (joinAll · _) ?_)
      split_ifs with less
      · exact (max_eq_right less.le).symm
      · exact (max_eq_left (not_lt.mp less)).symm

theorem lowest_rank {α : Type} [DecidableEq α] (order : List α) (first : α) (rest : List α) :
    toDual (order.idxOf (lowest order first rest)) =
      joinAll (toDual (order.idxOf first)) (rest.map fun value => toDual (order.idxOf value)) := by
  induction rest generalizing first with
  | nil => rfl
  | cons value rest ih =>
      rw [List.map_cons, joinAll_cons, lowest, List.foldl_cons]
      refine (ih _).trans (congrArg (joinAll · _) ?_)
      rw [← toDual_inf]
      split_ifs with less
      · exact congrArg toDual (min_eq_right less.le).symm
      · exact congrArg toDual (min_eq_left (not_lt.mp less)).symm

theorem identities_bound {values : List (Option String)} {bound : Flat String} :
    (∀ value ∈ values, domain value ≤ bound) ↔
      ∀ value ∈ identities values, domain (some value) ≤ bound := by
  constructor
  · exact fun all value member => all _ (mem_identities.mp member).1
  · intro all value member
    cases value with
    | none => exact Flat.bot_le _
    | some value =>
        by_cases empty : value = ""
        · simp [domain, empty]
        · exact all value (mem_identities.mpr ⟨member, empty⟩)

/-- Two different domains have only `mixed` above them. -/
theorem top_of_two {left right : String} {bound : Flat String} (leftFilled : left ≠ "")
    (rightFilled : right ≠ "") (different : left ≠ right) (hl : domain (some left) ≤ bound)
    (hr : domain (some right) ≤ bound) : bound = .top := by
  cases bound with
  | top => rfl
  | bot => 
      simp only [domain, leftFilled, if_false] at hl
      split_ifs at hl <;> simp at hl
  | single a =>
      simp only [domain, leftFilled, rightFilled, if_false] at hl hr
      split_ifs at hl hr <;> simp at hl hr
      exact absurd (hl.trans hr.symm) different

theorem domain_merge (explicit : Option String) (inherited : List (Option String)) :
    domain (mergeSecurityIdentity explicit inherited) =
      joinAll (domain explicit) (inherited.map domain) := by
  refine eq_of_forall_ge_iff fun bound => ?_
  have members : joinAll (domain explicit) (inherited.map domain) ≤ bound ↔
      ∀ value ∈ explicit :: inherited, domain value ≤ bound := by
    rw [joinAll_le_iff]
    simp
  have nodup : (identities (explicit :: inherited)).Nodup := List.nodup_dedup _
  have filled : ∀ value ∈ identities (explicit :: inherited), value ≠ "" :=
    fun value member => (mem_identities.mp member).2
  rw [members, identities_bound, mergeSecurityIdentity]
  cases shape : identities (explicit :: inherited) with
  | nil => simp [domain]
  | cons value others =>
      rw [shape] at nodup filled
      cases others with
      | nil =>
          by_cases mixed : value = "mixed"
          · simp [mixed]
          · simp [Ne.symm mixed]
      | cons other others =>
          have different : value ≠ other := fun same => by simp [same] at nodup
          simp only [ne_eq, reduceCtorEq, not_false_eq_true, or_true, if_true]
          constructor
          · intro top _ _
            have : bound = .top := by
              cases bound <;> simp [domain] at top ⊢
            simp [this]
          · intro all
            rw [top_of_two (filled value (by simp)) (filled other (by simp)) different
              (all value (by simp)) (all other (by simp))]
            exact Flat.le_top _

theorem propagate_joins : Joins ObjectMetadata.restriction propagateObjectLabels := by
  intro metadata parents
  by_cases none : parents = []
  · simp [propagateObjectLabels, none]
  · rw [propagateObjectLabels, if_neg none]
    simp only [ObjectMetadata.restriction, highest_rank, lowest_rank, domain_merge, joinAll_pair,
      List.map_map, Function.comp_def]

theorem identityIsConservative_iff {current proposed : Option String}
    (hc : validateOptionalIdentity true current = true)
    (hp : validateOptionalIdentity true proposed = true) :
    identityIsConservative current proposed = true ↔ domain current ≤ domain proposed := by
  have filled : ∀ {value}, validateOptionalIdentity true (some value) = true → value ≠ "" := by
    rintro value valid rfl
    simp [validateOptionalIdentity] at valid
  cases current with
  | none => cases proposed <;> simp [identityIsConservative, domain]
  | some current =>
      cases proposed with
      | none =>
          simp only [identityIsConservative, domain, filled hc, if_false]
          split_ifs <;> simp
      | some proposed =>
          have same : proposed = current ↔ current = proposed := eq_comm
          simp only [identityIsConservative, domain, filled hc, filled hp, if_false]
          by_cases top : proposed = "mixed"
          · simp [top]
          · by_cases mixed : current = "mixed"
            · simp [top, mixed]
            · simp [top, mixed, same]

theorem isConservative_iff (current proposed : ObjectMetadata) :
    isConservativeLabelPropagation current proposed = true ↔
      current.restriction ≤ proposed.restriction ∧
        (proposed.declassificationAuthority = current.declassificationAuthority ∨
          proposed.declassificationAuthority = none) := by
  simp only [isConservativeLabelPropagation, Bool.and_eq_true,
    identityIsConservative_iff current.tenantValid proposed.tenantValid,
    identityIsConservative_iff current.principalValid proposed.principalValid,
    ObjectMetadata.restriction, Prod.mk_le_mk, toDual_le_toDual, decide_eq_true_eq,
    List.mem_cons, List.not_mem_nil, or_false, and_assoc]

/-! ## Declassification authority -/

/-- The authorities the inputs carry, in order and with repetitions. -/
def authorities (inputs : List ObjectMetadata) : List String :=
  inputs.filterMap (·.declassificationAuthority)

def Conflict (carried : List String) : Prop := ∃ a ∈ carried, ∃ b ∈ carried, a ≠ b

/-- The authorities in conflict, taken out of the list. -/
theorem Conflict.perm {carried : List String} (conflict : Conflict carried) :
    ∃ a b rest, a ≠ b ∧ carried.Perm (a :: b :: rest) := by
  obtain ⟨a, ha, b, hb, different⟩ := conflict
  have other : b ∈ carried.erase a := (List.mem_erase_of_ne (Ne.symm different)).mpr hb
  exact ⟨a, b, (carried.erase a).erase b, different,
    (List.perm_cons_erase ha).trans ((List.perm_cons_erase other).cons a)⟩

/-- The one value all of `carried` agree on. -/
def unanimous (carried : List String) : Option String :=
  match carried.dedup with
  | [value] => some value
  | _ => none

theorem unanimous_eq_some_iff {carried : List String} {a : String} :
    unanimous carried = some a ↔ a ∈ carried ∧ ∀ b ∈ carried, b = a := by
  have nodup := List.nodup_dedup carried
  simp only [← List.mem_dedup (l := carried), unanimous]
  cases shape : carried.dedup with
  | nil => simp
  | cons value others =>
      cases others with
      | nil =>
          simp only [Option.some.injEq, List.mem_singleton, forall_eq]
          exact ⟨fun same => ⟨same.symm, same⟩, And.right⟩
      | cons other others =>
          rw [shape] at nodup
          have different : value ≠ other := fun same => by simp [same] at nodup
          refine iff_of_false (by simp) fun agreed => different ?_
          exact (agreed.2 value (by simp)).trans (agreed.2 other (by simp)).symm

theorem unanimous_eq_none_iff {carried : List String} :
    unanimous carried = none ↔ carried = [] ∨ Conflict carried := by
  rw [Option.eq_none_iff_forall_ne_some]
  constructor
  · intro never
    cases carried with
    | nil => exact Or.inl rfl
    | cons a carried =>
        by_contra agreed
        rw [not_or] at agreed
        refine never a (unanimous_eq_some_iff.mpr ⟨by simp, fun b member => ?_⟩)
        exact by_contra fun different => agreed.2 ⟨b, member, a, by simp, different⟩
  · rintro (rfl | ⟨a, ha, b, hb, different⟩) value agreed
    · simp [unanimous] at agreed
    · have all := (unanimous_eq_some_iff.mp agreed).2
      exact different ((all a ha).trans (all b hb).symm)

theorem unanimous_congr {left right : List String} (same : ∀ a, a ∈ left ↔ a ∈ right) :
    unanimous left = unanimous right := by
  refine Option.ext fun a => ?_
  rw [unanimous_eq_some_iff, unanimous_eq_some_iff]
  simp only [same]

theorem propagate_authority (metadata : ObjectMetadata) (parents : List ObjectMetadata) :
    (propagateObjectLabels metadata parents).declassificationAuthority =
      unanimous (authorities (metadata :: parents)) := by
  have filled : ∀ input : ObjectMetadata,
      input.declassificationAuthority.filter (· != "") = input.declassificationAuthority := by
    intro input
    have valid := input.authorityValid
    cases carried : input.declassificationAuthority with
    | none => rfl
    | some value =>
        rw [carried] at valid
        have : value ≠ "" := by
          rintro rfl
          simp [validateOptionalIdentity] at valid
        simp [this]
  by_cases none : parents = []
  · cases carried : metadata.declassificationAuthority <;>
      simp [propagateObjectLabels, none, authorities, unanimous, carried]
  · have same : identities (metadata.declassificationAuthority ::
        parents.map (·.declassificationAuthority)) = (authorities (metadata :: parents)).dedup := by
      rw [← List.map_cons (f := fun x : ObjectMetadata => x.declassificationAuthority), identities,
        List.filterMap_map]
      simp only [Function.comp_def, filled, authorities]
    simp only [propagateObjectLabels, none, if_false, mergeDeclassificationAuthority, same]
    rfl

theorem authorities_cons (metadata : ObjectMetadata) (parents : List ObjectMetadata) :
    authorities (metadata :: parents) =
      metadata.declassificationAuthority.toList ++ authorities parents := by
  cases carried : metadata.declassificationAuthority <;> simp [authorities, carried]

theorem authorities_perm {left right : List ObjectMetadata} (perm : left.Perm right) :
    (authorities left).Perm (authorities right) := perm.filterMap _

/-- What a merge step carries on is as good as what it merged, unless a conflict was forgotten. -/
theorem unanimous_step {carried later : List String} (remembered : Conflict carried → later = []) :
    unanimous ((unanimous carried).toList ++ later) = unanimous (carried ++ later) := by
  cases merged : unanimous carried with
  | none =>
      rcases unanimous_eq_none_iff.mp merged with rfl | conflict
      · rfl
      · rw [remembered conflict, List.append_nil, List.append_nil, merged]
        rfl
  | some a =>
      have agreed := unanimous_eq_some_iff.mp merged
      refine unanimous_congr fun b => ?_
      have same : b = a ↔ b ∈ carried := ⟨fun same => same ▸ agreed.1, agreed.2 b⟩
      simp [same]

/-- Without a conflict, or with too few authorities to forget one, grouping is irrelevant to the
authority too. -/
theorem authority_grouped {metadata : ObjectMetadata} {groups : List (List ObjectMetadata)}
    (fine : Conflict (authorities (metadata :: groups.flatten)) →
      (authorities (metadata :: groups.flatten)).length ≤ 2) :
    (groups.foldl propagateObjectLabels metadata).declassificationAuthority =
      unanimous (authorities (metadata :: groups.flatten)) := by
  induction groups using List.reverseRecOn with
  | nil => exact propagate_authority metadata []
  | append_singleton groups group ih =>
      have split : authorities (metadata :: (groups ++ [group]).flatten) =
          authorities (metadata :: groups.flatten) ++ authorities group := by
        rw [List.flatten_append, List.flatten_singleton, ← List.cons_append, authorities,
          List.filterMap_append]
        rfl
      rw [split] at fine ⊢
      have within : Conflict (authorities (metadata :: groups.flatten)) →
          (authorities (metadata :: groups.flatten) ++ authorities group).length ≤ 2 := by
        rintro ⟨a, ha, b, hb, different⟩
        exact fine ⟨a, List.mem_append_left _ ha, b, List.mem_append_left _ hb, different⟩
      have before := ih fun conflict => by
        have := within conflict
        simp only [List.length_append] at this
        omega
      rw [List.foldl_append, List.foldl_cons, List.foldl_nil, propagate_authority,
        authorities_cons, before, unanimous_step]
      intro conflict
      have short := within conflict
      have two : 2 ≤ (authorities (metadata :: groups.flatten)).length := by
        obtain ⟨a, b, rest, -, perm⟩ := conflict.perm
        simp [perm.length_eq]
      exact List.length_eq_zero_iff.mp (by simp only [List.length_append] at short; omega)

/-- A conflict among three or more authorities survives without one of the inherited ones. -/
theorem Conflict.spare {own : Option String} {inherited : List String}
    (conflict : Conflict (own.toList ++ inherited))
    (long : 3 ≤ (own.toList ++ inherited).length) :
    ∃ spare rest, inherited.Perm (spare :: rest) ∧ Conflict (own.toList ++ rest) := by
  cases own with
  | none =>
      obtain ⟨a, b, rest, different, perm⟩ := conflict.perm
      simp only [Option.toList_none, List.nil_append] at long perm ⊢
      cases rest with
      | nil => simp [perm.length_eq] at long
      | cons spare rest =>
          refine ⟨spare, a :: b :: rest, perm.trans ?_, a, by simp, b, by simp, different⟩
          exact ((List.Perm.swap spare b rest).cons a).trans (List.Perm.swap spare a _)
  | some x =>
      simp only [Option.toList_some, List.singleton_append] at conflict long ⊢
      have other : ∃ y ∈ inherited, y ≠ x := by
        obtain ⟨a, ha, b, hb, different⟩ := conflict
        by_contra agreed
        push Not at agreed
        have all : ∀ c ∈ x :: inherited, c = x := by simpa using agreed
        exact different ((all a ha).trans (all b hb).symm)
      obtain ⟨y, member, different⟩ := other
      have perm := List.perm_cons_erase member
      cases rest : inherited.erase y with
      | nil =>
          rw [rest] at perm
          simp [perm.length_eq] at long
      | cons spare rest' =>
          rw [rest] at perm
          exact ⟨spare, y :: rest', perm.trans (List.Perm.swap spare y rest'), x, by simp, y,
            by simp, different.symm⟩

theorem exists_forgetful_order {metadata : ObjectMetadata} {parents : List ObjectMetadata}
    (conflict : Conflict (authorities (metadata :: parents)))
    (long : 3 ≤ (authorities (metadata :: parents)).length) :
    ∃ last rest a, (rest ++ [last]).Perm parents ∧ last.declassificationAuthority = some a ∧
      Conflict (authorities (metadata :: rest)) := by
  rw [authorities_cons] at conflict long
  obtain ⟨a, kept, perm, conflict'⟩ := conflict.spare long
  have member : a ∈ authorities parents := perm.mem_iff.mpr (by simp)
  obtain ⟨last, inside, carries⟩ := List.mem_filterMap.mp member
  obtain ⟨before, after, rfl⟩ := List.append_of_mem inside
  have moved : (before ++ last :: after).Perm (last :: (before ++ after)) := List.perm_middle
  refine ⟨last, before ++ after, a, ?_, carries, ?_⟩
  · exact (List.perm_append_singleton last _).trans moved.symm
  · have same : (authorities (before ++ after)).Perm kept := by
      have both := (authorities_perm moved).symm.trans perm
      rw [authorities_cons, carries] at both
      exact List.Perm.cons_inv both
    obtain ⟨b, hb, c, hc, different⟩ := conflict'
    rw [authorities_cons]
    have whole := (same.append_left metadata.declassificationAuthority.toList).symm
    exact ⟨b, whole.mem_iff.mp hb, c, whole.mem_iff.mp hc, different⟩

/-! ## When propagation does not launder -/

def comparedLabels (metadata : ObjectMetadata) :
    DataSensitivity × DataTrustLevel × DataIntegrity × Option String × Option String ×
      Option String :=
  (metadata.sensitivity, metadata.trustLevel, metadata.integrity, metadata.tenant,
    metadata.principal, metadata.declassificationAuthority)

/-- The result restricts every input, and no order or grouping of the sources changes it. -/
structure NeverLaunders (metadata : ObjectMetadata) (parents : List ObjectMetadata) : Prop where
  conservative : ∀ input ∈ metadata :: parents,
    isConservativeLabelPropagation input (propagateObjectLabels metadata parents) = true
  grouping : ∀ groups : List (List ObjectMetadata), groups.flatten.Perm parents →
    comparedLabels (groups.foldl propagateObjectLabels metadata) =
      comparedLabels (propagateObjectLabels metadata parents)

/-- Nobody names an authority, everybody names the same one, or just two are named and differ. -/
def AuthorityKept (metadata : ObjectMetadata) (parents : List ObjectMetadata) : Prop :=
  parents = [] ∨ authorities (metadata :: parents) = [] ∨
    (∃ a, ∀ input ∈ metadata :: parents, input.declassificationAuthority = some a) ∨
    (authorities (metadata :: parents)).length = 2 ∧ Conflict (authorities (metadata :: parents))

theorem domain_injective {left right : Option String}
    (hl : validateOptionalIdentity true left = true)
    (hr : validateOptionalIdentity true right = true) (same : domain left = domain right) :
    left = right := by
  have filled : ∀ {value}, validateOptionalIdentity true (some value) = true → value ≠ "" := by
    rintro value valid rfl
    simp [validateOptionalIdentity] at valid
  cases left with
  | none =>
      cases right with
      | none => rfl
      | some right =>
          simp only [domain, filled hr, if_false] at same
          split_ifs at same
  | some left =>
      cases right with
      | none =>
          simp only [domain, filled hl, if_false] at same
          split_ifs at same
      | some right =>
          simp only [domain, filled hl, filled hr, if_false] at same
          split_ifs at same with mixed mixed'
          · rw [mixed, mixed']
          · exact congrArg some (Flat.single.inj same)

theorem comparedLabels_eq_iff {left right : ObjectMetadata} :
    comparedLabels left = comparedLabels right ↔ left.restriction = right.restriction ∧
      left.declassificationAuthority = right.declassificationAuthority := by
  have sensitivity : sensitivityOrder.idxOf left.sensitivity =
      sensitivityOrder.idxOf right.sensitivity ↔ left.sensitivity = right.sensitivity :=
    List.idxOf_inj (by cases left.sensitivity <;> decide)
  have trust : trustOrder.idxOf left.trustLevel = trustOrder.idxOf right.trustLevel ↔
      left.trustLevel = right.trustLevel := List.idxOf_inj (by cases left.trustLevel <;> decide)
  have integrity : integrityOrder.idxOf left.integrity = integrityOrder.idxOf right.integrity ↔
      left.integrity = right.integrity := List.idxOf_inj (by cases left.integrity <;> decide)
  have tenant : domain left.tenant = domain right.tenant ↔ left.tenant = right.tenant :=
    ⟨domain_injective left.tenantValid right.tenantValid, congrArg domain⟩
  have principal : domain left.principal = domain right.principal ↔
      left.principal = right.principal :=
    ⟨domain_injective left.principalValid right.principalValid, congrArg domain⟩
  simp only [comparedLabels, ObjectMetadata.restriction, Prod.mk.injEq, toDual_inj, sensitivity,
    trust, integrity, tenant, principal, and_assoc]

theorem mem_authorities {inputs : List ObjectMetadata} {a : String} :
    a ∈ authorities inputs ↔ ∃ input ∈ inputs, input.declassificationAuthority = some a :=
  List.mem_filterMap

theorem AuthorityKept.conflict_short {metadata : ObjectMetadata} {parents : List ObjectMetadata}
    (kept : AuthorityKept metadata parents) (conflict : Conflict (authorities (metadata :: parents))) :
    (authorities (metadata :: parents)).length ≤ 2 := by
  rcases kept with rfl | empty | ⟨a, all⟩ | ⟨two, -⟩
  · exact (List.length_filterMap_le _ _).trans (by simp)
  · simp [empty]
  · obtain ⟨b, hb, c, hc, different⟩ := conflict
    have same : ∀ d ∈ authorities (metadata :: parents), d = a := by
      intro d member
      obtain ⟨input, inside, carries⟩ := mem_authorities.mp member
      exact Option.some.inj (carries.symm.trans (all input inside))
    exact absurd ((same b hb).trans (same c hc).symm) different
  · exact two.le

theorem AuthorityKept.conservative {metadata : ObjectMetadata} {parents : List ObjectMetadata}
    (kept : AuthorityKept metadata parents) {input : ObjectMetadata}
    (member : input ∈ metadata :: parents) :
    (propagateObjectLabels metadata parents).declassificationAuthority =
        input.declassificationAuthority ∨
      (propagateObjectLabels metadata parents).declassificationAuthority = none := by
  rcases kept with rfl | empty | ⟨a, all⟩ | ⟨-, conflict⟩
  · obtain rfl : input = metadata := by simpa using member
    exact Or.inl (by simp [propagateObjectLabels])
  · rw [propagate_authority, empty]
    exact Or.inr rfl
  · rw [propagate_authority, all input member]
    refine Or.inl (unanimous_eq_some_iff.mpr ⟨?_, fun b carried => ?_⟩)
    · exact mem_authorities.mpr ⟨input, member, all input member⟩
    · obtain ⟨other, inside, carries⟩ := mem_authorities.mp carried
      exact Option.some.inj (carries.symm.trans (all other inside))
  · rw [propagate_authority]
    exact Or.inr (unanimous_eq_none_iff.mpr (Or.inr conflict))

/-- Five components are joins and never launder; the authority is what decides. -/
theorem neverLaunders_iff (metadata : ObjectMetadata) (parents : List ObjectMetadata) :
    NeverLaunders metadata parents ↔ AuthorityKept metadata parents := by
  constructor
  · intro safe
    cases merged : unanimous (authorities (metadata :: parents)) with
    | some a =>
        refine Or.inr (Or.inr (Or.inl ⟨a, fun input member => ?_⟩))
        have kept := ((isConservative_iff _ _).mp (safe.conservative input member)).2
        rw [propagate_authority, merged] at kept
        exact (kept.resolve_right (by simp)).symm
    | none =>
        rcases unanimous_eq_none_iff.mp merged with empty | conflict
        · exact Or.inr (Or.inl empty)
        · obtain ⟨_, _, _, -, perm⟩ := conflict.perm
          by_cases long : 3 ≤ (authorities (metadata :: parents)).length
          · obtain ⟨last, first, c, order, carries, forgotten⟩ :=
              exists_forgetful_order conflict long
            have same := (comparedLabels_eq_iff.mp (safe.grouping [first, [last]]
              (by simpa using order))).2
            have cleared : unanimous (authorities (metadata :: first)) = none :=
              unanimous_eq_none_iff.mpr (Or.inr forgotten)
            rw [List.foldl_cons, List.foldl_cons, List.foldl_nil, propagate_authority,
              authorities_cons, propagate_authority, propagate_authority, merged, cleared,
              authorities_cons, carries] at same
            simp [authorities, unanimous] at same
          · have two := perm.length_eq
            simp only [List.length_cons] at two
            exact Or.inr (Or.inr (Or.inr ⟨by omega, conflict⟩))
  · intro kept
    refine ⟨fun input member => ?_, fun groups perm => ?_⟩
    · exact (isConservative_iff _ _).mpr ⟨propagate_joins.le member, kept.conservative member⟩
    · have same := authorities_perm (perm.cons metadata)
      refine comparedLabels_eq_iff.mpr ⟨propagate_joins.grouping_irrelevant perm, ?_⟩
      rw [authority_grouped, propagate_authority, unanimous_congr fun a => same.mem_iff]
      rintro ⟨a, ha, b, hb, different⟩
      rw [same.length_eq]
      exact kept.conflict_short ⟨a, same.mem_iff.mp ha, b, same.mem_iff.mp hb, different⟩

/-- The labels of a default `ObjectMetadata`. -/
def unclaimed : ObjectMetadata where
  sensitivity := .normal
  trustLevel := .unknown
  integrity := .unknown
  origin := some "local"
  tenant := none
  principal := none
  declassificationAuthority := none
  originValid := by decide
  tenantValid := rfl
  principalValid := rfl
  authorityValid := rfl

def claimed (authority : String)
    (valid : validateOptionalIdentity false (some authority) = true) : ObjectMetadata :=
  { unclaimed with declassificationAuthority := some authority, authorityValid := valid }

/-- A source without an authority is given the authority of another. -/
theorem propagate_launders_authority : ¬ ∀ metadata parents, NeverLaunders metadata parents := by
  intro safe
  have kept := (safe unclaimed [claimed "legal" (by decide)]).conservative unclaimed (by simp)
  exact absurd kept (by decide)

end AgentLibOS.Memory
