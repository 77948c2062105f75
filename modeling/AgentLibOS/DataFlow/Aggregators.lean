import AgentLibOS.DataFlow.Labels

namespace AgentLibOS.DataFlow
open Memory

/-- `from_object_metadata`. -/
def DataLabels.fromObjectMetadata (metadata : ObjectMetadata) : DataLabels where
  sensitivity := metadata.sensitivity
  trustLevel := metadata.trustLevel
  integrity := metadata.integrity
  origin := metadata.origin
  tenant := metadata.tenant
  principal := metadata.principal
  declassificationAuthority := metadata.declassificationAuthority
  originValid := (validateOptionalText_eq false metadata.origin).trans metadata.originValid
  tenantValid := (validateOptionalText_eq true metadata.tenant).trans metadata.tenantValid
  principalValid := (validateOptionalText_eq true metadata.principal).trans metadata.principalValid
  authorityValid :=
    (validateOptionalText_eq false metadata.declassificationAuthority).trans metadata.authorityValid

/-- The two labels agree on all that an egress decision reads. -/
structure DataLabels.Agree (left right : DataLabels) : Prop where
  sensitivity : left.sensitivity = right.sensitivity
  trustLevel : left.trustLevel = right.trustLevel
  integrity : left.integrity = right.integrity
  tenant : left.tenant = right.tenant
  principal : left.principal = right.principal
  declassificationAuthority : left.declassificationAuthority = right.declassificationAuthority

/-- Some labels carry one and the same authority, and others carry none. -/
def OneAuthorityMissing (values : List (Option String)) : Prop :=
  none ∈ values ∧ ∃ authority, some authority ∈ values ∧
    ∀ value ∈ values, value = none ∨ value = some authority

/-! ## Merging one component -/

theorem validateOptionalText_filled {allowMixed : Bool} {value : Option String}
    (valid : validateOptionalText allowMixed value = true) : value ≠ some "" := by
  rintro rfl
  cases allowMixed <;> exact absurd valid (by decide)

/-- Both merges see the same set of identities, and `mixed` alone is mixed. -/
theorem mergeIdentity_eq (explicit : Option String) (inherited : List (Option String)) :
    mergeIdentity (explicit :: inherited) "mixed" = mergeSecurityIdentity explicit inherited := by
  unfold mergeIdentity mergeSecurityIdentity
  rcases identities (explicit :: inherited) with _ | ⟨value, _ | ⟨other, others⟩⟩
  · rfl
  · by_cases mixed : value = "mixed"
    · simp [mixed]
    · simp [Ne.symm mixed]
  · simp

theorem identities_alone {value : String} (filled : value ≠ "") :
    identities [some value] = [value] := by
  have kept : (some value).filter (· != "") = some value := by simp [Option.filter, filled]
  simp [identities, kept]

/-- A single identity is kept. -/
theorem mergeSecurityIdentity_alone {value : Option String} (filled : value ≠ some "") :
    mergeSecurityIdentity value [] = value := by
  unfold mergeSecurityIdentity
  cases value with
  | none => rfl
  | some value =>
      rw [identities_alone (by simpa using filled)]
      by_cases mixed : value = "mixed"
      · simp [mixed]
      · simp [Ne.symm mixed]

theorem aggregateAuthority_alone (value : Option String) :
    mergeDeclassificationAuthority [value] = value := by
  cases value <;> rfl

theorem derivedAuthority_alone {value : Option String} (filled : value ≠ some "") :
    Memory.mergeDeclassificationAuthority value [] = value := by
  unfold Memory.mergeDeclassificationAuthority
  cases value with
  | none => rfl
  | some value => rw [identities_alone (by simpa using filled)]

/-- There is one identity exactly when some value is that identity and no other identity occurs. -/
theorem identities_eq_single {values : List (Option String)} {value : String} :
    identities values = [value] ↔
      value ∈ identities values ∧ ∀ other ∈ identities values, other = value := by
  constructor
  · intro single
    simp [single]
  · rintro ⟨member, unique⟩
    have nodup : (identities values).Nodup := List.nodup_dedup _
    rcases shape : identities values with _ | ⟨first, _ | ⟨second, others⟩⟩
    · simp [shape] at member
    · rw [unique first (by simp [shape])]
    · rw [shape] at nodup
      have same := (unique first (by simp [shape])).trans (unique second (by simp [shape])).symm
      simp [same] at nodup

/-- The authority of an aggregate is the one that every label carries. -/
theorem aggregateAuthority_eq_some {first : Option String} {rest : List (Option String)}
    {authority : String} :
    mergeDeclassificationAuthority (first :: rest) = some authority ↔
      ∀ value ∈ first :: rest, value = some authority := by
  cases first with
  | none => simp [mergeDeclassificationAuthority]
  | some own =>
      simp only [mergeDeclassificationAuthority]
      split_ifs with all
      · simp only [List.all_eq_true, beq_iff_eq] at all
        constructor
        · rintro ⟨⟩
          exact List.forall_mem_cons.mpr ⟨rfl, all⟩
        · intro every
          exact every _ List.mem_cons_self
      · refine iff_of_false (by simp) fun every => all ?_
        have same := every _ List.mem_cons_self
        simp only [List.all_eq_true, beq_iff_eq, same]
        exact fun value member => every value (List.mem_cons_of_mem _ member)

/-- The authority of a derived object is the only one that occurs. -/
theorem derivedAuthority_eq_some {explicit : Option String} {inherited : List (Option String)}
    {authority : String} :
    Memory.mergeDeclassificationAuthority explicit inherited = some authority ↔
      authority ∈ identities (explicit :: inherited) ∧
        ∀ other ∈ identities (explicit :: inherited), other = authority := by
  rw [← identities_eq_single]
  unfold Memory.mergeDeclassificationAuthority
  split
  · rename_i value single
    rw [single]
    simp
  · rename_i several
    exact iff_of_false (by simp) fun single => several authority single

/-- The two merges of authorities differ when one authority stands beside missing ones. -/
theorem mergeAuthority_iff {first : Option String} {rest : List (Option String)}
    (filled : some "" ∉ first :: rest) :
    mergeDeclassificationAuthority (first :: rest) =
        Memory.mergeDeclassificationAuthority first rest ↔
      ¬ OneAuthorityMissing (first :: rest) := by
  have named : ∀ {value}, some value ∈ first :: rest → value ∈ identities (first :: rest) := by
    intro value member
    refine mem_identities.mpr ⟨member, ?_⟩
    rintro rfl
    exact filled member
  constructor
  · rintro same ⟨missing, authority, carried, others⟩
    have derived : Memory.mergeDeclassificationAuthority first rest = some authority := by
      refine derivedAuthority_eq_some.mpr ⟨named carried, fun other member => ?_⟩
      simpa using others _ (mem_identities.mp member).1
    have every := aggregateAuthority_eq_some.mp (same.trans derived)
    cases every none missing
  · intro complete
    apply Option.ext
    intro authority
    rw [aggregateAuthority_eq_some, derivedAuthority_eq_some]
    constructor
    · intro every
      refine ⟨named (every first List.mem_cons_self ▸ List.mem_cons_self), fun other member => ?_⟩
      simpa using every _ (mem_identities.mp member).1
    · rintro ⟨carried, unique⟩ value member
      have alone : ∀ value ∈ first :: rest, value = none ∨ value = some authority := by
        intro value member
        cases value with
        | none => exact Or.inl rfl
        | some other => exact Or.inr (congrArg some (unique other (named member)))
      rcases alone value member with rfl | same
      · exact absurd ⟨member, authority, (mem_identities.mp carried).1, alone⟩ complete
      · exact same

/-! ## Both aggregators -/

/-- `DataLabels.aggregate` and `propagate_object_labels` give the same labels but for their origin,
unless some of the labels carry one and the same authority and others carry none. -/
theorem aggregators_agree_iff (first : DataLabels) (rest : List DataLabels) :
    (DataLabels.aggregate (first :: rest)).Agree
        (.fromObjectMetadata (propagateObjectLabels first.metadata (rest.map (·.metadata)))) ↔
      ¬ OneAuthorityMissing ((first :: rest).map (·.declassificationAuthority)) := by
  have filled : some "" ∉ (first :: rest).map (·.declassificationAuthority) := by
    intro member
    obtain ⟨labels, -, empty⟩ := List.mem_map.mp member
    exact validateOptionalText_filled labels.authorityValid empty
  rw [List.map_cons] at filled ⊢
  rw [← mergeAuthority_iff filled]
  by_cases alone : rest = []
  · subst alone
    have tenant := mergeSecurityIdentity_alone (validateOptionalText_filled first.tenantValid)
    have principal := mergeSecurityIdentity_alone (validateOptionalText_filled first.principalValid)
    have authority := derivedAuthority_alone (validateOptionalText_filled first.authorityValid)
    refine iff_of_true ⟨rfl, rfl, rfl, ?_, ?_, aggregateAuthority_alone _⟩
      ((aggregateAuthority_alone _).trans authority.symm)
    · exact (mergeIdentity_eq _ _).trans tenant
    · exact (mergeIdentity_eq _ _).trans principal
  · have several : rest.map (·.metadata) ≠ [] := by simpa using alone
    unfold propagateObjectLabels
    rw [if_neg several]
    constructor
    · intro agree
      have same := agree.declassificationAuthority
      simpa [DataLabels.aggregate, DataLabels.fromObjectMetadata, DataLabels.metadata,
        Function.comp_def] using same
    · intro same
      constructor
      all_goals
        simp [DataLabels.aggregate, DataLabels.fromObjectMetadata, DataLabels.metadata,
          Function.comp_def, mergeIdentity_eq, same]

def legalLabels : DataLabels :=
  { DataLabels.default with
    declassificationAuthority := some "legal"
    authorityValid := by decide }

/-- An object derived from a normal one and one of `legal` carries that authority, their aggregate
does not. -/
theorem aggregators_disagree :
    ¬ (DataLabels.aggregate [.default, legalLabels]).Agree
      (.fromObjectMetadata
        (propagateObjectLabels DataLabels.default.metadata [legalLabels.metadata])) := by
  intro agree
  have same := agree.declassificationAuthority
  revert same
  decide

end AgentLibOS.DataFlow
