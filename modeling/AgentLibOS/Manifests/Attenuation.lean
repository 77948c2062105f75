import AgentLibOS.Manifests.Normal

namespace AgentLibOS.Manifests
open Capability CapabilityManager Library.Run

/-! ## Attenuation -/

/-- `below` has no authority that `above` does not have. -/
structure Attenuates (engine : Engine) (config : CapabilityConfig)
    (above below : TaskAuthorityManifest) : Prop where
  ceiling : below.isCeiling = true
  authorized : ∀ spec ∈ below.authorizedCapabilities, ∃ parent ∈ above.authorizedCapabilities,
    specCovers engine config parent spec = .ok true
  requestable : ∀ spec ∈ below.requestable,
    ∃ parent ∈ above.authorizedCapabilities ++ above.requestable,
      specCovers engine config parent spec = .ok true
  effects : ∀ effect, below.permitsEffect effect = true → above.permitsEffect effect = true
  budget : ∀ field limit, above.resourceBudget.get field = some limit →
    ∃ value, below.resourceBudget.get field = some value ∧ value ≤ limit
  tenants : below.dataFlowPolicy.allowedTenants ⊆ above.dataFlowPolicy.allowedTenants
  principals : below.dataFlowPolicy.allowedPrincipals ⊆ above.dataFlowPolicy.allowedPrincipals
  semantic : ∀ rule ∈ below.semanticRules, ∃ parent ∈ above.semanticRules,
    parent.ruleId = rule.ruleId ∧ parent.authorityOperation = rule.authorityOperation ∧
      specCovers engine config parent.spec rule.spec = .ok true
  expiry : ∀ limit, above.expiresAt = some limit → ∃ bound last first,
    below.expiresAt = some bound ∧ expiryDatetime engine limit = .ok last ∧
      expiryDatetime engine bound = .ok first ∧ first ≤ last

section Launch
variable {engine : Engine} {config : CapabilityConfig}

/-! ## Effects -/

theorem effectStem_ok {pattern stem : List Char} (stemmed : effectStem pattern = some stem) :
    pattern = stem ++ ['*'] ∧ '.' ∈ stem := by
  unfold effectStem at stemmed
  split_ifs at stemmed with wild
  cases stemmed
  obtain ⟨front, rfl⟩ := wild
  have split : front ++ ['.', '*'] = (front ++ ['.']) ++ ['*'] := by simp
  rw [split, List.dropLast_concat]
  simp

theorem effectMatches_iff {pattern effect : List Char} : effectMatches pattern effect = true ↔
    pattern = ['*'] ∨ pattern = effect ∨
      ∃ stem, effectStem pattern = some stem ∧ stem <+: effect := by
  unfold effectMatches
  cases effectStem pattern with
  | none => simp
  | some stem => simp [or_assoc]

theorem effectPatternCovers_sound {parent child effect : List Char}
    (covers : effectPatternCovers parent child = true) (matched : effectMatches child effect = true) :
    effectMatches parent effect = true := by
  unfold effectPatternCovers at covers
  split_ifs at covers with all same
  · simp [effectMatches, all]
  · exact same ▸ matched
  · cases stemmed : effectStem parent with
    | none =>
        rw [stemmed] at covers
        cases covers
    | some stem =>
        rw [stemmed] at covers
        refine effectMatches_iff.mpr (Or.inr (Or.inr ⟨stem, stemmed, ?_⟩))
        have dot := (effectStem_ok stemmed).2
        rcases effectMatches_iff.mp matched with rfl | rfl | ⟨inner, narrower, below⟩
        · -- the stem has a dot and is no prefix of the bare star
          have bare : effectStem ['*'] = none := by decide
          have within : stem <+: ['*'] := by simpa [bare] using covers
          have star := within.subset dot
          simp at star
        · cases narrower : effectStem child with
          | none => simpa [narrower] using covers
          | some inner =>
              have within : stem <+: inner := by simpa [narrower] using covers
              rw [(effectStem_ok narrower).1]
              exact within.trans (List.prefix_append _ _)
        · have within : stem <+: inner := by simpa [narrower] using covers
          exact within.trans below

theorem requireEffectsAttenuated_ok {parent child : TaskAuthorityManifest}
    (done : requireEffectsAttenuated parent.permittedEffects child.permittedEffects = .ok ())
    {effect : String} (permitted : child.permitsEffect effect = true) :
    parent.permitsEffect effect = true := by
  unfold TaskAuthorityManifest.permitsEffect at permitted ⊢
  generalize parent.permittedEffects = above at done ⊢
  generalize child.permittedEffects = below at done permitted
  cases above with
  | none => rfl
  | some above =>
      cases below with
      | none => cases done
      | some below =>
          obtain ⟨pattern, member, matched⟩ := List.any_eq_true.mp permitted
          obtain ⟨wider, listed, covers⟩ := ensure_ok.mp done pattern member
          exact List.any_eq_true.mpr ⟨wider, listed, effectPatternCovers_sound covers matched⟩

/-! ## Budgets and identities -/

theorem requireBudgetAttenuated_ok {parent child : Budget}
    (done : requireBudgetAttenuated parent child = .ok ()) {field : String} {limit : ℚ}
    (bounded : parent.get field = some limit) :
    ∃ value, child.get field = some value ∧ value ≤ limit := by
  have found : parent.lookup field = some (some limit) := Option.join_eq_some_iff.mp bounded
  obtain ⟨before, after, rfl, -⟩ := List.lookup_eq_some_iff.mp found
  have checked := forM_eq_ok.mp done (field, some limit) (by simp)
  obtain ⟨value, present, within⟩ := ensure_ok.mp checked limit rfl
  exact ⟨value, present, within⟩

theorem dataFlowIdentities_ok {label : String} {values stored : List String}
    (done : dataFlowIdentities label values = .ok stored) {value : String} :
    value ∈ stored ↔ value ∈ values := by
  simp only [dataFlowIdentities, bind_eq_ok, ensure_ok, exists_const] at done
  obtain ⟨-, -, done⟩ := done
  cases done
  rw [sortedKeys, List.mem_insertionSort, List.mem_dedup]

theorem normalizeDataFlowPolicy_ok {policy : Option DataFlowPolicy} {stored : DataFlowPolicy}
    (done : normalizeDataFlowPolicy policy = .ok stored) {value : String} :
    (value ∈ stored.allowedTenants ↔ value ∈ (policy.getD {}).allowedTenants) ∧
      (value ∈ stored.allowedPrincipals ↔ value ∈ (policy.getD {}).allowedPrincipals) := by
  simp only [normalizeDataFlowPolicy, bind_eq_ok] at done
  obtain ⟨tenants, checkedTenants, principals, checkedPrincipals, done⟩ := done
  cases done
  exact ⟨dataFlowIdentities_ok checkedTenants, dataFlowIdentities_ok checkedPrincipals⟩

/-! ## Rules -/

theorem rightSet_of_nodup {rights : List String} (distinct : rights.Nodup) :
    sortedKeys rights = rightSet rights := by
  rw [rightSet, distinct.dedup]

theorem semanticAutoApprovalRights_ok {label : String} {rights stored : List String}
    (done : semanticAutoApprovalRights label rights = .ok stored) : stored = rightSet rights := by
  simp only [semanticAutoApprovalRights, bind_eq_ok, ensure_ok, exists_const] at done
  obtain ⟨-, -, distinct, done⟩ := done
  cases done
  exact rightSet_of_nodup distinct

theorem normalizeSemanticAutoApprovalRule_ok {raw rule : SemanticAutoApprovalRule} {index : Nat}
    (done : normalizeSemanticAutoApprovalRule raw index = .ok rule) :
    rule = { raw with rights := rightSet raw.rights } := by
  unfold normalizeSemanticAutoApprovalRule at done
  dsimp only at done
  obtain ⟨-, -, done⟩ := bind_eq_ok.mp done
  split at done
  · cases done
  · obtain ⟨-, -, done⟩ := bind_eq_ok.mp done
    split at done
    · cases done
    · simp only [bind_eq_ok, ensure_ok, exists_const] at done
      obtain ⟨-, -, rights, checked, -, done⟩ := done
      cases done
      rw [semanticAutoApprovalRights_ok checked]

/-- The rules that a pass leaves are those that it found and the normal forms of the others. -/
theorem normalizeSemanticRules_ok {index : Nat} {seen raw rules : List SemanticAutoApprovalRule}
    (done : normalizeSemanticRules index seen raw = .ok rules) :
    rules = seen ++ raw.map fun rule => { rule with rights := rightSet rule.rights } := by
  induction raw generalizing index seen with
  | nil =>
      cases done
      simp
  | cons first rest ih =>
      simp only [normalizeSemanticRules, bind_eq_ok, ensure_ok, exists_const] at done
      obtain ⟨rule, checked, -, done⟩ := done
      rw [ih done, normalizeSemanticAutoApprovalRule_ok checked]
      simp

theorem normalizeSemanticAutoApprovalPolicy_ok {raw : Option (List SemanticAutoApprovalRule)}
    {rules : List SemanticAutoApprovalRule}
    (done : normalizeSemanticAutoApprovalPolicy raw = .ok rules) {rule : SemanticAutoApprovalRule} :
    rule ∈ rules ↔
      ∃ source ∈ raw.getD [], { source with rights := rightSet source.rights } = rule := by
  simp only [normalizeSemanticAutoApprovalPolicy, bind_eq_ok] at done
  obtain ⟨selected, checked, done⟩ := done
  cases done
  rw [List.mem_insertionSort, normalizeSemanticRules_ok checked]
  simp

theorem coerceSpec_rightSet (entry : CapabilityEntry) :
    coerceSpec engine config { entry with rights := rightSet entry.rights } =
      coerceSpec engine config entry := by
  simp only [coerceSpec, normalizeRights_rightSet]

theorem requireSemanticAutoApprovalAttenuated_ok {parent child : TaskAuthorityManifest}
    (done : requireSemanticAutoApprovalAttenuated engine config
      parent.approvalPolicy.semanticAutoApproval child.approvalPolicy.semanticAutoApproval = .ok ())
    {rule : SemanticAutoApprovalRule} (member : rule ∈ child.semanticRules) :
    ∃ source ∈ parent.semanticRules, source.ruleId = rule.ruleId ∧
      source.authorityOperation = rule.authorityOperation ∧
        specCovers engine config source.spec rule.spec = .ok true := by
  simp only [requireSemanticAutoApprovalAttenuated, bind_eq_ok] at done
  obtain ⟨parentRules, checkedParent, childRules, checkedChild, done⟩ := done
  have listed := (normalizeSemanticAutoApprovalPolicy_ok checkedChild).mpr ⟨rule, member, rfl⟩
  have checked := forM_eq_ok.mp done _ listed
  unfold requireRuleAttenuated at checked
  split at checked
  · cases checked
  · rename_i parentRule found
    simp only [bind_eq_ok, ensure_ok, exists_const] at checked
    obtain ⟨operation, covered, compared, checked⟩ := checked
    cases covered with
    | false => cases checked
    | true =>
        obtain ⟨source, held, rfl⟩ := (normalizeSemanticAutoApprovalPolicy_ok checkedParent).mp
          (List.mem_of_find?_eq_some found)
        have named : source.ruleId = rule.ruleId := by simpa using List.find?_some found
        refine ⟨source, held, named, operation.symm, ?_⟩
        have left := @coerceSpec_rightSet engine config source.spec
        have right := @coerceSpec_rightSet engine config rule.spec
        rw [← compared]
        simp only [specCovers]
        rw [← left, ← right]
        rfl

/-! ## Requestable capabilities -/

theorem requireRequestableCapabilitiesAttenuated_ok {parent child : TaskAuthorityManifest}
    (done : requireRequestableCapabilitiesAttenuated engine config parent child.approvalPolicy =
      .ok ()) {spec : CapabilityEntry} (member : spec ∈ child.requestable) :
    ∃ wider ∈ parent.authorizedCapabilities ++ parent.requestable,
      specCovers engine config wider spec = .ok true := by
  simp only [requireRequestableCapabilitiesAttenuated, bind_eq_ok] at done
  obtain ⟨parentRequestable, fromParent, childRequestable, fromChild, done⟩ := done
  simp only [normalizeRequestableSpecs, bind_eq_ok] at fromParent fromChild
  obtain ⟨-, -, parentSpecs, normalParent, -, -, same⟩ := fromParent
  cases same
  obtain ⟨-, -, childSpecs, normalChild, -, -, same⟩ := fromChild
  cases same
  obtain ⟨normal, listed, made⟩ := mapM_input normalChild member
  obtain ⟨wider, held, covered⟩ := requireSpecCovered_ok (forM_eq_ok.mp done normal listed)
  have covered := (normalizeSpec_ok made).covered_by covered
  rcases List.mem_append.mp held with authorized | requestable
  · exact ⟨wider, List.mem_append_left _ authorized, covered⟩
  · obtain ⟨raw, kept, made'⟩ := mapM_result normalParent requestable
    exact ⟨raw, List.mem_append_right _ kept, (normalizeSpec_ok made').covers covered⟩

theorem requireExpiryAttenuated_ok {above below : Option String}
    (done : requireExpiryAttenuated engine above below = .ok ()) {limit : String}
    (bounded : above = some limit) : ∃ bound last first, below = some bound ∧
      expiryDatetime engine limit = .ok last ∧ expiryDatetime engine bound = .ok first ∧
        first ≤ last := by
  subst bounded
  cases below with
  | none => cases done
  | some bound =>
      simp only [requireExpiryAttenuated, bind_eq_ok, ensure_ok] at done
      obtain ⟨first, parsed, last, parsed', within⟩ := done
      exact ⟨bound, last, first, rfl, parsed', parsed, within⟩

/-! ## One launch -/

theorem lookup_mergeMapping {parent supplied : Dict} {key : String}
    (given : supplied.has key = true) :
    (mergeMapping parent supplied).lookup key = supplied.lookup key := by
  have absent : (parent.filter fun entry => !supplied.has entry.1).lookup key = none := by
    rw [List.lookup_eq_none_iff]
    intro entry member
    obtain ⟨-, other⟩ := List.mem_filter.mp member
    simp only [bne_iff_ne, ne_eq]
    rintro rfl
    rw [given] at other
    cases other
  rw [mergeMapping, List.lookup_append, absent, Option.none_or]

theorem launchMetadata_ceiling (request : LaunchRequest) :
    (launchMetadata request true).lookup "transition_ceiling" = some (.bool true) := by
  unfold launchMetadata
  rw [lookup_mergeMapping]
  · rw [Bool.or_true]
    rfl
  · rfl

/-- A launch under a ceiling stays within it. -/
theorem prepareLaunch_attenuates {parent child : TaskAuthorityManifest} {request : LaunchRequest}
    (ceiling : parent.isCeiling = true)
    (done : prepareLaunch engine config (some parent) request = .ok child) :
    Attenuates engine config parent child := by
  have above : (some parent).filter (·.isCeiling) = some parent := by simp [Option.filter, ceiling]
  have marked : (some parent).any (·.isCeiling) = true := ceiling
  unfold prepareLaunch at done
  dsimp only at done
  rw [above, marked] at done
  simp only [bind_eq_ok] at done
  obtain ⟨required, -, requested, -, declared, -, -, -, ⟨⟩, authorized, budget, -, ⟨⟩, limited,
    policy, -, effects, -, parentDataFlow, normal, dataFlow, chosen, expiresAt, -, ⟨⟩, policies, ⟨⟩,
    within, -, -, done⟩ := done
  cases done
  change requirePoliciesWithinCeiling engine config parent effects policy = .ok () at policies
  simp only [requirePoliciesWithinCeiling, bind_eq_ok] at policies
  obtain ⟨⟨⟩, effectsWithin, ⟨⟩, requestable, -⟩ := policies
  change requireWithinParent engine config parent parentDataFlow dataFlow policy expiresAt =
    .ok () at within
  simp only [requireWithinParent, bind_eq_ok] at within
  obtain ⟨⟨⟩, semantic, ⟨⟩, identities, expiry⟩ := within
  simp only [requireDataFlowPolicyAttenuated, requireIdentitiesAttenuated, bind_eq_ok, ensure_ok,
    exists_const] at identities
  have same := @normalizeDataFlowPolicy_ok (some parent.dataFlowPolicy) parentDataFlow normal
  exact
    { ceiling := by
        have found := launchMetadata_ceiling request
        simp [TaskAuthorityManifest.isCeiling, Dict.has, Dict.get, found, Value.truthy]
      authorized := fun spec member => requireSpecCovered_ok (forM_eq_ok.mp authorized spec member)
      requestable := fun spec member =>
        requireRequestableCapabilitiesAttenuated_ok requestable member
      effects := fun effect permitted => requireEffectsAttenuated_ok effectsWithin permitted
      budget := fun field limit bounded => requireBudgetAttenuated_ok limited bounded
      tenants := fun value member => same.1.mp (identities.1 member)
      principals := fun value member => same.2.mp (identities.2 member)
      semantic := fun rule member => requireSemanticAutoApprovalAttenuated_ok semantic member
      expiry := fun limit bounded => requireExpiryAttenuated_ok expiry bounded }

end Launch
end AgentLibOS.Manifests
