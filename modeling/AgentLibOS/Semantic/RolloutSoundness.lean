import AgentLibOS.Semantic.Rollout

namespace AgentLibOS.Semantic
open Library.Run Processes

/-! ## What a rule selects -/

theorem separatedPrefixes_shorter {text start : List Char} (member : start ∈ separatedPrefixes text) :
    start <+: text := by
  obtain ⟨⟨character, index⟩, -, kept⟩ := List.mem_filterMap.mp member
  dsimp only at kept
  by_cases here : separator character = true
  · rw [if_pos here, Option.some.injEq] at kept
    rw [← kept]
    exact List.take_prefix _ _
  · rw [if_neg here] at kept
    cases kept

theorem prefixValues_shorter {resource text : String} (member : text ∈ prefixValues resource) :
    text.toList <+: resourceMatch resource := by
  obtain ⟨start, selected, rfl⟩ := List.mem_map.mp member
  rw [String.toList_ofList]
  split at selected
  · rcases List.mem_insert_iff.mp selected with rfl | separated
    · exact List.prefix_rfl
    · exact separatedPrefixes_shorter separated
  · exact separatedPrefixes_shorter selected

theorem ruleResourceMatches_star {ruleResource resource : String}
    (star : endsWithStar ruleResource = true) (concrete : '*' ∉ resource.toList) :
    ruleResourceMatches ruleResource resource = true ↔
      resourceMatch ruleResource <+: resource.toList := by
  simp [ruleResourceMatches, resourceMatch, star, concrete]

theorem ruleResourceMatches_exact {ruleResource resource : String}
    (plain : ¬ endsWithStar ruleResource = true) :
    ruleResourceMatches ruleResource resource = true ↔ ruleResource = resource := by
  simp [ruleResourceMatches, plain]

/-- The texts of a rule that its projection hashes. -/
def ruleTexts (rule : SemanticApprovalRule) : List String :=
  rule.ruleId :: String.ofList (resourceMatch rule.resource) :: prefixValues rule.resource

def rolloutTexts (epoch : SemanticPolicyEpoch) : List String :=
  (epoch.autoApprovalRules ++ epoch.hardDenyRules).flatMap ruleTexts

theorem ruleTexts_subset {epoch : SemanticPolicyEpoch} {rule : SemanticApprovalRule}
    (member : rule ∈ epoch.autoApprovalRules ++ epoch.hardDenyRules) :
    ruleTexts rule ⊆ rolloutTexts epoch :=
  fun _ text => List.mem_flatMap.mpr ⟨rule, member, text⟩

section Coverage
variable {sha256 : String → Digest} {texts : List String}

theorem matchSha256_eq (injective : Set.InjOn sha256 {text | text ∈ texts})
    {wide narrow : SemanticApprovalRule} (wideTexts : ruleTexts wide ⊆ texts)
    (narrowTexts : ruleTexts narrow ⊆ texts)
    (same : (policyRolloutRule sha256 wide).matchSha256 = (policyRolloutRule sha256 narrow).matchSha256) :
    resourceMatch wide.resource = resourceMatch narrow.resource := by
  have equal := injective (wideTexts (by simp [ruleTexts])) (narrowTexts (by simp [ruleTexts])) same
  exact String.ofList_injective equal

/-- A digest among the covering prefixes is the digest of a prefix of the other rule's text. -/
theorem covering_prefix (injective : Set.InjOn sha256 {text | text ∈ texts})
    {wide narrow : SemanticApprovalRule} (wideTexts : ruleTexts wide ⊆ texts)
    (narrowTexts : ruleTexts narrow ⊆ texts)
    (member : (policyRolloutRule sha256 wide).matchSha256 ∈
      (policyRolloutRule sha256 narrow).coveringPrefixSha256s) :
    resourceMatch wide.resource <+: resourceMatch narrow.resource := by
  obtain ⟨text, member, same⟩ :=
    List.mem_map.mp ((List.perm_insertionSort _ _).mem_iff.mp member)
  have equal := injective (narrowTexts (by simp [ruleTexts, member]))
    (wideTexts (by simp [ruleTexts])) same
  have shorter := prefixValues_shorter member
  rwa [equal, String.toList_ofList] at shorter

/-- Coverage of digests is containment of the resources that the rules select. -/
theorem resourceCovers_matches (injective : Set.InjOn sha256 {text | text ∈ texts})
    {wide narrow : SemanticApprovalRule} (wideTexts : ruleTexts wide ⊆ texts)
    (narrowTexts : ruleTexts narrow ⊆ texts)
    (covers : resourceCovers (policyRolloutRule sha256 wide) (policyRolloutRule sha256 narrow) = true)
    {resource : String} (concrete : '*' ∉ resource.toList)
    (selected : ruleResourceMatches narrow.resource resource = true) :
    ruleResourceMatches wide.resource resource = true := by
  by_cases wideStar : endsWithStar wide.resource = true
  · have member : (policyRolloutRule sha256 wide).matchSha256 ∈
        (policyRolloutRule sha256 narrow).coveringPrefixSha256s := by
      simpa [resourceCovers, policyRolloutRule, wideStar] using covers
    have shorter := covering_prefix injective wideTexts narrowTexts member
    rw [ruleResourceMatches_star wideStar concrete]
    by_cases narrowStar : endsWithStar narrow.resource = true
    · exact shorter.trans ((ruleResourceMatches_star narrowStar concrete).mp selected)
    · rw [resourceMatch.eq_1 narrow.resource, if_neg narrowStar] at shorter
      rwa [(ruleResourceMatches_exact narrowStar).mp selected] at shorter
  · have both : (policyRolloutRule sha256 narrow).resourceKind = .exactKind ∧
        (policyRolloutRule sha256 wide).matchSha256 = (policyRolloutRule sha256 narrow).matchSha256 := by
      simpa [resourceCovers, policyRolloutRule, wideStar] using covers
    have narrowPlain : ¬ endsWithStar narrow.resource = true := by
      intro star
      simp [policyRolloutRule, star] at both
    have equal := matchSha256_eq injective wideTexts narrowTexts both.2
    rw [resourceMatch, if_neg wideStar, resourceMatch, if_neg narrowPlain] at equal
    rw [ruleResourceMatches_exact wideStar, String.toList_injective equal]
    exact (ruleResourceMatches_exact narrowPlain).mp selected

end Coverage

/-! ## What an empty comparison says -/

theorem rolloutRule_ok {label : String} {ofCatalog : Bool} {rule result : RolloutRule}
    (done : rolloutRule label ofCatalog rule = .ok result) : result = rule := by
  unfold rolloutRule at done
  split at done
  · obtain ⟨prefixes, checked, done⟩ := bind_eq_ok.mp done
    unfold rolloutCoveringPrefixes at checked
    split_ifs at checked
    cases checked
    cases done
    rfl
  · cases done

theorem rolloutRules_ok {label : String} {ofCatalog : Bool} {rules results : List RolloutRule}
    (done : rules.mapM (rolloutRule label ofCatalog) = .ok results) : results = rules := by
  have each := mapM_eq_ok.mp done
  induction each with
  | nil => rfl
  | cons here _ ih => rw [rolloutRule_ok here, ih (mapM_eq_ok.mpr ‹_›)]

theorem rolloutAllowParameters_ok {value result : RolloutAllowParameters} {label : String}
    (done : rolloutAllowParameters value label = .ok result) : result = value := by
  unfold rolloutAllowParameters at done
  split_ifs at done
  split at done
  · cases done
  · cases done
    rfl

/-- Reading a scope checks it and leaves it as it is. -/
theorem rolloutScopeParts_ok {scope result : RolloutScope} {label : String}
    (done : rolloutScopeParts (.current scope) label = .ok result) : result = scope := by
  simp only [rolloutScopeParts] at done
  split at done
  · cases done
  · obtain ⟨rules, readRules, done⟩ := bind_eq_ok.mp done
    obtain ⟨denies, readDenies, done⟩ := bind_eq_ok.mp done
    split at done
    · cases done
    · obtain ⟨parameters, readParameters, done⟩ := bind_eq_ok.mp done
      cases done
      rw [rolloutRules_ok readRules, rolloutRules_ok readDenies,
        rolloutAllowParameters_ok readParameters]

theorem sortedSet_eq_nil {texts : List String} (empty : sortedSet texts = []) : texts = [] := by
  have dedup : texts.dedup = [] := by
    have := List.perm_insertionSort (· ≤ ·) texts.dedup
    rw [sortedSet] at empty
    rw [empty] at this
    exact this.nil_eq.symm
  exact List.dedup_eq_nil texts |>.mp dedup

theorem expandedRolloutActions_nil {previous candidate : RolloutScope}
    (narrow : expandedRolloutActions (.current previous) (.current candidate) = .ok []) :
    affectedActions previous candidate = [] := by
  unfold expandedRolloutActions at narrow
  obtain ⟨_, readPrevious, narrow⟩ := bind_eq_ok.mp narrow
  obtain ⟨_, readCandidate, narrow⟩ := bind_eq_ok.mp narrow
  rw [rolloutScopeParts_ok readPrevious, rolloutScopeParts_ok readCandidate] at narrow
  dsimp only at narrow
  split at narrow
  · cases narrow
  · exact sortedSet_eq_nil (Except.ok.inj narrow)

/-- The scopes between which no action is widened. -/
structure Narrows (previous candidate : RolloutScope) : Prop where
  tenants : candidate.tenantBucketSha256s ⊆ previous.tenantBucketSha256s
  parameters : allowParametersExpand previous.allowParameters candidate.allowParameters = false
  covered : ∀ rule ∈ candidate.autoApprovalRules, ∃ wide ∈ previous.autoApprovalRules,
    ruleCovers wide rule = true
  denied : ∀ deny ∈ previous.hardDenyRules, deny.actionId ∈ actions candidate.autoApprovalRules →
    denyUnionCovers deny candidate.hardDenyRules = true

theorem narrows_of_affected {previous candidate : RolloutScope}
    (none : affectedActions previous candidate = [])
    (some : candidate.autoApprovalRules ≠ []) : Narrows previous candidate := by
  have nonempty : actions candidate.autoApprovalRules ≠ [] := by simpa [actions] using some
  simp only [affectedActions, List.append_eq_nil_iff] at none
  obtain ⟨⟨⟨tenants, parameters⟩, rules⟩, denies⟩ := none
  constructor
  · by_contra wider
    rw [if_neg wider] at tenants
    exact nonempty tenants
  · by_contra wider
    rw [if_pos (by simpa using wider)] at parameters
    exact nonempty parameters
  · intro rule member
    have kept := List.filter_eq_nil_iff.mp (List.map_eq_nil_iff.mp rules) rule member
    simpa using kept
  · intro deny member active
    have kept := List.filter_eq_nil_iff.mp (List.map_eq_nil_iff.mp denies) deny member
    simpa [active] using kept

/-! ## A projected scope is well formed -/

theorem separatedPrefixes_nodup (text : List Char) : (separatedPrefixes text).Nodup := by
  have increasing : text.zipIdx.Pairwise (·.2 < ·.2) := by
    rw [← List.pairwise_map, List.zipIdx_map_snd]
    exact List.pairwise_lt_range'
  apply List.pairwise_filterMap.mpr
  apply increasing.imp_of_mem
  rintro ⟨first, i⟩ ⟨second, j⟩ - member before start here start' there same
  have bound : j < text.length := (List.mem_zipIdx' member).1
  dsimp only at here there before
  split at here
  · split at there
    · have lengths : (text.take (i + 1)).length = (text.take (j + 1)).length := by
        rw [Option.some.inj here, Option.some.inj there, same]
      rw [List.length_take, List.length_take] at lengths
      omega
    · cases there
  · cases here

theorem prefixValues_nodup (resource : String) : (prefixValues resource).Nodup := by
  apply List.Nodup.map (fun _ _ => String.ofList_injective)
  split
  · exact (separatedPrefixes_nodup _).insert
  · exact separatedPrefixes_nodup _

theorem mem_sortRules (sha256 : String → Digest) {rules : List SemanticApprovalRule}
    {rule : RolloutRule} : rule ∈ sortRules (rules.map (policyRolloutRule sha256)) ↔
      ∃ source ∈ rules, policyRolloutRule sha256 source = rule := by
  rw [sortRules, (List.perm_insertionSort _ _).mem_iff, List.mem_map]

section Accepted
variable {sha256 : String → Digest}

theorem semanticActionCatalog_single {operation : String} {allowed : List String}
    (listed : semanticActionCatalog operation = some allowed) : ∃ right, allowed = [right] := by
  unfold semanticActionCatalog at listed
  split_ifs at listed
  all_goals exact ⟨_, (Option.some.inj listed).symm⟩

theorem policyRolloutRule_catalog {rule : SemanticApprovalRule} (catalog : catalogRule rule) :
    catalogRights (policyRolloutRule sha256 rule) = true := by
  obtain ⟨allowed, listed, single, subset⟩ := catalog
  obtain ⟨right, rfl⟩ := semanticActionCatalog_single listed
  obtain ⟨only, rights⟩ := List.length_eq_one_iff.mp single
  have equal : only = right := List.mem_singleton.mp (subset (by simp [rights]))
  simp [catalogRights, policyRolloutRule, listed, rights, equal]

theorem policyRolloutRule_metadata {rule : SemanticApprovalRule} {ofCatalog : Bool}
    (catalog : ofCatalog = true → catalogRule rule) :
    ruleMetadata (policyRolloutRule sha256 rule) ofCatalog = true := by
  have same : (policyRolloutRule sha256 rule).rights.Perm rule.rights := List.perm_insertionSort _ _
  have sorted : (policyRolloutRule sha256 rule).rights.insertionSort (· ≤ ·) =
      (policyRolloutRule sha256 rule).rights :=
    List.Pairwise.insertionSort_eq (List.pairwise_insertionSort _ _)
  have known : ∀ right ∈ (policyRolloutRule sha256 rule).rights, right ∈ capabilityRights :=
    fun right member => rule.rights_known right (same.mem_iff.mp member)
  simp only [ruleMetadata, Bool.and_eq_true, bne_iff_ne, ne_eq, decide_eq_true_eq, beq_iff_eq,
    List.all_eq_true]
  refine ⟨⟨⟨⟨⟨rule.operation_exact, ?_⟩, ?_⟩, same.nodup_iff.mpr rule.rights_nodup⟩, sorted⟩, ?_⟩
  · intro none
    rw [none] at same
    exact rule.rights_nonempty same.nil_eq.symm
  · intro right member blank
    have := known right member
    rw [blank] at this
    revert this
    decide
  · cases ofCatalog with
    | false => simpa [List.all_eq_true] using known
    | true =>
        rw [if_pos rfl]
        exact policyRolloutRule_catalog (catalog rfl)

theorem policyRolloutRule_prefixes {rule : SemanticApprovalRule} {label : String}
    (injective : Set.InjOn sha256 {text | text ∈ ruleTexts rule}) :
    rolloutCoveringPrefixes (policyRolloutRule sha256 rule) label =
      .ok (policyRolloutRule sha256 rule).coveringPrefixSha256s := by
  have distinct : (policyRolloutRule sha256 rule).coveringPrefixSha256s.Nodup := by
    apply (List.perm_insertionSort _ _).nodup_iff.mpr
    apply (prefixValues_nodup rule.resource).map_on
    intro first firstMember second secondMember same
    exact injective (by simp [ruleTexts, firstMember]) (by simp [ruleTexts, secondMember]) same
  have own : (policyRolloutRule sha256 rule).resourceKind = .prefixKind →
      (policyRolloutRule sha256 rule).matchSha256 ∈
        (policyRolloutRule sha256 rule).coveringPrefixSha256s := by
    intro kind
    have star : endsWithStar rule.resource = true := by
      by_contra plain
      simp [policyRolloutRule, plain] at kind
    apply (List.perm_insertionSort _ _).mem_iff.mpr
    apply List.mem_map_of_mem
    simp [prefixValues, star]
  rw [rolloutCoveringPrefixes, if_neg (not_not.mpr distinct), if_neg]
  rintro ⟨kind, missing⟩
  exact missing (own kind)

theorem policyRolloutRule_accepted {rule : SemanticApprovalRule} {label : String} {ofCatalog : Bool}
    (injective : Set.InjOn sha256 {text | text ∈ ruleTexts rule})
    (catalog : ofCatalog = true → catalogRule rule) :
    rolloutRule label ofCatalog (policyRolloutRule sha256 rule) =
      .ok (policyRolloutRule sha256 rule) := by
  rw [rolloutRule, if_pos (policyRolloutRule_metadata catalog), policyRolloutRule_prefixes injective]
  rfl

theorem rolloutRules_accepted {rules : List SemanticApprovalRule} {label : String} {ofCatalog : Bool}
    (injective : ∀ rule ∈ rules, Set.InjOn sha256 {text | text ∈ ruleTexts rule})
    (catalog : ∀ rule ∈ rules, ofCatalog = true → catalogRule rule) :
    (sortRules (rules.map (policyRolloutRule sha256))).mapM (rolloutRule label ofCatalog) =
      .ok (sortRules (rules.map (policyRolloutRule sha256))) := by
  apply mapM_eq_ok.mpr
  apply List.forall₂_same.mpr
  intro rule member
  obtain ⟨source, known, rfl⟩ := (mem_sortRules sha256).mp member
  exact policyRolloutRule_accepted (injective source known) (catalog source known)

variable {epoch : SemanticPolicyEpoch}

theorem ruleIds_nodup (injective : Set.InjOn sha256 {text | text ∈ rolloutTexts epoch}) :
    ((policyRolloutScope sha256 epoch).autoApprovalRules.map (·.ruleIdSha256) ++
      (policyRolloutScope sha256 epoch).hardDenyRules.map (·.ruleIdSha256)).Nodup := by
  have ids (rules : List SemanticApprovalRule) :
      ((sortRules (rules.map (policyRolloutRule sha256))).map (·.ruleIdSha256)).Perm
        ((rules.map (·.ruleId)).map sha256) := by
    apply ((List.perm_insertionSort _ _).map _).trans
    rw [List.map_map, List.map_map]
    rfl
  apply ((ids epoch.autoApprovalRules).append (ids epoch.hardDenyRules)).nodup_iff.mpr
  rw [← List.map_append, ← List.map_append]
  apply List.Nodup.map_on
  · intro first firstMember second secondMember same
    have text {id : String} (member : id ∈ (epoch.autoApprovalRules ++ epoch.hardDenyRules).map (·.ruleId)) :
        id ∈ rolloutTexts epoch := by
      obtain ⟨rule, known, rfl⟩ := List.mem_map.mp member
      exact ruleTexts_subset known List.mem_cons_self
    exact injective (text firstMember) (text secondMember) same
  · rw [List.map_append, List.nodup_append']
    refine ⟨?_, ?_, ?_⟩
    · exact (List.pairwise_map.mpr epoch.auto_sorted).imp ne_of_lt
    · exact (List.pairwise_map.mpr epoch.deny_sorted).imp ne_of_lt
    · intro id ofRule ofDeny
      obtain ⟨rule, member, rfl⟩ := List.mem_map.mp ofRule
      obtain ⟨deny, denyMember, same⟩ := List.mem_map.mp ofDeny
      exact epoch.ruleIds_apart rule member deny denyMember same.symm

theorem allowParameters_accepted {label : String} :
    rolloutAllowParameters (policyRolloutScope sha256 epoch).allowParameters label =
      .ok (policyRolloutScope sha256 epoch).allowParameters := by
  obtain ⟨profile, model⟩ := epoch.classifier_complete
  simp [rolloutAllowParameters, classifierComplete, unboundedParameter, policyRolloutScope,
    epoch.catalogVersion_supported, ← profile, ← model, epoch.calibration_required,
    epoch.confidence_bounded, epoch.ttl_bounded, epoch.minute_bounded, epoch.day_bounded,
    epoch.inflight_bounded]

/-- A comparison never rejects the projection of an epoch: every check holds of it. -/
theorem policyRolloutScope_accepted {label : String}
    (injective : Set.InjOn sha256 {text | text ∈ rolloutTexts epoch}) :
    rolloutScopeParts (.current (policyRolloutScope sha256 epoch)) label =
      .ok (policyRolloutScope sha256 epoch) := by
  have tenants : (policyRolloutScope sha256 epoch).tenantBucketSha256s.Nodup := by
    apply (List.perm_insertionSort _ _).nodup_iff.mpr
    apply epoch.tenants_sorted.imp
    rintro tenant _ before rfl
    exact lt_irrefl _ before
  have each {rule : SemanticApprovalRule}
      (member : rule ∈ epoch.autoApprovalRules ++ epoch.hardDenyRules) :
      Set.InjOn sha256 {text | text ∈ ruleTexts rule} :=
    injective.mono fun text here => ruleTexts_subset member here
  have rules : (policyRolloutScope sha256 epoch).autoApprovalRules.mapM (rolloutRule label true) =
      .ok (policyRolloutScope sha256 epoch).autoApprovalRules :=
    rolloutRules_accepted (fun rule member => each (List.mem_append_left _ member))
      (fun rule member _ => epoch.auto_catalog rule member)
  have denies : (policyRolloutScope sha256 epoch).hardDenyRules.mapM (rolloutRule label false) =
      .ok (policyRolloutScope sha256 epoch).hardDenyRules :=
    rolloutRules_accepted (fun rule member => each (List.mem_append_right _ member))
      (fun _ _ impossible => by cases impossible)
  simp only [rolloutScopeParts]
  rw [if_neg (not_not.mpr tenants)]
  apply bind_eq_ok.mpr ⟨_, rules, _⟩
  apply bind_eq_ok.mpr ⟨_, denies, _⟩
  rw [if_neg (not_not.mpr (ruleIds_nodup injective))]
  exact bind_eq_ok.mpr ⟨_, allowParameters_accepted, rfl⟩

end Accepted
/-! ## Soundness of the comparison -/

section Soundness
variable {sha256 : String → Digest}

theorem mem_actions_projection (sha256 : String → Digest) {rules : List SemanticApprovalRule} {rule : SemanticApprovalRule}
    (member : rule ∈ rules) :
    rule.authorityOperation ∈ actions (sortRules (rules.map (policyRolloutRule sha256))) :=
  List.mem_map.mpr ⟨policyRolloutRule sha256 rule, (mem_sortRules sha256).mpr ⟨rule, member, rfl⟩, rfl⟩

theorem mem_policyRolloutRule_rights (sha256 : String → Digest) {rule : SemanticApprovalRule}
    {right : String} :
    right ∈ (policyRolloutRule sha256 rule).rights ↔ right ∈ rule.rights :=
  (List.perm_insertionSort _ _).mem_iff

theorem ruleCovers_parts {previous candidate : RolloutRule}
    (covers : ruleCovers previous candidate = true) :
    previous.actionId = candidate.actionId ∧ previous.ruleIdSha256 = candidate.ruleIdSha256 ∧
      candidate.rights ⊆ previous.rights ∧ resourceCovers previous candidate = true := by
  unfold ruleCovers at covers
  split at covers
  · cases covers
  · rename_i same
    push Not at same
    exact ⟨same.1, same.2.1, same.2.2, covers⟩

variable {previous candidate : SemanticPolicyEpoch}

variable (candidate) in
theorem previous_texts {rule : SemanticApprovalRule}
    (member : rule ∈ previous.autoApprovalRules ++ previous.hardDenyRules) :
    ruleTexts rule ⊆ rolloutTexts previous ++ rolloutTexts candidate :=
  List.Subset.trans (ruleTexts_subset member) (List.subset_append_left _ _)

variable (previous) in
theorem candidate_texts {rule : SemanticApprovalRule}
    (member : rule ∈ candidate.autoApprovalRules ++ candidate.hardDenyRules) :
    ruleTexts rule ⊆ rolloutTexts previous ++ rolloutTexts candidate :=
  List.Subset.trans (ruleTexts_subset member) (List.subset_append_right _ _)

theorem tenants_previous
    (narrows : Narrows (policyRolloutScope sha256 previous) (policyRolloutScope sha256 candidate))
    {tenant : Digest} (member : tenant ∈ candidate.tenantBucketSha256s) :
    tenant ∈ previous.tenantBucketSha256s := by
  have sorted : tenant ∈ sortDigests candidate.tenantBucketSha256s :=
    (List.perm_insertionSort _ _).mem_iff.mpr member
  exact (List.perm_insertionSort _ _).mem_iff.mp (narrows.tenants sorted)

variable (injective : Set.InjOn sha256 {text | text ∈ rolloutTexts previous ++ rolloutTexts candidate})
  (narrows : Narrows (policyRolloutScope sha256 previous) (policyRolloutScope sha256 candidate))
  {binding : SemanticApprovalBinding} (concrete : '*' ∉ binding.resource.toList)
include injective narrows concrete

/-- Every grant of the candidate is a grant of the preceding epoch, through the rule of the same id. -/
theorem epochRuleMatches_previous {ruleId : String}
    (matched : epochRuleMatches candidate binding ruleId = true) :
    epochRuleMatches previous binding ruleId = true := by
  obtain ⟨rule, member, matched⟩ := List.any_eq_true.mp matched
  simp only [approvalRuleMatches, Bool.and_eq_true, beq_iff_eq] at matched
  obtain ⟨⟨⟨named, operation⟩, rights⟩, selected⟩ := matched
  obtain ⟨wideScope, projected, covers⟩ :=
    narrows.covered _ ((mem_sortRules sha256).mpr ⟨rule, member, rfl⟩)
  obtain ⟨wide, wideMember, rfl⟩ := (mem_sortRules sha256).mp projected
  obtain ⟨sameAction, sameId, subset, resources⟩ := ruleCovers_parts covers
  have wideTexts := previous_texts candidate
    (List.mem_append_left previous.hardDenyRules wideMember)
  have narrowTexts := candidate_texts previous
    (List.mem_append_left candidate.hardDenyRules member)
  have sameRule : wide.ruleId = rule.ruleId :=
    injective (wideTexts List.mem_cons_self) (narrowTexts List.mem_cons_self) sameId
  have right : binding.right ∈ wide.rights := by
    rw [← mem_policyRolloutRule_rights sha256]
    apply subset
    rw [mem_policyRolloutRule_rights, rights]
    exact List.mem_singleton_self _
  -- A rule of the catalog carries exactly one right.
  obtain ⟨-, -, single, -⟩ := previous.auto_catalog wide wideMember
  obtain ⟨only, onlyRight⟩ := List.length_eq_one_iff.mp single
  rw [onlyRight, List.mem_singleton] at right
  apply List.any_eq_true.mpr
  refine ⟨wide, wideMember, ?_⟩
  simp only [approvalRuleMatches, Bool.and_eq_true, beq_iff_eq]
  exact ⟨⟨⟨sameRule.trans named, Eq.trans sameAction operation⟩, by rw [onlyRight, right]⟩,
    resourceCovers_matches injective wideTexts narrowTexts resources concrete selected⟩

/-- What the preceding epoch denies, of an action that the candidate approves, it denies too. -/
theorem hardDenied_candidate (active : ∃ rule ∈ candidate.autoApprovalRules,
    rule.authorityOperation = binding.authorityOperation)
    (denied : hardDenied previous binding = true) : hardDenied candidate binding = true := by
  obtain ⟨deny, member, matched⟩ := List.any_eq_true.mp denied
  simp only [hardDenyRuleMatches, Bool.and_eq_true, beq_iff_eq, List.any_cons, List.any_nil,
    Bool.or_false, List.contains_iff_mem] at matched
  obtain ⟨⟨operation, right⟩, selected⟩ := matched
  obtain ⟨rule, ruleMember, ruleOperation⟩ := active
  have action : (policyRolloutRule sha256 deny).actionId ∈
      actions (policyRolloutScope sha256 candidate).autoApprovalRules := by
    have here := mem_actions_projection sha256 ruleMember
    rwa [ruleOperation, ← operation] at here
  have union := narrows.denied _ ((mem_sortRules sha256).mpr ⟨deny, member, rfl⟩) action
  have each := List.all_eq_true.mp union binding.right ((mem_policyRolloutRule_rights sha256).mpr right)
  obtain ⟨cover, coverMember, covers⟩ := List.any_eq_true.mp each
  obtain ⟨source, sourceMember, rfl⟩ := (mem_sortRules sha256).mp coverMember
  simp only [Bool.and_eq_true, beq_iff_eq, List.contains_iff_mem] at covers
  obtain ⟨⟨sameAction, covered⟩, resources⟩ := covers
  have narrowTexts := previous_texts candidate
    (List.mem_append_right previous.autoApprovalRules member)
  have wideTexts := candidate_texts previous
    (List.mem_append_right candidate.autoApprovalRules sourceMember)
  apply List.any_eq_true.mpr
  refine ⟨source, sourceMember, ?_⟩
  simp only [hardDenyRuleMatches, Bool.and_eq_true, beq_iff_eq, List.any_cons, List.any_nil,
    Bool.or_false, List.contains_iff_mem]
  exact ⟨⟨Eq.trans sameAction operation, (mem_policyRolloutRule_rights sha256).mp covered⟩,
    resourceCovers_matches injective wideTexts narrowTexts resources concrete selected⟩

end Soundness

theorem allowParametersExpand_false {previous candidate : RolloutAllowParameters}
    (same : allowParametersExpand previous candidate = false) :
    previous.minimumConfidenceBps ≤ candidate.minimumConfidenceBps ∧
      candidate.capabilityTtlS ≤ previous.capabilityTtlS ∧
      candidate.perRulePerMinuteLimit ≤ previous.perRulePerMinuteLimit ∧
      candidate.perRulePerDayLimit ≤ previous.perRulePerDayLimit ∧
      candidate.maxInflight ≤ previous.maxInflight := by
  simp only [allowParametersExpand, Bool.or_eq_false_iff, decide_eq_false_iff_not, not_lt] at same
  obtain ⟨⟨⟨⟨⟨-, confidence⟩, ttl⟩, minute⟩, day⟩, inflight⟩ := same
  exact ⟨confidence, ttl, minute, day, inflight⟩

/-- An empty comparison of the scopes of two epochs leaves the candidate with no request that the
preceding epoch would not approve, and with no looser threshold. -/
theorem rollout_comparison_sound {sha256 : String → Digest} {previous candidate : SemanticPolicyEpoch}
    (injective : Set.InjOn sha256 {text | text ∈ rolloutTexts previous ++ rolloutTexts candidate})
    (empty : expandedRolloutActions (.current (policyRolloutScope sha256 previous))
      (.current (policyRolloutScope sha256 candidate)) = .ok []) :
    (∀ (binding : SemanticApprovalBinding) (ruleId : String), '*' ∉ binding.resource.toList →
      autoApproves candidate binding ruleId = true → autoApproves previous binding ruleId = true) ∧
    (candidate.autoApprovalRules ≠ [] →
      previous.minimumConfidenceBps ≤ candidate.minimumConfidenceBps ∧
      candidate.capabilityTtlS ≤ previous.capabilityTtlS ∧
      candidate.perRulePerMinuteLimit ≤ previous.perRulePerMinuteLimit ∧
      candidate.perRulePerDayLimit ≤ previous.perRulePerDayLimit ∧
      candidate.maxInflight ≤ previous.maxInflight) := by
  have narrows (some : candidate.autoApprovalRules ≠ []) :
      Narrows (policyRolloutScope sha256 previous) (policyRolloutScope sha256 candidate) := by
    apply narrows_of_affected (expandedRolloutActions_nil empty)
    intro none
    obtain ⟨rule, member⟩ := List.exists_mem_of_ne_nil _ some
    have projected := (mem_sortRules sha256).mpr ⟨rule, member, rfl⟩
    rw [show sortRules (candidate.autoApprovalRules.map (policyRolloutRule sha256)) = [] from none]
      at projected
    cases projected
  constructor
  · intro binding ruleId concrete approved
    simp only [autoApproves, Bool.and_eq_true, List.contains_iff_mem, Bool.not_eq_true'] at approved ⊢
    obtain ⟨⟨tenant, matched⟩, allowed⟩ := approved
    obtain ⟨rule, member, here⟩ := List.any_eq_true.mp matched
    simp only [approvalRuleMatches, Bool.and_eq_true, beq_iff_eq] at here
    have narrows := narrows (List.ne_nil_of_mem member)
    refine ⟨⟨tenants_previous narrows tenant,
      epochRuleMatches_previous injective narrows concrete matched⟩, ?_⟩
    apply Bool.eq_false_iff.mpr
    intro denied
    rw [hardDenied_candidate injective narrows concrete ⟨rule, member, here.1.1.2⟩ denied] at allowed
    cases allowed
  · intro some
    exact allowParametersExpand_false (narrows some).parameters

section Example

def recordedDigests : List (String × Digest) :=
  [("read-docs", ⟨"c3961ecfb342f5d3e9d43ae11d1de5a148cdfa454181841151c28f74fd4196ee", by decide⟩),
    ("no-keys", ⟨"d9929fa0ee651b8b977786b0b775b8140d09c22494fbf233ce403eec932fba20", by decide⟩),
    ("filesystem:", ⟨"48838c7b620b816e975923eb9aeab4d28ae33da92ef7668e26b6697c85fc5c9c", by decide⟩),
    ("filesystem:/", ⟨"701924be4d4b6bc9cdadccc041486bc9400a14d84335f2a49e08b1eb1577008e", by decide⟩),
    ("filesystem:/docs/",
      ⟨"033c3b0c3692ee2518709d030f05856a863b7cd2022c97afd3bbae152d7fb937", by decide⟩),
    ("filesystem:/docs/guide.md",
      ⟨"88562f7886c1d3861ab29ac3faabec1698cf47fcf5aa98614c8385b26112c282", by decide⟩),
    ("filesystem:/docs/keys/",
      ⟨"c5485d6e0eeeee5facbbd19ef85ff6caccea78a15636cf192c4eacdf679b037d", by decide⟩)]

def tenantDigest : Digest :=
  ⟨"80a707af7dc77ee1228f9127180f3964835e5beb4c4ab0d812f0fe7593579b3a", by decide⟩

/-- The SHA-256 of the texts that the two example epochs hash. -/
def recordedSha256 (text : String) : Digest := (recordedDigests.lookup text).getD tenantDigest

def exampleRule (ruleId resource : String) (h : (boundedText ruleId 128 && boundedText resource 2048 &&
    kindMatches resource "filesystem.read" && terminalWildcard resource) = true) :
    SemanticApprovalRule where
  ruleId := ruleId
  authorityOperation := "filesystem.read"
  resource := resource
  rights := ["read"]
  ruleId_bounded := by grind
  operation_exact := by decide
  resource_bounded := by grind
  resource_kind := by grind
  resource_wildcard := by grind
  rights_nonempty := by decide
  rights_nodup := by decide
  rights_known := by decide

def docsEpoch : SemanticPolicyEpoch where
  epochId := "epoch-1"
  generation := 1
  expectedPreviousSha256 := none
  tenantBucketSha256s := [tenantDigest]
  autoApprovalRules := [exampleRule "read-docs" "filesystem:/docs/*" (by decide)]
  hardDenyRules := [exampleRule "no-keys" "filesystem:/docs/keys/*" (by decide)]
  createdAt := "2025-01-01T00:00:00+00:00"
  classifierProfileId := none
  classifierProfileSha256 := none
  classifierModelSha256 := none
  minimumConfidenceBps := 9900
  requiredCalibrationBucket := .veryHigh
  capabilityTtlS := 60
  perRulePerMinuteLimit := 10
  perRulePerDayLimit := 100
  maxInflight := 2
  catalogVersion := 1
  catalogVersion_supported := by decide
  epochId_bounded := by decide
  generation_positive := by decide
  tenants_sorted := List.pairwise_singleton _ _
  rules_nonempty := by simp
  auto_tenants := by simp
  first_tenant := by simp
  auto_sorted := List.pairwise_singleton _ _
  deny_sorted := List.pairwise_singleton _ _
  ruleIds_apart := by simp [exampleRule]
  auto_catalog := by simp [exampleRule, catalogRule, semanticActionCatalog]
  profileId_bounded := by simp
  classifier_complete := by simp
  confidence_bounded := by decide
  calibration_required := rfl
  ttl_bounded := by decide
  minute_bounded := by decide
  day_bounded := by decide
  inflight_bounded := by decide

theorem exampleRule_catalog (ruleId resource : String)
    (h : (boundedText ruleId 128 && boundedText resource 2048 &&
      kindMatches resource "filesystem.read" && terminalWildcard resource) = true) :
    catalogRule (exampleRule ruleId resource h) := by
  simp [exampleRule, catalogRule, semanticActionCatalog]

def guideRule : SemanticApprovalRule :=
  exampleRule "read-docs" "filesystem:/docs/guide.md" (by decide)

theorem guideRule_apart : ∀ rule ∈ [guideRule], ∀ deny ∈ docsEpoch.hardDenyRules,
    rule.ruleId ≠ deny.ruleId := by
  simp [guideRule, exampleRule, docsEpoch]

theorem guideRule_catalog : ∀ rule ∈ [guideRule], catalogRule rule := by
  intro rule member
  rw [List.mem_singleton.mp member]
  exact exampleRule_catalog ..

/-- The next epoch keeps one file of the rule and halves the lifetime. -/
def guideEpoch : SemanticPolicyEpoch :=
  { docsEpoch with
    epochId := "epoch-2"
    generation := 2
    autoApprovalRules := [guideRule]
    capabilityTtlS := 30
    epochId_bounded := by decide
    generation_positive := by decide
    rules_nonempty := Or.inl (List.cons_ne_nil _ _)
    auto_tenants := fun _ => List.cons_ne_nil _ _
    first_tenant := fun first => absurd first (by decide)
    auto_sorted := List.pairwise_singleton _ _
    ruleIds_apart := guideRule_apart
    auto_catalog := guideRule_catalog
    ttl_bounded := by decide }

def guideRead : SemanticApprovalBinding :=
  ⟨tenantDigest, "filesystem.read", "read", "filesystem:/docs/guide.md"⟩

theorem rollout_comparison_sound_guide :
    autoApproves docsEpoch guideRead "read-docs" = true ∧
      guideEpoch.capabilityTtlS ≤ docsEpoch.capabilityTtlS := by
  have injective : Set.InjOn recordedSha256
      {text | text ∈ rolloutTexts docsEpoch ++ rolloutTexts guideEpoch} := by
    have pairs : ∀ first ∈ rolloutTexts docsEpoch ++ rolloutTexts guideEpoch,
        ∀ second ∈ rolloutTexts docsEpoch ++ rolloutTexts guideEpoch,
          recordedSha256 first = recordedSha256 second → first = second := by decide
    exact fun first here second there => pairs first here second there
  have empty : expandedRolloutActions (.current (policyRolloutScope recordedSha256 docsEpoch))
      (.current (policyRolloutScope recordedSha256 guideEpoch)) = .ok [] := by decide
  have sound := rollout_comparison_sound injective empty
  exact ⟨sound.1 guideRead "read-docs" (by decide) (by decide), (sound.2 (by decide)).2.1⟩

end Example

end AgentLibOS.Semantic
