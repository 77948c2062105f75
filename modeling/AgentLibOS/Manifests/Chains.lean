import AgentLibOS.Manifests.Attenuation

namespace AgentLibOS.Manifests
open Capability CapabilityManager Library.Run

/-! ## Launches that keep what they are given -/

/-- The limit that an entry sets on the delegation depth of what it covers. -/
def CapabilityEntry.depthLimit (config : CapabilityConfig) (entry : CapabilityEntry) : Option Int :=
  entry.maxDelegationDepth.or
    (if entry.delegable.getD false = true then some config.defaultDelegationDepth else none)

/-- The pattern of `selected` selects nothing beyond the one of `parent`, and a depth limit of
`parent` comes back as one of `selected`. -/
structure Narrows (config : CapabilityConfig) (parent selected : CapabilityEntry) : Prop where
  resource : ¬ ResourceAuthority.CoverageDefect parent.resource selected.resource
  depth : ∀ limit, parent.depthLimit config = some limit →
    ∃ own, selected.depthLimit config = some own ∧ own ≤ limit

/-- Whatever `below` declares is narrower than what lets it through. -/
structure NarrowLaunch (engine : Engine) (config : CapabilityConfig)
    (above below : TaskAuthorityManifest) : Prop where
  authorized : ∀ spec ∈ below.authorizedCapabilities, ∃ parent ∈ above.authorizedCapabilities,
    specCovers engine config parent spec = .ok true ∧ Narrows config parent spec
  requestable : ∀ spec ∈ below.requestable,
    ∃ parent ∈ above.authorizedCapabilities ++ above.requestable,
      specCovers engine config parent spec = .ok true ∧ Narrows config parent spec
  semantic : ∀ rule ∈ below.semanticRules, ∀ parent ∈ above.semanticRules,
    parent.ruleId = rule.ruleId →
      ¬ ResourceAuthority.CoverageDefect parent.resource rule.resource

def Launches (engine : Engine) (config : CapabilityConfig)
    (parent child : TaskAuthorityManifest) : Prop :=
  ∃ request, prepareLaunch engine config (some parent) request = .ok child

section Chains
variable {engine : Engine} {config : CapabilityConfig}

theorem coerceSpec_ok {entry : CapabilityEntry} {spec : CapabilitySpec}
    (done : coerceSpec engine config entry = .ok spec) : spec.resource = entry.resource ∧
      initialMaxDelegationDepth config spec = (entry.depthLimit config).map Int.toNat ∧
        ∀ depth, entry.depthLimit config = some depth → 0 ≤ depth := by
  simp only [coerceSpec, bind_eq_ok, ensure_ok, exists_const] at done
  obtain ⟨-, uses, -, bound, -, effect, -, -, depth, limited, error, -, done⟩ := done
  cases error with
  | some error => cases done
  | none =>
      obtain ⟨rights, -, done⟩ := bind_eq_ok.mp done
      cases done
      unfold CapabilityEntry.depthLimit initialMaxDelegationDepth
      cases given : entry.maxDelegationDepth with
      | none =>
          rw [given] at limited
          cases limited
          cases entry.delegable.getD false <;> simp
      | some limit =>
          rw [given] at limited
          obtain ⟨checked, here, rfl⟩ := map_eq_ok.mp limited
          unfold maxDelegationDepthOf at here
          split_ifs at here with negative
          · cases here
          · cases here
            simp
            omega

theorem Narrows.keepsDepth {parent selected : CapabilityEntry} (narrows : Narrows config parent selected)
    {parentSpec spec : CapabilitySpec} (coerced : coerceSpec engine config parent = .ok parentSpec)
    (coerced' : coerceSpec engine config selected = .ok spec) :
    KeepsDepth config parentSpec spec := by
  intro limit bounded
  obtain ⟨-, depth, -⟩ := coerceSpec_ok coerced
  obtain ⟨-, depth', -⟩ := coerceSpec_ok coerced'
  rw [depth] at bounded
  obtain ⟨limit', given, rfl⟩ := Option.map_eq_some_iff.mp bounded
  obtain ⟨own, given', within⟩ := narrows.depth limit' given
  exact ⟨own.toNat, by rw [depth', given']; rfl, Int.toNat_le_toNat within⟩

/-- Coverage composes over an entry that narrows what covers it. -/
theorem Narrows.covers {a b c : CapabilityEntry} (narrows : Narrows config a b)
    (first : specCovers engine config a b = .ok true)
    (second : specCovers engine config b c = .ok true) :
    specCovers engine config a c = .ok true := by
  obtain ⟨specA, specB, coercedA, coercedB, covered⟩ := specCovers_iff.mp first
  obtain ⟨specB', specC, coercedB', coercedC, covered'⟩ := specCovers_iff.mp second
  obtain rfl : specB = specB' := Except.ok.inj (coercedB.symm.trans coercedB')
  have fine : ¬ ResourceAuthority.CoverageDefect specA.resource specB.resource := by
    rw [(coerceSpec_ok coercedA).1, (coerceSpec_ok coercedB).1]
    exact narrows.resource
  exact specCovers_iff.mpr ⟨specA, specC, coercedA, coercedC,
    covered.trans fine (narrows.keepsDepth coercedA coercedB) covered'⟩

/-- A rule sets no depth limit. -/
theorem rule_narrows {parent rule : SemanticAutoApprovalRule}
    (fine : ¬ ResourceAuthority.CoverageDefect parent.resource rule.resource) :
    Narrows config parent.spec rule.spec :=
  ⟨fine, fun limit bounded => by cases bounded⟩

/-- A narrow launch passes on the attenuation of what its child launches. -/
theorem Attenuates.trans {a b c : TaskAuthorityManifest} (first : Attenuates engine config a b)
    (narrow : NarrowLaunch engine config a b) (second : Attenuates engine config b c) :
    Attenuates engine config a c where
  ceiling := second.ceiling
  authorized := by
    intro spec member
    obtain ⟨middle, held, covered⟩ := second.authorized spec member
    obtain ⟨parent, held', covered', narrows⟩ := narrow.authorized middle held
    exact ⟨parent, held', narrows.covers covered' covered⟩
  requestable := by
    intro spec member
    obtain ⟨middle, held, covered⟩ := second.requestable spec member
    rcases List.mem_append.mp held with authorized | requestable
    · obtain ⟨parent, held', covered', narrows⟩ := narrow.authorized middle authorized
      exact ⟨parent, List.mem_append_left _ held', narrows.covers covered' covered⟩
    · obtain ⟨parent, held', covered', narrows⟩ := narrow.requestable middle requestable
      exact ⟨parent, held', narrows.covers covered' covered⟩
  effects := fun effect permitted => first.effects effect (second.effects effect permitted)
  budget := by
    intro field limit bounded
    obtain ⟨value, bounded', within⟩ := first.budget field limit bounded
    obtain ⟨value', bounded'', within'⟩ := second.budget field value bounded'
    exact ⟨value', bounded'', le_trans within' within⟩
  tenants := List.Subset.trans second.tenants first.tenants
  principals := List.Subset.trans second.principals first.principals
  semantic := by
    intro rule member
    obtain ⟨middle, held, named, operation, covered⟩ := second.semantic rule member
    obtain ⟨parent, held', named', operation', covered'⟩ := first.semantic middle held
    have fine := narrow.semantic middle held parent held' named'
    exact ⟨parent, held', named'.trans named, operation'.trans operation,
      (rule_narrows fine).covers covered' covered⟩
  expiry := by
    intro limit bounded
    obtain ⟨bound, last, middle, bounded', parsed, parsed', within⟩ := first.expiry limit bounded
    obtain ⟨bound', middle', first', bounded'', parsed'', parsed''', within'⟩ :=
      second.expiry bound bounded'
    obtain rfl : middle = middle' := Except.ok.inj (parsed'.symm.trans parsed'')
    exact ⟨bound', last, first', bounded'', parsed, parsed''', le_trans within' within⟩

end Chains

/-- Along a chain of launches under a ceiling, every manifest stays within all that come before
it. -/
theorem manifest_chain_attenuated (engine : Engine) (config : CapabilityConfig)
    (first : TaskAuthorityManifest) (later : List TaskAuthorityManifest)
    (ceiling : first.isCeiling = true)
    (chain : List.IsChain (Launches engine config) (first :: later))
    (narrow : List.IsChain (NarrowLaunch engine config) (first :: later).dropLast) :
    (first :: later).Pairwise (Attenuates engine config) := by
  induction later generalizing first with
  | nil => exact List.pairwise_singleton _ _
  | cons second later ih =>
      obtain ⟨⟨request, launched⟩, chain⟩ := List.isChain_cons_cons.mp chain
      have next := prepareLaunch_attenuates ceiling launched
      cases later with
      | nil => exact List.pairwise_pair.mpr next
      | cons third later =>
          obtain ⟨narrowest, narrow⟩ := List.isChain_cons_cons.mp narrow
          have below := ih second next.ceiling chain narrow
          refine List.pairwise_cons.mpr ⟨?_, below⟩
          intro manifest member
          rcases List.mem_cons.mp member with rfl | further
          · exact next
          · exact next.trans narrowest (List.rel_of_pairwise_cons below further)

/-! ## Chains that read files -/

def readEntry (resource : String) : CapabilityEntry where
  resource := resource
  rights := ["read"]

def readLaunch (resource : String) : LaunchRequest where
  pid := "pid_1"
  imageId := "image_1"
  imageRequired := []
  goalRef := none
  supplied := .payload { authorizedCapabilities := some [readEntry resource] }
  authorizedCapabilities := []
  resourceBudget := none
  issuedBy := "runtime.bootstrap"
  launchAuthorityMode := "compat"
  manifestId := "authm_1"
  createdAt := "2026-01-01T00:00:00+00:00"

def readManifest (parentManifestId : Option String) (resource : String) : TaskAuthorityManifest where
  manifestId := "authm_1"
  pid := "pid_1"
  imageId := "image_1"
  goalRef := none
  authorizedCapabilities :=
    [{ resource := resource
       rights := ["read"]
       constraints := some []
       delegable := some false
       revocable := some true }]
  requiredCapabilities := []
  permittedEffects := none
  resourceBudget := []
  approvalPolicy := {}
  dataFlowPolicy := {}
  expiresAt := none
  issuedBy := "runtime.bootstrap"
  parentManifestId := parentManifestId
  metadata := launchMetadata (readLaunch resource) true
  createdAt := "2026-01-01T00:00:00+00:00"

theorem readManifest_ceiling (parentManifestId : Option String) (resource : String) :
    (readManifest parentManifestId resource).isCeiling = true := by
  have found := launchMetadata_ceiling (readLaunch resource)
  simp [readManifest, TaskAuthorityManifest.isCeiling, Dict.has, Dict.get, found, Value.truthy]

theorem readManifest_attenuated : (
    [readManifest none "filesystem:workspace:src/*",
      readManifest (some "authm_1") "filesystem:workspace:src/lib/*",
      readManifest (some "authm_1") "filesystem:workspace:src/lib/a.py"]).Pairwise
        (Attenuates (plainEngine "") {}) := by
  refine manifest_chain_attenuated (plainEngine "") {} _ _ (readManifest_ceiling _ _)
    (.cons_cons ⟨readLaunch "filesystem:workspace:src/lib/*", rfl⟩
      (.cons_cons ⟨readLaunch "filesystem:workspace:src/lib/a.py", rfl⟩ (.singleton _)))
    (.cons_cons ⟨?_, ?_, ?_⟩ (.singleton _))
  · intro spec member
    obtain rfl := List.mem_singleton.mp member
    refine ⟨_, List.mem_singleton.mpr rfl, rfl, ?_, ?_⟩
    · rintro ⟨G, P, parsedG, parsedP, -, defect⟩
      cases (show ResourceAuthority.parse "filesystem:workspace:src/*" false = .ok
        ⟨"filesystem:workspace:src/*".toList, "filesystem".toList, "workspace:src".toList,
          .subtreeScope⟩ from rfl).symm.trans parsedG
      cases (show ResourceAuthority.parse "filesystem:workspace:src/lib/*" false = .ok
        ⟨"filesystem:workspace:src/lib/*".toList, "filesystem".toList, "workspace:src/lib".toList,
          .subtreeScope⟩ from rfl).symm.trans parsedP
      simp [ResourceAuthority.AdjacentPrefix, ResourceAuthority.WildcardBase,
        ResourceAuthority.CutToBase] at defect
    · rintro limit ⟨⟩
  · rintro spec ⟨⟩
  · rintro rule ⟨⟩

/-- Two launches lead from a subtree to a name beside it. -/
theorem adjacent_name_escapes : ¬ ∀ engine config first later, first.isCeiling = true →
    List.IsChain (Launches engine config) (first :: later) →
    (first :: later).Pairwise (Attenuates engine config) := by
  intro attenuated
  have chain := attenuated (plainEngine "") {} (readManifest none "filesystem:workspace:src/*")
    [readManifest (some "authm_1") "filesystem:workspace:src:*",
      readManifest (some "authm_1") "filesystem:workspace:src:key"] (readManifest_ceiling _ _)
    (.cons_cons ⟨readLaunch "filesystem:workspace:src:*", rfl⟩
      (.cons_cons ⟨readLaunch "filesystem:workspace:src:key", rfl⟩ (.singleton _)))
  have escaped := List.rel_of_pairwise_cons chain (List.mem_cons_of_mem _ List.mem_cons_self)
  obtain ⟨parent, member, covered⟩ := escaped.authorized _ List.mem_cons_self
  obtain rfl := List.mem_singleton.mp member
  cases covered

/-- An entry that may be delegated, with the depth that it states. -/
def delegableEntry (maxDelegationDepth : Option Int) : CapabilityEntry where
  resource := "object:report"
  rights := ["read"]
  delegable := some true
  maxDelegationDepth := maxDelegationDepth

example : specCovers (plainEngine "") {} (delegableEntry (some 1)) (delegableEntry none) =
    .ok true := rfl
example : specCovers (plainEngine "") {} (delegableEntry none) (delegableEntry (some 4)) =
    .ok true := rfl
example : specCovers (plainEngine "") {} (delegableEntry (some 1)) (delegableEntry (some 4)) =
    .ok false := rfl

end AgentLibOS.Manifests
