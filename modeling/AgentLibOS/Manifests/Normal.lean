import AgentLibOS.Manifests.Coverage

namespace AgentLibOS.Manifests
open Capability CapabilityManager Library.Run

/-! ## White space and order -/

theorem strip_strip (text : String) : strip (strip text) = strip text := by
  unfold strip
  rw [String.toList_ofList, Library.Text.strip_strip]

theorem parseText_strip {resource : String} {pattern : ResourcePattern} :
    ResourceAuthority.parseText (strip resource).toList false = .ok pattern ↔
      ResourceAuthority.parseText resource.toList false = .ok pattern := by
  have same : ResourceAuthority.canonicalText (strip resource).toList =
      ResourceAuthority.canonicalText resource.toList := by
    unfold strip ResourceAuthority.canonicalText
    rw [String.toList_ofList, Library.Text.strip_strip]
  unfold ResourceAuthority.parseText
  simp only [same, Bool.false_eq_true, false_and, if_false]
  split_ifs <;> simp

theorem covers_strip {granted requested : String} :
    ResourceAuthority.covers (strip granted) requested = ResourceAuthority.covers granted requested ∧
      ResourceAuthority.covers granted (strip requested) =
        ResourceAuthority.covers granted requested := by
  constructor
  · rw [Bool.eq_iff_iff]
    simp only [ResourceAuthority.covers, ResourceAuthority.coversText_iff, parseText_strip]
  · rw [Bool.eq_iff_iff]
    simp only [ResourceAuthority.covers, ResourceAuthority.coversText_iff, parseText_strip]

theorem mem_rightSet {right : String} {rights : List String} :
    right ∈ rightSet rights ↔ right ∈ rights := by
  rw [rightSet, sortedKeys, List.mem_insertionSort, List.mem_dedup]

theorem rightSet_nodup (rights : List String) : (rightSet rights).Nodup :=
  (List.perm_insertionSort (· ≤ ·) rights.dedup).nodup_iff.mpr (List.nodup_dedup rights)

theorem sortedKeys_sortedKeys (keys : List String) : sortedKeys (sortedKeys keys) = sortedKeys keys :=
  (List.pairwise_insertionSort (· ≤ ·) keys).insertionSort_eq

theorem rightSet_rightSet (rights : List String) : rightSet (rightSet rights) = rightSet rights := by
  rw [rightSet, (rightSet_nodup rights).dedup, rightSet, sortedKeys_sortedKeys]

theorem normalizeRights_rightSet (config : CapabilityConfig) (rights : List String) :
    normalizeRights config (rightSet rights) = normalizeRights config rights := by
  have none : rightSet rights = [] ↔ rights = [] := by
    simp only [List.eq_nil_iff_forall_not_mem, mem_rightSet]
  simp only [normalizeRights, mem_rightSet, rightSet_rightSet, ne_eq, none]

section Normal
variable {engine : Engine} {config : CapabilityConfig}

/-! ## Entries in normal form -/

theorem expiresAtDatetime_strip (text : String) :
    expiresAtDatetime engine (strip text) = expiresAtDatetime engine text := by
  unfold expiresAtDatetime
  rw [strip_strip]

theorem requiredExpiry_ok {label text stored : String}
    (done : requiredExpiry engine label text = .ok stored) : stored = strip text := by
  unfold requiredExpiry at done
  dsimp only at done
  split_ifs at done
  · cases done
  · split at done
    · cases done
    · cases done
      rfl

theorem optionally_requiredExpiry {label : String} {text stored : Option String}
    (done : optionally (requiredExpiry engine label) text = .ok stored) :
    stored = text.map strip := by
  cases text with
  | none =>
      cases done
      rfl
  | some text =>
      obtain ⟨stored', here, rfl⟩ := map_eq_ok.mp done
      exact congrArg some (requiredExpiry_ok here)

theorem optionally_expiresAt_strip (text : Option String) :
    optionally (expiresAtDatetime engine) (text.map strip) =
      optionally (expiresAtDatetime engine) text := by
  cases text with
  | none => rfl
  | some text => simp [optionally, expiresAtDatetime_strip]

/-- The entry in normal form says what the entry says, about the resource without outer white
space. -/
structure NormalOf (engine : Engine) (config : CapabilityConfig)
    (entry normal : CapabilityEntry) : Prop where
  resource : normal.resource = strip entry.resource
  rights : normal.rights = rightSet entry.rights
  constraints : normal.constraints = some (entry.constraints.getD [])
  delegable : normal.delegable = some (entry.delegable.getD false)
  revocable : normal.revocable = some (entry.revocable.getD true)
  expiresAt : normal.expiresAt = entry.expiresAt.map strip
  usesRemaining : normal.usesRemaining = entry.usesRemaining
  maxDelegationDepth : normal.maxDelegationDepth = entry.maxDelegationDepth
  covered : specCovers engine config normal normal = .ok true

theorem normalizeSpec_ok {entry normal : CapabilityEntry}
    (done : normalizeSpec engine config entry = .ok normal) :
    NormalOf engine config entry normal := by
  unfold normalizeSpec at done
  dsimp only at done
  split at done
  · cases done
  · simp only [bind_eq_ok, ensure_ok, exists_const] at done
    obtain ⟨-, -, expiresAt, expiry, -, -, covered, checked, done⟩ := done
    cases covered with
    | false => cases done
    | true =>
        cases done
        exact ⟨rfl, rfl, rfl, rfl, rfl, optionally_requiredExpiry expiry, rfl, rfl, checked⟩

/-- Coercion of the normal form is coercion of the entry, but for the resource. -/
theorem NormalOf.coerce {entry normal : CapabilityEntry} (form : NormalOf engine config entry normal)
    {spec : CapabilitySpec} (done : coerceSpec engine config normal = .ok spec) :
    spec.resource = strip entry.resource ∧
      coerceSpec engine config entry = .ok { spec with resource := entry.resource } := by
  obtain ⟨resource, rights, constraints, delegable, revocable, expiresAt, uses, depth⟩ := normal
  obtain ⟨rfl, rfl, rfl, rfl, rfl, rfl, rfl, rfl, -⟩ := form
  simp only [coerceSpec, bind_eq_ok, ensure_ok, exists_const, Option.getD_some,
    optionally_expiresAt_strip, normalizeRights_rightSet] at done ⊢
  obtain ⟨filled, counted, uses, bound, expiry, effect, policy, single, deep, depth, error, valid,
    done⟩ := done
  have nonempty : entry.resource ≠ "" := by
    intro empty
    rw [empty] at filled
    exact filled (by decide)
  cases error with
  | some error => cases done
  | none =>
      obtain ⟨rights, named, done⟩ := bind_eq_ok.mp done
      cases done
      exact ⟨rfl, nonempty, counted, uses, bound, expiry, effect, policy, single, deep, depth, none,
        valid, bind_eq_ok.mpr ⟨rights, named, rfl⟩⟩

/-- What the normal form of an entry covers, the entry covers. -/
theorem NormalOf.covers {entry normal requested : CapabilityEntry}
    (form : NormalOf engine config entry normal)
    (covered : specCovers engine config normal requested = .ok true) :
    specCovers engine config entry requested = .ok true := by
  obtain ⟨parent, selected, coerced, coerced', covered⟩ := specCovers_iff.mp covered
  obtain ⟨resource, raw⟩ := form.coerce coerced
  refine specCovers_iff.mpr ⟨_, selected, raw, coerced', { covered with resource := ?_ }⟩
  have inside := covered.resource
  rw [resource, covers_strip.1] at inside
  exact inside

/-- What covers the normal form of an entry covers the entry. -/
theorem NormalOf.covered_by {entry normal parent : CapabilityEntry}
    (form : NormalOf engine config entry normal)
    (covered : specCovers engine config parent normal = .ok true) :
    specCovers engine config parent entry = .ok true := by
  obtain ⟨parent', selected, coerced, coerced', covered⟩ := specCovers_iff.mp covered
  obtain ⟨resource, raw⟩ := form.coerce coerced'
  refine specCovers_iff.mpr ⟨parent', _, coerced, raw, { covered with resource := ?_ }⟩
  have inside := covered.resource
  rw [resource, covers_strip.2] at inside
  exact inside

end Normal
end AgentLibOS.Manifests
