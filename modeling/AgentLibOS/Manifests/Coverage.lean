import AgentLibOS.Manifests.Launch
import AgentLibOS.Capability.Attenuation
import AgentLibOS.Capability.CoverageSoundness

namespace AgentLibOS.Capability

/-! ## Equality of values -/

theorem Dict.mem_of_lookup {dict : Dict} {key : String} {value : Value}
    (found : dict.lookup key = some value) : (key, value) ∈ dict := by
  obtain ⟨before, after, rfl, _⟩ := List.lookup_eq_some_iff.mp found
  simp

namespace Value

/-- What two equal values that hold no others are. -/
inductive SameAtom : Value → Value → Prop
  | none : SameAtom .none .none
  | str (text : String) : SameAtom (.str text) (.str text)
  | infinite (negative : Bool) : SameAtom (.float (.infinite negative)) (.float (.infinite negative))
  | number {left right : Value} (value : ℚ) (first : left.number = some value)
      (second : right.number = some value) : SameAtom left right

theorem sameAtom_of_atomEq {left right : Value} (same : atomEq left right = true) :
    SameAtom left right := by
  unfold atomEq at same
  split at same
  · exact .none
  · obtain rfl := beq_iff_eq.mp same
    exact .str _
  · obtain rfl := beq_iff_eq.mp same
    exact .infinite _
  · split at same
    · rename_i first second
      obtain rfl := beq_iff_eq.mp same
      exact .number _ first second
    · cases same

theorem atomEq_of_number {left right : Value} {value : ℚ} (first : left.number = some value)
    (second : right.number = some value) : atomEq left right = true := by
  unfold atomEq
  split
  · cases first
  · cases first
  · cases first
  · simp [first, second]

theorem atomEq_trans {a b c : Value} (first : atomEq a b = true) (second : atomEq b c = true) :
    atomEq a c = true := by
  cases sameAtom_of_atomEq first with
  | none => exact second
  | str text => exact second
  | infinite negative => exact second
  | number value left middle =>
      cases sameAtom_of_atomEq second with
      | none => cases middle
      | str text => cases middle
      | infinite negative => cases middle
      | number value' middle' right =>
          obtain rfl : value = value' := Option.some.inj (middle.symm.trans middle')
          exact atomEq_of_number left right

/-- A value that holds no others. -/
def isAtom : Value → Bool
  | .list _ => false
  | .dict _ => false
  | _ => true

theorem eq_atom {left right : Value} (atom : left.isAtom = true) :
    eq left right = atomEq left right := by
  cases left with
  | list items => cases atom
  | dict entries => cases atom
  | _ => simp [eq]

theorem SameAtom.isAtom_right {left right : Value} (same : SameAtom left right) :
    right.isAtom = true := by
  cases same with
  | number value first second =>
      cases right with
      | list items => cases second
      | dict entries => cases second
      | _ => rfl
  | _ => rfl

theorem eq_trans_atom {a b c : Value} (atom : a.isAtom = true) (first : eq a b = true)
    (second : eq b c = true) : eq a c = true := by
  rw [eq_atom atom] at first ⊢
  rw [eq_atom (sameAtom_of_atomEq first).isAtom_right] at second
  exact atomEq_trans first second

theorem eqDict_get {left right : Dict} (same : eqDict left right = true) {entry : String × Value}
    (member : entry ∈ left) : ∃ value, right.lookup entry.1 = some value ∧
      eq entry.2 value = true := by
  induction left with
  | nil => cases member
  | cons first rest ih =>
      obtain ⟨key, here⟩ := first
      simp only [eqDict, Bool.and_eq_true] at same
      rcases List.mem_cons.mp member with rfl | later
      · cases found : right.lookup key with
        | none => simp [found] at same
        | some value =>
            rw [found] at same
            exact ⟨value, rfl, same.1⟩
      · exact ih same.2 later

mutual

theorem eq_trans : ∀ {a b c : Value}, eq a b = true → eq b c = true → eq a c = true
  | .list left, b, c, first, second => by
      cases b <;> try simp [eq, atomEq, number] at first
      cases c <;> try simp [eq, atomEq, number] at second
      simp only [eq]
      exact eqList_trans first second
  | .dict left, b, c, first, second => by
      cases b <;> try simp [eq, atomEq, number] at first
      cases c <;> try simp [eq, atomEq, number] at second
      simp only [eq, Bool.and_eq_true, beq_iff_eq]
      exact ⟨first.1.trans second.1, eqDict_trans first.2 second.2⟩
  | .none, _, _, first, second => eq_trans_atom rfl first second
  | .bool _, _, _, first, second => eq_trans_atom rfl first second
  | .int _, _, _, first, second => eq_trans_atom rfl first second
  | .float _, _, _, first, second => eq_trans_atom rfl first second
  | .str _, _, _, first, second => eq_trans_atom rfl first second

theorem eqList_trans : ∀ {a b c : List Value}, eqList a b = true → eqList b c = true →
    eqList a c = true
  | [], [], [], _, _ => by simp [eqList]
  | left :: lefts, middle :: middles, right :: rights, first, second => by
      simp only [eqList, Bool.and_eq_true] at first second ⊢
      exact ⟨eq_trans first.1 second.1, eqList_trans first.2 second.2⟩

theorem eqDict_trans : ∀ {a b c : Dict}, eqDict a b = true → eqDict b c = true →
    eqDict a c = true
  | [], _, _, _, _ => by simp [eqDict]
  | (key, left) :: rest, middle, right, first, second => by
      have head := eqDict_get first List.mem_cons_self
      simp only [eqDict, Bool.and_eq_true] at first ⊢
      obtain ⟨value, found, same⟩ := head
      obtain ⟨value', found', same'⟩ := eqDict_get second (Dict.mem_of_lookup found)
      refine ⟨?_, eqDict_trans first.2 second⟩
      simp only [found']
      exact eq_trans same same'

end

end Value

/-! ## Resources -/

/-- Coverage without a defect carries on over whatever the covered pattern covers. -/
theorem ResourceAuthority.covers_trans {granted middle requested : String}
    (covered : covers granted middle = true) (fine : ¬ CoverageDefect granted middle)
    (further : covers middle requested = true) : covers granted requested = true := by
  obtain ⟨G, P, P', parsedG, parsedP, again, hit⟩ := coversText_iff.mp covered
  obtain ⟨P₂, Q, Q', parsedP₂, parsedQ, againQ, hitQ⟩ := coversText_iff.mp further
  obtain rfl : P₂ = P := Except.ok.inj (parsedP₂.symm.trans parsedP)
  have sound := (patterns_sound_iff parsedG parsedP again hit).mpr fun defect =>
    fine ⟨G, P₂, parsedG, parsedP, defect⟩
  exact coversText_iff.mpr ⟨G, Q, Q', parsedG, parsedQ, againQ, sound _ Q' againQ hitQ⟩

end AgentLibOS.Capability

namespace AgentLibOS.Manifests
open Capability CapabilityManager Library.Run

section Specs
variable {engine : Engine} {config : CapabilityConfig}

/-! ## Constraints -/

theorem subsetOf_iff {inner outer : Value} : subsetOf inner outer = true ↔
    ∃ small large, inner.strings = some small ∧ outer.strings = some large ∧ small ⊆ large := by
  unfold subsetOf
  cases inner.strings with
  | none => simp
  | some small =>
      cases outer.strings with
      | none => simp
      | some large => simp [List.subset_def]

theorem subsetOf_trans {a b c : Value} (first : subsetOf a b = true) (second : subsetOf b c = true) :
    subsetOf a c = true := by
  obtain ⟨small, middle, readA, readB, inside⟩ := subsetOf_iff.mp first
  obtain ⟨middle', large, readB', readC, inside'⟩ := subsetOf_iff.mp second
  obtain rfl : middle = middle' := Option.some.inj (readB.symm.trans readB')
  exact subsetOf_iff.mpr ⟨small, large, readA, readC, List.Subset.trans inside inside'⟩

/-- The value that a delegated constraint may have under the one of the parent. -/
def WithinConstraint (key : String) (delegated parent : Value) : Prop :=
  if key = "git_allowed_refs" then subsetOf delegated parent = true else delegated.eq parent = true

theorem WithinConstraint.trans {key : String} {a b c : Value} (first : WithinConstraint key a b)
    (second : WithinConstraint key b c) : WithinConstraint key a c := by
  unfold WithinConstraint at first second ⊢
  split_ifs at first second ⊢
  · exact subsetOf_trans first second
  · exact Value.eq_trans first second

structure ConstraintsCovered (engine : Engine) (config : CapabilityConfig)
    (parent delegated : Dict) : Prop where
  parentValid : validationError engine config parent = .ok none
  valid : validationError engine config delegated = .ok none
  kept : ∀ entry ∈ parent, delegated.has entry.1 = true ∧
    WithinConstraint entry.1 (delegated.get entry.1) entry.2
  added : ∀ entry ∈ delegated, parent.has entry.1 = false →
    entry.1 ≠ authorityRulesKey ∧ entry.1 ≠ shellPolicyKey

theorem parentConstraintError_iff {delegated : Dict} {key : String} {value : Value} :
    parentConstraintError delegated key value = none ↔
      delegated.has key = true ∧ WithinConstraint key (delegated.get key) value := by
  refine ⟨parentConstraintError_none, ?_⟩
  rintro ⟨held, within⟩
  unfold WithinConstraint at within
  unfold parentConstraintError
  split_ifs at within ⊢ <;> simp_all

theorem constraintAttenuationError_iff {parent delegated : Dict} :
    constraintAttenuationError engine config parent delegated = .ok none ↔
      ConstraintsCovered engine config parent delegated := by
  have checks : (((parent.findSome? fun entry =>
        parentConstraintError delegated entry.1 entry.2).or
      ((delegated.find? fun entry => !parent.has entry.1 &&
        (entry.1 == authorityRulesKey || entry.1 == shellPolicyKey)).map fun entry =>
          "delegated constraint is not covered by parent: " ++ entry.1)) = none) ↔
      (∀ entry ∈ parent, delegated.has entry.1 = true ∧
        WithinConstraint entry.1 (delegated.get entry.1) entry.2) ∧
      ∀ entry ∈ delegated, parent.has entry.1 = false →
        entry.1 ≠ authorityRulesKey ∧ entry.1 ≠ shellPolicyKey := by
    rw [Option.or_eq_none_iff, List.findSome?_eq_none_iff, Option.map_eq_none_iff,
      List.find?_eq_none]
    refine and_congr (forall₂_congr fun entry _ => parentConstraintError_iff)
      (forall₂_congr fun entry _ => ?_)
    cases parent.has entry.1 <;> simp
  constructor
  · intro done
    obtain ⟨parentError, parentValid, done⟩ := bind_eq_ok.mp done
    cases parentError with
    | some error => cases done
    | none =>
        obtain ⟨ownError, valid, done⟩ := bind_eq_ok.mp done
        cases ownError with
        | some error => cases done
        | none =>
            obtain ⟨kept, added⟩ := checks.mp (Except.ok.inj done)
            exact ⟨parentValid, valid, kept, added⟩
  · intro covered
    refine bind_eq_ok.mpr ⟨none, covered.parentValid, bind_eq_ok.mpr ⟨none, covered.valid, ?_⟩⟩
    exact congrArg Except.ok (checks.mpr ⟨covered.kept, covered.added⟩)

theorem has_of_mem {dict : Dict} {entry : String × Value} (member : entry ∈ dict) :
    dict.has entry.1 = true := by
  unfold Dict.has
  rw [List.lookup_isSome_iff]
  exact ⟨entry, member, by simp⟩

theorem get_of_has {dict : Dict} {key : String} (held : dict.has key = true) :
    (key, dict.get key) ∈ dict := by
  obtain ⟨value, found⟩ := Option.isSome_iff_exists.mp held
  rw [Dict.get, found]
  exact Dict.mem_of_lookup found

theorem ConstraintsCovered.trans {a b c : Dict} (first : ConstraintsCovered engine config a b)
    (second : ConstraintsCovered engine config b c) : ConstraintsCovered engine config a c where
  parentValid := first.parentValid
  valid := second.valid
  kept := by
    intro entry member
    obtain ⟨held, within⟩ := first.kept entry member
    obtain ⟨held', within'⟩ := second.kept _ (get_of_has held)
    exact ⟨held', within'.trans within⟩
  added := by
    intro entry member absent
    cases held : b.has entry.1 with
    | false => exact second.added entry member held
    | true => exact first.added (entry.1, b.get entry.1) (get_of_has held) absent

/-! ## Coverage of specs -/

structure Covered (engine : Engine) (config : CapabilityConfig)
    (parent selected : CapabilitySpec) : Prop where
  effect : parent.effect = .allow
  resource : ResourceAuthority.covers parent.resource selected.resource = true
  rights : ∀ right ∈ selected.rights, right ∈ parent.rights
  constraints : ConstraintsCovered engine config parent.constraints selected.constraints
  expiry : ∀ limit, parent.expiresAt = some limit →
    ∃ bound, selected.expiresAt = some bound ∧ bound ≤ limit
  uses : parent.usesRemaining ≠ none → selected.usesRemaining = parent.usesRemaining
  delegable : selected.delegable = true → parent.delegable = true
  depth : ∀ limit depth, initialMaxDelegationDepth config parent = some limit →
    selected.maxDelegationDepth = some depth → depth ≤ limit

theorem expired_iff {limit bound : Option Int} :
    ¬ (limit.any fun limit => bound.all (limit < ·)) = true ↔
      ∀ limit', limit = some limit' → ∃ bound', bound = some bound' ∧ bound' ≤ limit' := by
  cases limit with
  | none => simp
  | some limit => cases bound <;> simp

theorem deeper_iff {limit depth : Option Nat} :
    ¬ (limit.any fun limit => depth.any (limit < ·)) = true ↔
      ∀ limit' depth', limit = some limit' → depth = some depth' → depth' ≤ limit' := by
  cases limit with
  | none => simp
  | some limit => cases depth <;> simp

theorem coversSpec_iff {parent selected : CapabilitySpec} :
    coversSpec engine config parent selected = .ok true ↔
      Covered engine config parent selected := by
  constructor
  · intro done
    unfold coversSpec at done
    split at done
    · cases done
    · rename_i root
      split at done
      · cases done
      · rename_i rights
        obtain ⟨error, checked, done⟩ := bind_eq_ok.mp done
        cases error with
        | some error => cases done
        | none =>
            dsimp only at done
            split_ifs at done with expired uses delegable deeper
            · cases done
            · cases done
            · cases done
            · cases done
            · simp only [ne_eq, not_or, not_not, Bool.not_eq_false] at root
              exact
                { effect := root.1
                  resource := root.2
                  rights := not_not.mp rights
                  constraints := constraintAttenuationError_iff.mp checked
                  expiry := expired_iff.mp expired
                  uses := fun limited => by_contra fun other => uses ⟨limited, other⟩
                  delegable := fun asked => by
                    by_contra other
                    exact delegable ⟨asked, by simpa using other⟩
                  depth := deeper_iff.mp deeper }
  · intro covered
    unfold coversSpec
    rw [if_neg (by simp [covered.effect, covered.resource]), if_neg (not_not.mpr covered.rights)]
    refine bind_eq_ok.mpr ⟨none, constraintAttenuationError_iff.mpr covered.constraints, ?_⟩
    dsimp only
    rw [if_neg (expired_iff.mpr covered.expiry), if_neg, if_neg, if_neg (deeper_iff.mpr covered.depth)]
    · rintro ⟨asked, other⟩
      rw [covered.delegable asked] at other
      cases other
    · rintro ⟨limited, other⟩
      exact other (covered.uses limited)

/-- The limit of the parent is still a limit once `selected` covers further specs. -/
def KeepsDepth (config : CapabilityConfig) (parent selected : CapabilitySpec) : Prop :=
  ∀ limit, initialMaxDelegationDepth config parent = some limit →
    ∃ own, initialMaxDelegationDepth config selected = some own ∧ own ≤ limit

theorem Covered.trans {a b c : CapabilitySpec} (first : Covered engine config a b)
    (resource : ¬ ResourceAuthority.CoverageDefect a.resource b.resource)
    (depth : KeepsDepth config a b) (second : Covered engine config b c) :
    Covered engine config a c where
  effect := first.effect
  resource := ResourceAuthority.covers_trans first.resource resource second.resource
  rights := fun right member => first.rights right (second.rights right member)
  constraints := first.constraints.trans second.constraints
  expiry := by
    intro limit bounded
    obtain ⟨middle, bounded', within⟩ := first.expiry limit bounded
    obtain ⟨bound, bounded'', within'⟩ := second.expiry middle bounded'
    exact ⟨bound, bounded'', le_trans within' within⟩
  uses := by
    intro limited
    have same := first.uses limited
    exact (second.uses (same ▸ limited)).trans same
  delegable := fun asked => first.delegable (second.delegable asked)
  depth := by
    intro limit depth' bounded asked
    obtain ⟨own, bounded', within⟩ := depth limit bounded
    exact (second.depth own depth' bounded' asked).trans within

theorem specCovers_iff {parent requested : CapabilityEntry} :
    specCovers engine config parent requested = .ok true ↔ ∃ selectedParent selected,
      coerceSpec engine config parent = .ok selectedParent ∧
        coerceSpec engine config requested = .ok selected ∧
          Covered engine config selectedParent selected := by
  simp only [specCovers, bind_eq_ok, coversSpec_iff]
  constructor
  · rintro ⟨selectedParent, coercedParent, selected, coerced, covered⟩
    exact ⟨selectedParent, selected, coercedParent, coerced, covered⟩
  · rintro ⟨selectedParent, selected, coercedParent, coerced, covered⟩
    exact ⟨selectedParent, coercedParent, selected, coerced, covered⟩

theorem anyCovers_ok {allowed : List CapabilityEntry} {requested : CapabilityEntry}
    (found : anyCovers engine config allowed requested = .ok true) :
    ∃ parent ∈ allowed, specCovers engine config parent requested = .ok true := by
  induction allowed with
  | nil => cases found
  | cons parent rest ih =>
      obtain ⟨covered, here, found⟩ := bind_eq_ok.mp found
      cases covered with
      | true => exact ⟨parent, List.mem_cons_self, here⟩
      | false =>
          obtain ⟨other, member, there⟩ := ih found
          exact ⟨other, List.mem_cons_of_mem _ member, there⟩

theorem requireSpecCovered_ok {label : String} {allowed : List CapabilityEntry}
    {requested : CapabilityEntry}
    (done : requireSpecCovered engine config label allowed requested = .ok ()) :
    ∃ parent ∈ allowed, specCovers engine config parent requested = .ok true := by
  obtain ⟨covered, found, done⟩ := bind_eq_ok.mp done
  cases covered with
  | true => exact anyCovers_ok found
  | false => cases done

end Specs
end AgentLibOS.Manifests
