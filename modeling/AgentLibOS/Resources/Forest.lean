import AgentLibOS.Resources.Model

namespace AgentLibOS.Resources.ProcessForest

variable {forest : ProcessForest}

theorem chainFrom_enough {pid : String} {n m : Nat} (hn : forest.depth pid ≤ n)
    (hm : forest.depth pid ≤ m) : forest.chainFrom n pid = forest.chainFrom m pid := by
  have root : forest.depth pid = 0 → forest.parent pid = none := by
    intro zero
    cases above : forest.parent pid with
    | none => rfl
    | some parent =>
        have := (forest.linked pid parent above).2.2
        omega
  induction n generalizing pid m with
  | zero =>
      have none_above := root (Nat.le_zero.mp hn)
      cases m <;> simp [chainFrom, none_above]
  | succ n ih =>
      cases m with
      | zero => simp [chainFrom, root (Nat.le_zero.mp hm)]
      | succ m =>
          cases above : forest.parent pid with
          | none => simp [chainFrom, above]
          | some parent =>
              have shallower := (forest.linked pid parent above).2.2
              simp only [chainFrom, above]
              refine congrArg (pid :: ·) (ih (by omega) (by omega) fun zero => ?_)
              cases further : forest.parent parent with
              | none => rfl
              | some grandparent =>
                  have := (forest.linked parent grandparent further).2.2
                  omega

theorem chain_root {pid : String} (root : forest.parent pid = none) : forest.chain pid = [pid] := by
  unfold chain
  cases forest.depth pid <;> simp [chainFrom, root]

theorem chain_child {pid parent : String} (above : forest.parent pid = some parent) :
    forest.chain pid = pid :: forest.chain parent := by
  have shallower := (forest.linked pid parent above).2.2
  obtain ⟨n, hn⟩ : ∃ n, forest.depth pid = n + 1 := ⟨forest.depth pid - 1, by omega⟩
  rw [chain, hn, chain]
  simp only [chainFrom, above]
  exact congrArg (pid :: ·) (chainFrom_enough (by omega) le_rfl)

/-- Induction from the root of a process down to it. -/
theorem chain_induction (forest : ProcessForest) {motive : String → Prop}
    (root : ∀ pid, forest.parent pid = none → motive pid)
    (child : ∀ pid parent, forest.parent pid = some parent → motive parent → motive pid)
    (pid : String) : motive pid := by
  induction depth : forest.depth pid using Nat.strong_induction_on generalizing pid with
  | _ n ih =>
      cases above : forest.parent pid with
      | none => exact root pid above
      | some parent =>
          exact child pid parent above
            (ih _ (depth ▸ (forest.linked pid parent above).2.2) parent rfl)

theorem self_mem_chain (pid : String) : pid ∈ forest.chain pid := by
  cases above : forest.parent pid with
  | none => simp [chain_root above]
  | some parent => simp [chain_child above]

theorem depth_le_of_mem_chain {pid other : String} (member : other ∈ forest.chain pid) :
    forest.depth other ≤ forest.depth pid := by
  induction pid using chain_induction forest with
  | root pid above =>
      rw [chain_root above, List.mem_singleton] at member
      exact (congrArg forest.depth member).le
  | child pid parent above ih =>
      have shallower := (forest.linked pid parent above).2.2
      rw [chain_child above, List.mem_cons] at member
      rcases member with rfl | member
      · exact le_rfl
      · exact (ih member).trans shallower.le

theorem not_mem_chain_parent {pid parent : String} (above : forest.parent pid = some parent) :
    pid ∉ forest.chain parent := by
  intro member
  have := depth_le_of_mem_chain member
  have := (forest.linked pid parent above).2.2
  omega

theorem parent_mem_chain {pid child parent : String} (above : forest.parent child = some parent)
    (member : child ∈ forest.chain pid) : parent ∈ forest.chain pid := by
  induction pid using chain_induction forest with
  | root pid none_above =>
      rw [chain_root none_above, List.mem_singleton] at member
      subst member
      simp [none_above] at above
  | child pid next link ih =>
      rw [chain_child link, List.mem_cons] at member ⊢
      rcases member with rfl | member
      · obtain rfl : next = parent := Option.some.inj (link.symm.trans above)
        exact Or.inr (self_mem_chain next)
      · exact Or.inr (ih member)

/-! ## The process below an owner -/

theorem belowOwner_chain {owner pid child : String} {below : Option String}
    (found : belowOwner owner below (forest.chain pid) = some (some child)) :
    (below = some child ∧ pid = owner) ∨
      (forest.parent child = some owner ∧ child ∈ forest.chain pid) := by
  induction pid using chain_induction forest generalizing below with
  | root pid above =>
      simp only [chain_root above, belowOwner] at found
      split_ifs at found with same
      exact Or.inl ⟨Option.some.inj found, same⟩
  | child pid parent above ih =>
      simp only [chain_child above, belowOwner] at found
      split_ifs at found with same
      · exact Or.inl ⟨Option.some.inj found, same⟩
      · rw [chain_child above]
        rcases ih found with ⟨here, rfl⟩ | ⟨link, member⟩
        · obtain rfl : pid = child := Option.some.inj here
          exact Or.inr ⟨above, List.mem_cons_self⟩
        · exact Or.inr ⟨link, List.mem_cons_of_mem _ member⟩

theorem belowOwner_of_mem {owner pid child : String} (link : forest.parent child = some owner)
    (member : child ∈ forest.chain pid) (below : Option String) :
    belowOwner owner below (forest.chain pid) = some (some child) := by
  have shallower := (forest.linked child owner link).2.2
  have deep := depth_le_of_mem_chain member
  have different : pid ≠ owner := by
    rintro rfl
    omega
  induction pid using chain_induction forest generalizing below with
  | root pid above =>
      rw [chain_root above, List.mem_singleton] at member
      subst member
      simp [above] at link
  | child pid parent above ih =>
      rw [chain_child above, List.mem_cons] at member
      rw [chain_child above, belowOwner, if_neg different]
      rcases member with rfl | member
      · obtain rfl : parent = owner := Option.some.inj (above.symm.trans link)
        cases further : forest.parent parent with
        | none => simp [chain_root further, belowOwner]
        | some grandparent => simp [chain_child further, belowOwner]
      · have deep' := depth_le_of_mem_chain member
        refine ih member _ deep' ?_
        rintro rfl
        omega

theorem belowOwner_direct {owner pid child : String} :
    belowOwner owner none (forest.chain pid) = some (some child) ↔
      forest.parent child = some owner ∧ child ∈ forest.chain pid := by
  constructor
  · intro found
    rcases belowOwner_chain found with ⟨impossible, -⟩ | found
    · cases impossible
    · exact found
  · exact fun found => belowOwner_of_mem found.1 found.2 none

theorem belowOwner_isSome {owner pid : String} {below : Option String} :
    (belowOwner owner below (forest.chain pid)).isSome = true ↔ owner ∈ forest.chain pid := by
  induction pid using chain_induction forest generalizing below with
  | root pid above =>
      rw [chain_root above, belowOwner, List.mem_singleton]
      by_cases same : pid = owner
      · simp [same]
      · simp [same, belowOwner, Ne.symm same]
  | child pid parent above ih =>
      rw [chain_child above, belowOwner, List.mem_cons]
      by_cases same : pid = owner
      · simp [same]
      · simp [same, ih, Ne.symm same]

theorem belowOwner_self {owner pid : String} :
    belowOwner owner none (forest.chain pid) = some none ↔ pid = owner := by
  constructor
  · intro found
    by_contra different
    cases above : forest.parent pid with
    | none => simp [chain_root above, belowOwner, different] at found
    | some parent =>
        rw [chain_child above, belowOwner, if_neg different] at found
        have never : ∀ (chain : List String) (below : String),
            belowOwner owner (some below) chain ≠ some none := by
          intro chain
          induction chain with
          | nil => simp [belowOwner]
          | cons first rest ih =>
              intro below
              rw [belowOwner]
              split_ifs
              · simp
              · exact ih first
        exact never _ _ found
  · rintro rfl
    cases above : forest.parent pid with
    | none => simp [chain_root above, belowOwner]
    | some parent => simp [chain_child above, belowOwner]

end AgentLibOS.Resources.ProcessForest
