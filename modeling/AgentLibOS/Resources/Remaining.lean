import AgentLibOS.Resources.BudgetRuns

namespace AgentLibOS.Resources
open Library ProcessForest

/-- Only one budget field counts a counter that is the sole counter of some field. -/
theorem budgetUsageMap_single {field other : BudgetField} {counter : UsageField}
    (sole : budgetUsageMap field = [counter]) (counts : counter ∈ budgetUsageMap other) :
    other = field := by
  cases field <;> simp only [budgetUsageMap, List.cons.injEq, reduceCtorEq, and_true, and_false] at sole
    <;> subst sole <;> cases other <;> simp [budgetUsageMap] at counts ⊢

theorem total_single {field : BudgetField} {counter : UsageField}
    (sole : budgetUsageMap field = [counter]) {amount : ℚ} (nonneg : 0 ≤ amount) :
    (ResourceUsage.single counter amount nonneg).total field = amount := by
  simp [ResourceUsage.total, sole, ResourceUsage.single]

theorem touches_single {field other : BudgetField} {counter : UsageField}
    (sole : budgetUsageMap field = [counter]) {amount : ℚ} (nonneg : 0 ≤ amount)
    (touched : (ResourceUsage.single counter amount nonneg).touches other = true) :
    other = field := by
  obtain ⟨moved, counts, nonzero⟩ := List.any_eq_true.mp touched
  have : moved = counter := by
    by_contra different
    simp [ResourceUsage.single, different] at nonzero
  exact budgetUsageMap_single sole (this ▸ counts)

namespace Accounts
variable {forest : ProcessForest} {accounts : Accounts}

/-! ## Admission of a single counter -/

theorem preflightChain_ok_iff {usage : ResourceUsage} (pid : String) {below : Option String} :
    accounts.preflightChain forest usage below (forest.chain pid) = .ok () ↔
      ∀ owner position, belowOwner owner below (forest.chain pid) = some position →
        accounts.firstExceeded forest owner ((accounts.usage owner).merge usage) usage position =
          none := by
  have cons : ∀ {below : Option String} {pid : String} {rest : List String},
      accounts.preflightChain forest usage below (pid :: rest) = .ok () ↔
        accounts.firstExceeded forest pid ((accounts.usage pid).merge usage) usage below = none ∧
          accounts.preflightChain forest usage (some pid) rest = .ok () := by
    intro below pid rest
    rw [preflightChain]
    split
    · rename_i found
      simp [found]
    · rename_i found
      simp [found]
  induction pid using chain_induction forest generalizing below with
  | root pid above =>
      rw [chain_root above, cons]
      simp only [preflightChain, and_true, belowOwner]
      constructor
      · intro fine owner position found
        split_ifs at found with same
        cases found
        exact same ▸ fine
      · exact fun all => all pid below (if_pos rfl)
  | child pid parent above ih =>
      rw [chain_child above, cons]
      refine (and_congr_right fun _ => ih).trans ?_
      simp only [belowOwner]
      constructor
      · rintro ⟨fine, further⟩ owner position found
        split_ifs at found with same
        · cases found
          exact same ▸ fine
        · exact further owner position found
      · intro all
        refine ⟨all pid below (if_pos rfl), fun owner position found => all owner position ?_⟩
        have different : pid ≠ owner := by
          rintro rfl
          refine not_mem_chain_parent above ((@belowOwner_isSome _ _ _ (some pid)).mp ?_)
          rw [found]
          rfl
        rw [if_neg different]
        exact found

/-- What `owner` holds back for the process below it. -/
def heldBelow (accounts : Accounts) (owner : String) (field : BudgetField) :
    Option String → ℚ
  | none => 0
  | some child => accounts.reserved owner child field

theorem heldBelow_nonneg (owner : String) (field : BudgetField) (below : Option String) :
    0 ≤ accounts.heldBelow owner field below := by
  cases below with
  | none => exact le_rfl
  | some child => exact accounts.reserved_nonneg owner child field

/-- A use by the process below is set against what is held for it. -/
theorem reservedBudgetValue_consuming (owner : String) (field : BudgetField)
    (below : Option String) (usage : ResourceUsage) :
    accounts.reservedBudgetValue owner field (below.map (·, usage)) =
      accounts.reservedBudgetValue owner field none - accounts.heldBelow owner field below +
        max 0 (accounts.heldBelow owner field below - usage.total field) := by
  have nonneg := usage.total_nonneg field
  cases below with
  | none => simp [heldBelow, nonneg]
  | some child =>
      have change := Table.sum_change accounts.reservations
        (fun key row => if key.1 = owner then rowHeld field (some (child, usage)) key.2 row else 0)
        (fun key row => if key.1 = owner then rowHeld field none key.2 row else 0)
        (owner, child) fun key row other => by
          by_cases mine : key.1 = owner
          · have : key.2 ≠ child := fun same => other (Prod.ext mine same)
            simp [rowHeld, this]
          · simp [mine]
      rw [heldAfter_at, heldAfter_at, if_pos rfl, if_pos rfl, heldAfter_some, if_pos rfl,
        heldAfter_none] at change
      simp only [Option.map_some, heldBelow]
      unfold reservedBudgetValue
      linarith

/-- One process admits a use of one counter while it is not overdrawn, up to its free budget and
what it holds for the process below. -/
theorem firstExceeded_single {field : BudgetField} {counter : UsageField}
    (cumulative : reservable field = true) (sole : budgetUsageMap field = [counter]) {amount : ℚ}
    (positive : 0 < amount) (owner : String) (below : Option String) :
    accounts.firstExceeded forest owner
        ((accounts.usage owner).merge (.single counter amount positive.le))
        (.single counter amount positive.le) below = none ↔
      ∀ limit, (forest.budget owner).limit field = some limit →
        0 ≤ limit - accounts.committed forest owner field ∧
          amount ≤ limit - accounts.committed forest owner field +
            accounts.heldBelow owner field below := by
  have held := accounts.heldBelow_nonneg owner field below
  rw [firstExceeded_eq_none]
  have touched : (ResourceUsage.single counter amount positive.le).touches field = true := by
    simp [ResourceUsage.touches, sole, ResourceUsage.single, positive.ne']
  have bound : ∀ limit,
      (((accounts.usage owner).merge (.single counter amount positive.le)).total field +
          accounts.reservedBudgetValue owner field
            (below.map (·, ResourceUsage.single counter amount positive.le)) +
          accounts.reservedUsageValue forest owner field ≤ limit ↔
        0 ≤ limit - accounts.committed forest owner field ∧
          amount ≤ limit - accounts.committed forest owner field +
            accounts.heldBelow owner field below) := by
    intro limit
    rw [ResourceUsage.total_merge cumulative, reservedBudgetValue_consuming, total_single sole]
    unfold committed
    rcases le_total (accounts.heldBelow owner field below) amount with beyond | within
    · rw [max_eq_left (by linarith)]
      constructor
      · intro fits
        constructor <;> linarith
      · rintro ⟨-, fits⟩
        linarith
    · rw [max_eq_right (by linarith)]
      constructor
      · intro fits
        constructor <;> linarith
      · rintro ⟨free, -⟩
        linarith
  constructor
  · intro fine limit limited
    have := fine field limit touched limited
    rw [if_pos cumulative] at this
    exact (bound limit).mp this
  · intro fine other limit moved limited
    obtain rfl := touches_single sole positive.le moved
    rw [if_pos cumulative]
    exact (bound limit).mpr (fine limit limited)

/-! ## Free budget along the chain -/

/-- The free budget of a process that limits the field; negative once overdrawn. -/
def free (forest : ProcessForest) (accounts : Accounts) (field : BudgetField) (pid : String) :
    Option ℚ :=
  ((forest.budget pid).limit field).map fun limit => limit - accounts.committed forest pid field

/-- The processes of a chain that limit the field, with what each leaves and what it holds for
the process below it on the chain. -/
structure Limits (forest : ProcessForest) (accounts : Accounts) (pid : String)
    (field : BudgetField) (owner : String) (slack held : ℚ) : Prop where
  free : accounts.free forest field owner = some slack
  below : ∃ position, belowOwner owner none (forest.chain pid) = some position ∧
    accounts.heldBelow owner field position = held

theorem Limits.held_nonneg {pid owner : String} {field : BudgetField} {slack held : ℚ}
    (limits : accounts.Limits forest pid field owner slack held) : 0 ≤ held := by
  obtain ⟨position, -, rfl⟩ := limits.below
  exact accounts.heldBelow_nonneg owner field position

theorem Limits.mem {pid owner : String} {field : BudgetField} {slack held : ℚ}
    (limits : accounts.Limits forest pid field owner slack held) :
    owner ∈ forest.chain pid := by
  obtain ⟨position, found, -⟩ := limits.below
  exact belowOwner_isSome.mp (Option.isSome_of_eq_some found)

theorem limits_of_free {pid owner : String} {field : BudgetField} {slack : ℚ}
    (member : owner ∈ forest.chain pid) (free : accounts.free forest field owner = some slack) :
    ∃ held, accounts.Limits forest pid field owner slack held := by
  obtain ⟨position, found⟩ := Option.isSome_iff_exists.mp
    ((@belowOwner_isSome _ _ _ none).mpr member)
  exact ⟨_, free, position, found, rfl⟩

theorem preflight_single_iff {pid : String} (known : pid ∈ forest.pids) {field : BudgetField}
    {counter : UsageField} (cumulative : reservable field = true)
    (sole : budgetUsageMap field = [counter]) {amount : ℚ} (positive : 0 < amount) :
    accounts.preflight forest pid (.single counter amount positive.le) = .ok () ↔
      ∀ owner slack held, accounts.Limits forest pid field owner slack held →
        0 ≤ slack ∧ amount ≤ slack + held := by
  have some_use : (ResourceUsage.single counter amount positive.le).isZero = false := by
    rw [ResourceUsage.isZero, List.all_eq_false]
    exact ⟨counter, mem_usageFields counter, by simp [ResourceUsage.single, positive.ne']⟩
  rw [preflight, some_use, preflightLocked, if_pos known, if_neg (by simp),
    preflightChain_ok_iff]
  simp only [firstExceeded_single cumulative sole positive]
  constructor
  · rintro fine owner slack held ⟨spare, position, found, rfl⟩
    obtain ⟨limit, limited, rfl⟩ := Option.map_eq_some_iff.mp spare
    exact fine owner position found limit limited
  · intro fine owner position found limit limited
    exact fine owner _ _ ⟨by rw [free, limited, Option.map_some], position, found, rfl⟩

theorem preflight_nothing (pid : String) (counter : UsageField) :
    accounts.preflight forest pid (.single counter 0 le_rfl) = .ok () := by
  have nothing : (ResourceUsage.single counter 0 le_rfl).isZero = true := by
    simp [ResourceUsage.isZero, ResourceUsage.single]
  rw [preflight, if_pos nothing]

theorem exists_least {pid : String} {field : BudgetField} (weight : ℚ → ℚ → ℚ)
    (limited : ∃ owner ∈ forest.chain pid, ∃ limit, (forest.budget owner).limit field = some limit) :
    ∃ owner slack held, accounts.Limits forest pid field owner slack held ∧
      ∀ owner' slack' held', accounts.Limits forest pid field owner' slack' held' →
        weight slack held ≤ weight slack' held' := by
  let heldAt := fun owner =>
    accounts.heldBelow owner field ((belowOwner owner none (forest.chain pid)).getD none)
  let weights := (forest.chain pid).filterMap fun owner =>
    (accounts.free forest field owner).map fun slack => weight slack (heldAt owner)
  have heldAt_eq : ∀ {owner slack held}, accounts.Limits forest pid field owner slack held →
      heldAt owner = held := by
    rintro owner slack held ⟨-, position, found, rfl⟩
    simp only [heldAt, found, Option.getD_some]
  have listed : ∀ {owner slack held}, accounts.Limits forest pid field owner slack held →
      weight slack held ∈ weights := by
    intro owner slack held limits
    refine List.mem_filterMap.mpr ⟨owner, limits.mem, ?_⟩
    rw [limits.free, Option.map_some, heldAt_eq limits]
  obtain ⟨least, found⟩ : ∃ least, weights.min? = some least := by
    obtain ⟨owner, member, limit, limited⟩ := limited
    obtain ⟨held, limits⟩ := @limits_of_free _ accounts _ _ _ _ member
      (by rw [free, limited, Option.map_some])
    refine Option.isSome_iff_exists.mp (List.isSome_min?_of_mem (listed limits))
  obtain ⟨attained, bound⟩ := List.min?_eq_some_iff.mp found
  obtain ⟨owner, member, same⟩ := List.mem_filterMap.mp attained
  obtain ⟨slack, spare, rfl⟩ := Option.map_eq_some_iff.mp same
  obtain ⟨held, limits⟩ := limits_of_free member spare
  refine ⟨owner, slack, held, limits, fun owner' slack' held' limits' => ?_⟩
  rw [← heldAt_eq limits]
  exact bound _ (listed limits')

/-! ## The reported remaining budget -/

theorem processRemaining_eq {field : BudgetField} (cumulative : reservable field = true)
    {usage : ResourceUsage} {owner : String}
    (same : usage.total field = (accounts.usage owner).total field) :
    accounts.processRemaining forest usage owner field =
      (accounts.free forest field owner).map (max 0) := by
  rw [processRemaining, if_pos cumulative, free, Option.map_map, same]
  rfl

/-- Both queries report the least free budget of the chain, never less than zero. -/
theorem remaining_eq {pid : String} (known : pid ∈ forest.pids) {field : BudgetField}
    (cumulative : reservable field = true) :
    accounts.remainingCumulative forest pid field = accounts.remainingBudgets forest pid field ∧
      accounts.remainingBudgets forest pid field =
        .ok ((forest.chain pid).filterMap fun owner =>
          (accounts.free forest field owner).map (max 0)).min? := by
  have summed : field ≠ .maxSubprocessMemoryBytes := by
    rintro rfl
    simp [reservable] at cumulative
  rw [remainingCumulative, remainingBudgets, if_pos known, if_pos known, if_neg summed,
    remainingBudgetField]
  have merged : (fun owner => accounts.processRemaining forest
      ((accounts.usage owner).merge .zero) owner field) =
        fun owner => (accounts.free forest field owner).map (max 0) :=
    funext fun owner => processRemaining_eq cumulative (by
      rw [ResourceUsage.total_merge cumulative, ResourceUsage.total_zero, add_zero])
  have plain : (fun owner => accounts.processRemaining forest (accounts.usage owner) owner field) =
      fun owner => (accounts.free forest field owner).map (max 0) :=
    funext fun owner => processRemaining_eq cumulative rfl
  rw [merged, plain]
  exact ⟨rfl, rfl⟩

theorem remaining_least {pid owner : String} {field : BudgetField} {slack held : ℚ}
    (limits : accounts.Limits forest pid field owner slack held)
    (least : ∀ owner' slack' held', accounts.Limits forest pid field owner' slack' held' →
      slack ≤ slack') :
    ((forest.chain pid).filterMap fun owner =>
      (accounts.free forest field owner).map (max 0)).min? = some (max 0 slack) := by
  rw [List.min?_eq_some_iff]
  constructor
  · exact List.mem_filterMap.mpr ⟨owner, limits.mem, by rw [limits.free, Option.map_some]⟩
  · intro value listed
    obtain ⟨owner', member, same⟩ := List.mem_filterMap.mp listed
    obtain ⟨slack', spare, rfl⟩ := Option.map_eq_some_iff.mp same
    obtain ⟨held', limits'⟩ := limits_of_free member spare
    exact max_le_max le_rfl (least owner' slack' held' limits')

/-- What is reported is the largest amount admitted. -/
def ReportsAdmission (forest : ProcessForest) (accounts : Accounts) (pid : String)
    (field : BudgetField) (counter : UsageField) : Prop :=
  ∃ remaining, accounts.remainingCumulative forest pid field = .ok (some remaining) ∧
    accounts.remainingBudgets forest pid field = .ok (some remaining) ∧
    ∀ amount (nonneg : 0 ≤ amount),
      accounts.preflight forest pid (.single counter amount nonneg) = .ok () ↔ amount ≤ remaining

/-- A process of the chain with the least free budget holds nothing for the process below it, or
is overdrawn. -/
def LeastUnheld (forest : ProcessForest) (accounts : Accounts) (pid : String)
    (field : BudgetField) : Prop :=
  ∃ owner slack held, accounts.Limits forest pid field owner slack held ∧
    (held = 0 ∨ slack < 0) ∧
    ∀ owner' slack' held', accounts.Limits forest pid field owner' slack' held' → slack ≤ slack'

theorem LeastUnheld.admits {pid : String} (known : pid ∈ forest.pids) {field : BudgetField}
    {counter : UsageField} (cumulative : reservable field = true)
    (sole : budgetUsageMap field = [counter]) {owner : String} {slack held : ℚ}
    (limits : accounts.Limits forest pid field owner slack held) (unheld : held = 0 ∨ slack < 0)
    (least : ∀ owner' slack' held', accounts.Limits forest pid field owner' slack' held' →
      slack ≤ slack') {amount : ℚ} (positive : 0 < amount) :
    accounts.preflight forest pid (.single counter amount positive.le) = .ok () ↔
      amount ≤ max 0 slack := by
  rw [preflight_single_iff known cumulative sole positive, le_max_iff]
  constructor
  · intro fine
    obtain ⟨free, fits⟩ := fine owner slack held limits
    rcases unheld with rfl | overdrawn
    · exact Or.inr (by linarith)
    · exact absurd free (not_le.mpr overdrawn)
  · rintro (nothing | fits) owner' slack' held' limits'
    · exact absurd nothing (not_le.mpr positive)
    · have := least owner' slack' held' limits'
      have := limits'.held_nonneg
      constructor <;> linarith

end Accounts
end AgentLibOS.Resources
