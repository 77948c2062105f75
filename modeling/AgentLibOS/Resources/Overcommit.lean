import AgentLibOS.Resources.Committed

namespace AgentLibOS.Resources
open Library ProcessForest

namespace Accounts
variable {forest : ProcessForest} {accounts : Accounts}

/-! ## The invariant -/

/-- Every reservation belongs to a child and covers the rest of the child's own limit. The child
`ahead` is charged already, its parent's reservation for it not yet consumed. -/
def Backed (forest : ProcessForest) (accounts : Accounts) (delta : ResourceUsage)
    (ahead : Option String) : Prop :=
  ∀ pid child field, accounts.reserved pid child field ≠ 0 →
    reservable field = true ∧ forest.parent child = some pid ∧
      ∃ limit, (forest.budget child).limit field = some limit ∧
        limit + (if ahead = some child then delta.total field else 0) ≤
          accounts.reserved pid child field + (accounts.usage child).total field

def Within (forest : ProcessForest) (accounts : Accounts) (pid : String) : Prop :=
  ∀ field limit, reservable field = true → (forest.budget pid).limit field = some limit →
    accounts.committed forest pid field ≤ limit

structure Sound (forest : ProcessForest) (accounts : Accounts) (delta : ResourceUsage)
    (ahead : Option String) : Prop where
  within : ∀ pid, accounts.Within forest pid
  backed : accounts.Backed forest delta ahead

theorem Backed.known {delta : ResourceUsage} {ahead : Option String}
    (backed : accounts.Backed forest delta ahead) : accounts.Scoped forest :=
  fun pid child field held => (backed pid child field held).2.1

/-- A child's reservation exceeds the active usage of its tree, by the use still to be consumed. -/
theorem Backed.envelope_le_reserved {delta : ResourceUsage} {ahead : Option String}
    (backed : accounts.Backed forest delta ahead) {pid child : String} {field : BudgetField}
    (within : accounts.Within forest child) (held : accounts.reserved pid child field ≠ 0) :
    accounts.envelope forest child field + (if ahead = some child then delta.total field else 0) ≤
      accounts.reserved pid child field := by
  obtain ⟨cumulative, -, limit, bound, covers⟩ := backed pid child field held
  have inside := within field limit cumulative bound
  have tree := usage_add_envelope_le backed.known child field
  linarith

/-! ## What the checks compare -/

theorem firstExceeded_eq_none {pid : String} {usage delta : ResourceUsage} {below : Option String} :
    accounts.firstExceeded forest pid usage delta below = none ↔
      ∀ field limit, delta.touches field = true → (forest.budget pid).limit field = some limit →
        (if reservable field then
          usage.total field + accounts.reservedBudgetValue pid field (below.map (·, delta)) +
            accounts.reservedUsageValue forest pid field
        else usage.total field) ≤ limit := by
  unfold firstExceeded
  rw [List.findSome?_eq_none_iff]
  constructor
  · intro fine field limit touched bound
    have := fine field (mem_budgetFields field)
    rw [bound] at this
    simpa [touched] using this
  · intro fine field _
    cases touched : delta.touches field with
    | false => simp
    | true =>
        cases bound : (forest.budget pid).limit field with
        | none => simp
        | some limit => simpa using fine field limit touched bound

/-- The tables agree on everything the checks of `pid` read. -/
structure SameAt (pid : String) (left right : Accounts) : Prop where
  usage : left.usage pid = right.usage pid
  held : ∀ child, left.reservations.get (pid, child) = right.reservations.get (pid, child)
  active : left.usageReservations = right.usageReservations

namespace SameAt
variable {pid : String} {left right : Accounts}

theorem reserved (same : SameAt pid left right) (child : String) (field : BudgetField) :
    left.reserved pid child field = right.reserved pid child field := by
  simp only [Accounts.reserved, Table.at_, same.held]

theorem reservedBudgetValue (same : SameAt pid left right) (field : BudgetField)
    (consuming : Option (String × ResourceUsage)) :
    left.reservedBudgetValue pid field consuming =
      right.reservedBudgetValue pid field consuming := by
  refine Table.sum_ext fun key => ?_
  obtain ⟨owner, child⟩ := key
  rw [heldAfter_at, heldAfter_at]
  split_ifs
  · simp only [heldAfter, Table.at_, same.held]
  · rfl

theorem reservedUsageValue (same : SameAt pid left right) (field : BudgetField) :
    left.reservedUsageValue forest pid field = right.reservedUsageValue forest pid field := by
  simp only [Accounts.reservedUsageValue, activeUsage, same.active, same.reserved]

theorem committed (same : SameAt pid left right) (field : BudgetField) :
    left.committed forest pid field = right.committed forest pid field := by
  simp only [Accounts.committed, same.usage, same.reservedBudgetValue, same.reservedUsageValue]

theorem firstExceeded (same : SameAt pid left right) (usage delta : ResourceUsage)
    (below : Option String) : left.firstExceeded forest pid usage delta below =
      right.firstExceeded forest pid usage delta below := by
  simp only [Accounts.firstExceeded, same.reservedBudgetValue, same.reservedUsageValue]

end SameAt

theorem preflightChain_congr {left right : Accounts} {usage : ResourceUsage} {pids : List String}
    (same : ∀ pid ∈ pids, SameAt pid left right) (below : Option String) :
    left.preflightChain forest usage below pids = right.preflightChain forest usage below pids := by
  induction pids generalizing below with
  | nil => rfl
  | cons pid rest ih =>
      have here := same pid List.mem_cons_self
      simp only [preflightChain, here.usage, here.firstExceeded,
        ih (fun pid' member => same pid' (List.mem_cons_of_mem _ member))]

theorem preflightChain_cons {usage : ResourceUsage} {below : Option String} {pid : String}
    {rest : List String}
    (admitted : accounts.preflightChain forest usage below (pid :: rest) = .ok ()) :
    accounts.firstExceeded forest pid ((accounts.usage pid).merge usage) usage below = none ∧
      accounts.preflightChain forest usage (some pid) rest = .ok () := by
  rw [preflightChain] at admitted
  split at admitted
  · cases admitted
  · exact ⟨by assumption, admitted⟩

/-! ## One round of a charge -/

theorem sub_min_eq (held used : ℚ) : held - min held used = max 0 (held - used) := by
  rcases le_total held used with h | h
  · rw [min_eq_left h, max_eq_left (by linarith), sub_self]
  · rw [min_eq_right h, max_eq_right (by linarith)]

theorem reserved_consume (accounts : Accounts) (pid child : String) (delta : ResourceUsage)
    (owner other : String) (field : BudgetField) :
    (accounts.consumeReservation pid child delta).reserved owner other field =
      if (owner, other) = (pid, child) ∧ reservable field = true then
        max 0 (accounts.reserved owner other field - delta.total field)
      else accounts.reserved owner other field := by
  have nonneg := accounts.reserved_nonneg owner other field
  unfold consumeReservation
  cases stored : accounts.reservations.get (pid, child) with
  | none =>
      split_ifs with hit
      · have empty : accounts.reserved owner other field = 0 := by
          simp [reserved, Table.at_, hit.1, stored]
        have := delta.total_nonneg field
        simp [empty, this]
      · rfl
  | some row =>
      simp only [reserved, Table.at_set]
      by_cases key : (owner, other) = (pid, child)
      · have here : accounts.reserved owner other field = row.reserved field := by
          simp [reserved, Table.at_, key, stored]
        rw [here] at nonneg
        simp only [reserved] at here
        rw [if_pos key, here]
        by_cases cumulative : reservable field = true
        · cases touched : delta.touches field with
          | true => simp [cumulative, key, sub_min_eq]
          | false =>
              have zero := (delta.touches_iff field).mp touched
              simp [cumulative, key, zero, nonneg]
        · simp [cumulative]
      · simp [key]

theorem consume_usage (accounts : Accounts) (pid child : String) (delta : ResourceUsage) :
    (accounts.consumeReservation pid child delta).usage = accounts.usage := by
  unfold consumeReservation
  split <;> rfl

theorem consume_active (accounts : Accounts) (pid child : String) (delta : ResourceUsage) :
    (accounts.consumeReservation pid child delta).usageReservations =
      accounts.usageReservations := by
  unfold consumeReservation
  split <;> rfl

/-- The accounts one round leaves. -/
def chargedAt (accounts : Accounts) (delta : ResourceUsage) (below : Option String) (pid : String) :
    Accounts :=
  match below with
  | none => accounts.setUsage pid ((accounts.usage pid).merge delta)
  | some child =>
      (accounts.setUsage pid ((accounts.usage pid).merge delta)).consumeReservation pid child delta

theorem chargeProcess_eq (delta : ResourceUsage) (below : Option String) (pid : String) :
    accounts.chargeProcess forest delta below pid =
      (accounts.chargedAt delta below pid,
        ((accounts.chargedAt delta below pid).firstExceeded forest pid
          ((accounts.chargedAt delta below pid).usage pid) delta none).map (pid, ·)) := by
  cases below <;> rfl

section Round
variable (accounts : Accounts) (delta : ResourceUsage) (below : Option String) (pid : String)

theorem chargedAt_usage (other : String) :
    (accounts.chargedAt delta below pid).usage other =
      if other = pid then (accounts.usage pid).merge delta else accounts.usage other := by
  cases below <;> simp [chargedAt, consume_usage, setUsage]

theorem chargedAt_active :
    (accounts.chargedAt delta below pid).usageReservations = accounts.usageReservations := by
  cases below <;> simp [chargedAt, consume_active, setUsage]

theorem chargedAt_reserved (owner other : String) (field : BudgetField) :
    (accounts.chargedAt delta below pid).reserved owner other field =
      if owner = pid ∧ below = some other ∧ reservable field = true then
        max 0 (accounts.reserved owner other field - delta.total field)
      else accounts.reserved owner other field := by
  cases below with
  | none => simp [chargedAt, setUsage, reserved]
  | some child =>
      simp only [chargedAt, reserved_consume]
      simp only [Prod.mk.injEq, Option.some.injEq, and_assoc, eq_comm (a := child)]
      rfl

theorem chargedAt_same {other : String} (different : other ≠ pid) :
    SameAt other (accounts.chargedAt delta below pid) accounts := by
  refine ⟨by simp [chargedAt_usage, different], fun child => ?_, chargedAt_active ..⟩
  cases below with
  | none => rfl
  | some below =>
      have key : (other, child) ≠ (pid, below) := fun same => different (congrArg Prod.fst same)
      simp only [chargedAt, consumeReservation]
      split
      · rfl
      · simp [key, setUsage]

end Round

theorem chargedAt_held {delta : ResourceUsage} {below : Option String} {pid owner other : String}
    {field : BudgetField}
    (held : (accounts.chargedAt delta below pid).reserved owner other field ≠ 0) :
    accounts.reserved owner other field ≠ 0 := by
  intro nothing
  have := delta.total_nonneg field
  rw [chargedAt_reserved] at held
  split_ifs at held
  · simp [nothing, this] at held
  · exact held nothing

theorem chargedAt_heldAfter (delta : ResourceUsage) (below : Option String) (pid child : String)
    {field : BudgetField} (cumulative : reservable field = true) :
    (accounts.chargedAt delta below pid).reserved pid child field =
      accounts.heldAfter pid child field (below.map (·, delta)) := by
  rw [chargedAt_reserved]
  cases below with
  | none => simp
  | some c => simp [heldAfter_some, cumulative, eq_comm]

/-- Active usage beyond a child's reservation does not grow when the reservation is consumed: a
child that still has one keeps its active usage within it. -/
theorem chargedAt_beyond {delta : ResourceUsage} {below : Option String} {pid : String}
    (sound : accounts.Sound forest delta below) (child : String) (field : BudgetField) :
    max 0 (accounts.activeUsage forest pid field (fun b => b = some child) -
        (accounts.chargedAt delta below pid).reserved pid child field) ≤
      max 0 (accounts.activeUsage forest pid field (fun b => b = some child) -
        accounts.reserved pid child field) := by
  rw [chargedAt_reserved]
  split_ifs with consumed
  · by_cases held : accounts.reserved pid child field = 0
    · have := delta.total_nonneg field
      simp [held, this]
    · have covered := sound.backed.envelope_le_reserved (sound.within child) held
      rw [if_pos consumed.2.1] at covered
      have link := (sound.backed pid child field held).2.1
      rw [activeUsage_child field link]
      refine max_le (le_max_left _ _) (le_max_of_le_left ?_)
      have := le_max_right 0 (accounts.reserved pid child field - delta.total field)
      linarith
  · exact le_rfl

/-- What a round leaves committed is at most what admission compared with the limit. -/
theorem chargedAt_committed {delta : ResourceUsage} {below : Option String} {pid : String}
    (sound : accounts.Sound forest delta below) {field : BudgetField}
    (cumulative : reservable field = true) :
    (accounts.chargedAt delta below pid).committed forest pid field ≤
      ((accounts.usage pid).merge delta).total field +
        accounts.reservedBudgetValue pid field (below.map (·, delta)) +
        accounts.reservedUsageValue forest pid field := by
  have known' : (accounts.chargedAt delta below pid).Scoped forest :=
    fun owner child field held => sound.backed.known owner child field (chargedAt_held held)
  have usage : (accounts.chargedAt delta below pid).usage pid = (accounts.usage pid).merge delta := by
    simp [chargedAt_usage]
  have budget : (accounts.chargedAt delta below pid).reservedBudgetValue pid field none =
      accounts.reservedBudgetValue pid field (below.map (·, delta)) := by
    rw [reservedBudgetValue_eq known', reservedBudgetValue_eq sound.backed.known]
    exact Finset.sum_congr rfl fun child _ => chargedAt_heldAfter delta below pid child cumulative
  have active : (accounts.chargedAt delta below pid).reservedUsageValue forest pid field ≤
      accounts.reservedUsageValue forest pid field := by
    simp only [reservedUsageValue, activeUsage, chargedAt_active]
    refine add_le_add_right (Finset.sum_le_sum fun child _ => ?_) _
    exact chargedAt_beyond sound child field
  rw [committed, usage, budget]
  linarith

theorem chargedAt_untouched {delta : ResourceUsage} {below : Option String} {pid : String}
    (sound : accounts.Sound forest delta below) {field : BudgetField}
    (cumulative : reservable field = true) (untouched : delta.touches field = false) :
    (accounts.chargedAt delta below pid).committed forest pid field ≤
      accounts.committed forest pid field := by
  have zero := (delta.touches_iff field).mp untouched
  have budget : accounts.reservedBudgetValue pid field (below.map (·, delta)) =
      accounts.reservedBudgetValue pid field none := by
    rw [reservedBudgetValue_eq sound.backed.known, reservedBudgetValue_eq sound.backed.known]
    refine Finset.sum_congr rfl fun child _ => ?_
    have := accounts.reserved_nonneg pid child field
    cases below with
    | none => rfl
    | some c => simp [heldAfter_some, zero, this]
  have bound := @chargedAt_committed _ _ _ _ pid sound _ cumulative
  rw [budget, ResourceUsage.total_merge cumulative, zero, add_zero] at bound
  exact bound

theorem chargedAt_backed {delta : ResourceUsage} {below : Option String} {pid : String}
    (backed : accounts.Backed forest delta below)
    (link : ∀ c, below = some c → forest.parent c = some pid) :
    (accounts.chargedAt delta below pid).Backed forest delta (some pid) := by
  intro owner child field held
  obtain ⟨cumulative, above, limit, bound, covers⟩ := backed owner child field (chargedAt_held held)
  refine ⟨cumulative, above, limit, bound, ?_⟩
  have nonneg := delta.total_nonneg field
  have ahead : 0 ≤ if below = some child then delta.total field else 0 := by
    split_ifs
    · exact nonneg
    · exact le_rfl
  rw [chargedAt_reserved, chargedAt_usage]
  by_cases here : child = pid
  · have shallower := (forest.linked child owner above).2.2
    have elsewhere : owner ≠ pid := by
      rintro rfl
      simp [here] at shallower
    rw [if_pos (by rw [here]), if_neg (fun h => elsewhere h.1), if_pos here,
      ResourceUsage.total_merge cumulative, ← here]
    linarith
  · rw [if_neg (Ne.symm here ∘ Option.some.inj), if_neg here]
    by_cases consumed : below = some child
    · have same : owner = pid := Option.some.inj (above.symm.trans (link child consumed))
      rw [if_pos consumed] at covers
      rw [if_pos ⟨same, consumed, cumulative⟩]
      have := le_max_right 0 (accounts.reserved owner child field - delta.total field)
      linarith
    · rw [if_neg (fun h => consumed h.2.1)]
      linarith

/-- One round keeps the accounts sound, and the check after it finds nothing. -/
theorem chargeProcess_sound {delta : ResourceUsage} {below : Option String} {pid : String}
    (sound : accounts.Sound forest delta below)
    (link : ∀ c, below = some c → forest.parent c = some pid)
    (admitted : accounts.firstExceeded forest pid ((accounts.usage pid).merge delta) delta below =
      none) :
    (accounts.chargedAt delta below pid).Sound forest delta (some pid) ∧
      (accounts.chargedAt delta below pid).firstExceeded forest pid
        ((accounts.chargedAt delta below pid).usage pid) delta none = none := by
  rw [firstExceeded_eq_none] at admitted
  have here : ∀ field limit, delta.touches field = true → reservable field = true →
      (forest.budget pid).limit field = some limit →
      (accounts.chargedAt delta below pid).committed forest pid field ≤ limit := by
    intro field limit touched cumulative bound
    have := admitted field limit touched bound
    rw [if_pos cumulative] at this
    exact (chargedAt_committed sound cumulative).trans this
  refine ⟨⟨fun other field limit cumulative bound => ?_, chargedAt_backed sound.backed link⟩, ?_⟩
  · by_cases same : other = pid
    · subst same
      cases touched : delta.touches field with
      | true => exact here field limit touched cumulative bound
      | false =>
          exact (chargedAt_untouched sound cumulative touched).trans
            (sound.within other field limit cumulative bound)
    · rw [(chargedAt_same accounts delta below pid same).committed]
      exact sound.within other field limit cumulative bound
  · rw [firstExceeded_eq_none]
    intro field limit touched bound
    by_cases cumulative : reservable field = true
    · have := here field limit touched cumulative bound
      simpa [cumulative, committed] using this
    · have := admitted field limit touched bound
      simpa [cumulative, chargedAt_usage] using this

theorem Sound.settle_ahead {delta other : ResourceUsage} {ahead : Option String}
    (sound : accounts.Sound forest delta ahead) : accounts.Sound forest other none := by
  refine ⟨sound.within, fun pid child field held => ?_⟩
  obtain ⟨cumulative, above, limit, bound, covers⟩ := sound.backed pid child field held
  refine ⟨cumulative, above, limit, bound, ?_⟩
  have nonneg := delta.total_nonneg field
  have : (0 : ℚ) ≤ if ahead = some child then delta.total field else 0 := by
    split_ifs
    · exact nonneg
    · exact le_rfl
  simp only [reduceCtorEq, if_false, add_zero]
  linarith

/-- A charge that admission lets through never finds a limit exceeded afterwards. -/
theorem chargeChain_sound {delta : ResourceUsage} (pid : String) {accounts : Accounts}
    {below : Option String} (sound : accounts.Sound forest delta below)
    (link : ∀ c, below = some c → forest.parent c = some pid)
    (admitted : accounts.preflightChain forest delta below (forest.chain pid) = .ok ()) :
    ∃ charged, chargeChain forest delta accounts below (forest.chain pid) = (charged, none) ∧
      charged.Sound forest .zero none := by
  induction pid using chain_induction forest generalizing accounts below with
  | root pid above =>
      rw [chain_root above] at admitted ⊢
      obtain ⟨sound', clear⟩ := chargeProcess_sound sound link (preflightChain_cons admitted).1
      exact ⟨accounts.chargedAt delta below pid,
        by simp [chargeChain, chargeProcess_eq, clear], sound'.settle_ahead⟩
  | child pid parent above ih =>
      rw [chain_child above] at admitted ⊢
      obtain ⟨here, further⟩ := preflightChain_cons admitted
      obtain ⟨sound', clear⟩ := chargeProcess_sound sound link here
      have elsewhere : ∀ other ∈ forest.chain parent,
          SameAt other (accounts.chargedAt delta below pid) accounts := by
        intro other member
        refine chargedAt_same accounts delta below pid ?_
        rintro rfl
        exact not_mem_chain_parent above member
      rw [← preflightChain_congr elsewhere] at further
      obtain ⟨charged, run, final⟩ := ih sound' (fun c same => by
        obtain rfl : pid = c := Option.some.inj same
        exact above) further
      exact ⟨charged, by simp [chargeChain, chargeProcess_eq, clear, run], final⟩

end Accounts
end AgentLibOS.Resources
