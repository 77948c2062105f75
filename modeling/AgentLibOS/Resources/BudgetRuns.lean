import AgentLibOS.Resources.Overcommit

namespace AgentLibOS.Resources
open Library ProcessForest

namespace Accounts
variable {forest : ProcessForest} {accounts : Accounts}

/-! ## Charges -/

theorem preflightLocked_ok {pid : String} {usage : ResourceUsage}
    (admitted : accounts.preflightLocked forest pid usage = .ok ()) :
    pid ∈ forest.pids ∧ accounts.preflightChain forest usage none (forest.chain pid) = .ok () := by
  unfold preflightLocked at admitted
  split_ifs at admitted with known
  exact ⟨known, admitted⟩

/-- In sound accounts a charge either goes through or is refused with nothing changed. -/
theorem charge_sound (sound : accounts.Sound forest .zero none) (pid : String)
    (delta : ResourceUsage) (killOnExceed : Bool) :
    (∃ charged, accounts.charge forest pid delta killOnExceed = .done charged ∧
        charged.Sound forest .zero none) ∨
      ∃ err, accounts.charge forest pid delta killOnExceed = .raised err accounts := by
  unfold charge
  by_cases zero : delta.isZero = true
  · rw [if_pos zero]
    exact Or.inl ⟨accounts, rfl, sound⟩
  · rw [if_neg zero]
    cases admitted : accounts.preflightLocked forest pid delta with
    | error err => exact Or.inr ⟨err, rfl⟩
    | ok _ =>
        obtain ⟨-, chain⟩ := preflightLocked_ok admitted
        obtain ⟨charged, run, final⟩ := chargeChain_sound pid
          (@Sound.settle_ahead _ _ _ delta _ sound) (by simp) chain
        exact Or.inl ⟨charged, by simp [run], final⟩

/-! ## Usage reservations -/

/-- Accounts that differ in their usage reservations only. -/
structure SameBooks (left right : Accounts) : Prop where
  usage : left.usage = right.usage
  reservations : left.reservations = right.reservations

theorem SameBooks.reserved {left right : Accounts} (same : SameBooks left right)
    (pid child : String) (field : BudgetField) :
    left.reserved pid child field = right.reserved pid child field := by
  simp only [Accounts.reserved, same.reservations]

theorem SameBooks.backed {left right : Accounts} (same : SameBooks left right)
    (backed : right.Backed forest .zero none) : left.Backed forest .zero none := by
  intro pid child field
  rw [same.reserved, same.usage]
  exact backed pid child field

/-- The accounts with one more usage reservation. -/
def withReservation (accounts : Accounts) (id : String) (row : ResourceUsageReservation) :
    Accounts :=
  { accounts with usageReservations := accounts.usageReservations.set id row }

theorem withReservation_same (id : String) (row : ResourceUsageReservation) :
    SameBooks (accounts.withReservation id row) accounts := ⟨rfl, rfl⟩

section Fresh
variable {id : String} {row : ResourceUsageReservation}

theorem envelope_fresh (fresh : accounts.usageReservations.get id = none)
    (active : row.status = .active) (pid : String) (field : BudgetField) :
    (accounts.withReservation id row).envelope forest pid field = accounts.envelope forest pid field +
      if pid ∈ forest.chain row.pid then row.usage.total field else 0 := by
  have exchange := Table.sum_set accounts.usageReservations (fun _ row =>
    if row.status = .active ∧ pid ∈ forest.chain row.pid then row.usage.total field else 0) id row
  simp only [Table.at_, fresh, Option.elim_none, add_zero, active, true_and] at exchange
  exact exchange

theorem ownEnvelope_fresh (fresh : accounts.usageReservations.get id = none)
    (active : row.status = .active) (pid : String) (field : BudgetField) :
    (accounts.withReservation id row).ownEnvelope pid field = accounts.ownEnvelope pid field +
      if row.pid = pid then row.usage.total field else 0 := by
  have exchange := Table.sum_set accounts.usageReservations (fun _ row =>
    if row.status = .active ∧ row.pid = pid then row.usage.total field else 0) id row
  simp only [Table.at_, fresh, Option.elim_none, add_zero, active, true_and] at exchange
  exact exchange

/-- Settling a reservation takes its usage out of every envelope. -/
theorem envelope_settled (inactive : row.status ≠ .active) (pid : String) (field : BudgetField) :
    (accounts.withReservation id row).envelope forest pid field ≤
      accounts.envelope forest pid field := by
  have exchange := Table.sum_set accounts.usageReservations (fun _ row =>
    if row.status = .active ∧ pid ∈ forest.chain row.pid then row.usage.total field else 0) id row
  have old : 0 ≤ accounts.usageReservations.at_ (fun _ row =>
      if row.status = .active ∧ pid ∈ forest.chain row.pid then row.usage.total field else 0) id := by
    unfold Table.at_
    cases accounts.usageReservations.get id with
    | none => exact le_rfl
    | some old =>
        simp only [Option.elim_some]
        split_ifs
        · exact old.usage.total_nonneg field
        · exact le_rfl
  simp only [inactive, false_and, if_false, add_zero] at exchange
  rw [envelope, envelope, withReservation]
  linarith

theorem ownEnvelope_settled (inactive : row.status ≠ .active) (pid : String)
    (field : BudgetField) :
    (accounts.withReservation id row).ownEnvelope pid field ≤ accounts.ownEnvelope pid field := by
  have exchange := Table.sum_set accounts.usageReservations (fun _ row =>
    if row.status = .active ∧ row.pid = pid then row.usage.total field else 0) id row
  have old : 0 ≤ accounts.usageReservations.at_ (fun _ row =>
      if row.status = .active ∧ row.pid = pid then row.usage.total field else 0) id := by
    unfold Table.at_
    cases accounts.usageReservations.get id with
    | none => exact le_rfl
    | some old =>
        simp only [Option.elim_some]
        split_ifs
        · exact old.usage.total_nonneg field
        · exact le_rfl
  simp only [inactive, false_and, if_false, add_zero] at exchange
  rw [ownEnvelope, ownEnvelope, withReservation]
  linarith

end Fresh

theorem activeUsage_eq (pid child : String) (field : BudgetField) :
    accounts.activeUsage forest pid field (fun below => below = some child) =
      if forest.parent child = some pid then accounts.envelope forest child field else 0 := by
  split_ifs with link
  · exact activeUsage_child field link
  · exact activeUsage_stranger field link

theorem settled_sound {id : String} {row : ResourceUsageReservation}
    (sound : accounts.Sound forest .zero none) (inactive : row.status ≠ .active) :
    (accounts.withReservation id row).Sound forest .zero none := by
  have same := @withReservation_same accounts id row
  have backed := same.backed sound.backed
  refine ⟨fun pid field limit cumulative bound => ?_, backed⟩
  refine le_trans ?_ (sound.within pid field limit cumulative bound)
  rw [committed_eq backed.known, committed_eq sound.backed.known, same.usage]
  have own := @ownEnvelope_settled accounts id _ inactive pid field
  have children : ∑ child ∈ forest.pids, (accounts.withReservation id row).childCost forest pid child field ≤
      ∑ child ∈ forest.pids, accounts.childCost forest pid child field := by
    refine Finset.sum_le_sum fun child _ => ?_
    rw [childCost, childCost, same.reserved, activeUsage_eq, activeUsage_eq]
    refine max_le_max le_rfl ?_
    split_ifs
    · exact envelope_settled inactive child field
    · exact le_rfl
  linarith

/-- A chain has one process at most below each owner. -/
theorem below_unique {pid owner left right : String} (hl : left ∈ forest.chain pid)
    (hr : right ∈ forest.chain pid) (linkl : forest.parent left = some owner)
    (linkr : forest.parent right = some owner) : left = right := by
  have foundl := belowOwner_of_mem linkl hl none
  have foundr := belowOwner_of_mem linkr hr none
  exact Option.some.inj (Option.some.inj (foundl.symm.trans foundr))

/-- What a new usage reservation adds to the cost of a child is paid by the use admission adds. -/
theorem reserved_childCost {id : String} {row : ResourceUsageReservation}
    (sound : accounts.Sound forest .zero none) (fresh : accounts.usageReservations.get id = none)
    (active : row.status = .active) {pid : String} {below : Option String}
    (position : belowOwner pid none (forest.chain row.pid) = some below)
    (within : ∀ c, below = some c → (accounts.withReservation id row).Within forest c)
    {field : BudgetField} (child : String) :
    (accounts.withReservation id row).childCost forest pid child field ≤
      (if below = some child then row.usage.total field else 0) +
        accounts.heldAfter pid child field (below.map (·, row.usage)) +
        max 0 (accounts.activeUsage forest pid field (fun b => b = some child) -
          accounts.reserved pid child field) := by
  have same := @withReservation_same accounts id row
  have nonneg := row.usage.total_nonneg field
  have held := accounts.reserved_nonneg pid child field
  have tree := @envelope_nonneg forest accounts child field
  rw [childCost, same.reserved]
  by_cases here : below = some child
  · subst here
    have direct := belowOwner_direct.mp position
    rw [activeUsage_child field direct.1, activeUsage_child field direct.1,
      envelope_fresh fresh active, if_pos direct.2, if_pos rfl, Option.map_some, heldAfter_some,
      if_pos rfl]
    have rest := le_max_right 0 (accounts.reserved pid child field - row.usage.total field)
    have none_rest := le_max_left 0 (accounts.reserved pid child field - row.usage.total field)
    have beyond := le_max_right 0
      (accounts.envelope forest child field - accounts.reserved pid child field)
    have none_beyond := le_max_left 0
      (accounts.envelope forest child field - accounts.reserved pid child field)
    refine max_le (by linarith) ?_
    by_cases nothing : accounts.reserved pid child field = 0
    · linarith
    · have covered := (same.backed sound.backed).envelope_le_reserved (within child rfl)
        (by rw [same.reserved]; exact nothing)
      rw [envelope_fresh fresh active, if_pos direct.2, same.reserved] at covered
      simp only [reduceCtorEq, if_false, add_zero] at covered
      linarith
  · have unchanged : (accounts.withReservation id row).activeUsage forest pid field
        (fun b => b = some child) =
        accounts.activeUsage forest pid field (fun b => b = some child) := by
      rw [activeUsage_eq, activeUsage_eq]
      split_ifs with link
      · rw [envelope_fresh fresh active, if_neg, add_zero]
        intro member
        rw [belowOwner_of_mem link member none] at position
        exact here (Option.some.inj position).symm
      · rfl
    have kept : accounts.heldAfter pid child field (below.map (·, row.usage)) =
        accounts.reserved pid child field := by
      cases below with
      | none => rfl
      | some c =>
          have other : child ≠ c := fun same => here (congrArg some same.symm)
          rw [Option.map_some, heldAfter_some, if_neg other]
    rw [unchanged, if_neg here, kept, zero_add]
    refine max_le ?_ ?_
    · have := le_max_left 0 (accounts.activeUsage forest pid field (fun b => b = some child) -
        accounts.reserved pid child field)
      linarith
    · have := le_max_right 0 (accounts.activeUsage forest pid field (fun b => b = some child) -
        accounts.reserved pid child field)
      linarith

/-- Admission of the reserved usage at a process of the chain bounds what is committed there. -/
theorem reserved_within {id : String} {row : ResourceUsageReservation}
    (sound : accounts.Sound forest .zero none) (fresh : accounts.usageReservations.get id = none)
    (active : row.status = .active) {pid : String} {below : Option String}
    (position : belowOwner pid none (forest.chain row.pid) = some below)
    (within : ∀ c, below = some c → (accounts.withReservation id row).Within forest c)
    (admitted : accounts.firstExceeded forest pid ((accounts.usage pid).merge row.usage) row.usage
      below = none) : (accounts.withReservation id row).Within forest pid := by
  have same := @withReservation_same accounts id row
  have backed := same.backed sound.backed
  intro field limit cumulative bound
  have paid : (if row.pid = pid then row.usage.total field else 0) +
      ∑ child ∈ forest.pids, (if below = some child then row.usage.total field else 0) =
        row.usage.total field := by
    cases below with
    | none => simp [belowOwner_self.mp position]
    | some c =>
        have direct := belowOwner_direct.mp position
        have known := (forest.linked c pid direct.1).1
        have other : row.pid ≠ pid := by
          intro self
          have shallower := (forest.linked c pid direct.1).2.2
          have deep := depth_le_of_mem_chain direct.2
          rw [self] at deep
          omega
        simp [other, known]
  have bounded : (accounts.withReservation id row).committed forest pid field ≤
      ((accounts.usage pid).merge row.usage).total field +
        accounts.reservedBudgetValue pid field (below.map (·, row.usage)) +
        accounts.reservedUsageValue forest pid field := by
    have children := Finset.sum_le_sum fun child (_ : child ∈ forest.pids) =>
      @reserved_childCost _ _ _ _ sound fresh active _ _ position within field child
    simp only [Finset.sum_add_distrib] at children
    rw [committed_eq backed.known, same.usage, ownEnvelope_fresh fresh active,
      ResourceUsage.total_merge cumulative, reservedBudgetValue_eq sound.backed.known,
      reservedUsageValue, activeUsage_own]
    linarith
  cases touched : row.usage.touches field with
  | true =>
      have := (firstExceeded_eq_none.mp admitted) field limit touched bound
      rw [if_pos cumulative] at this
      exact bounded.trans this
  | false =>
      have zero := (row.usage.touches_iff field).mp touched
      have unpaid : accounts.reservedBudgetValue pid field (below.map (·, row.usage)) =
          accounts.reservedBudgetValue pid field none := by
        rw [reservedBudgetValue_eq sound.backed.known, reservedBudgetValue_eq sound.backed.known]
        refine Finset.sum_congr rfl fun child _ => ?_
        have := accounts.reserved_nonneg pid child field
        cases below with
        | none => rfl
        | some c => simp [heldAfter_some, zero, this]
      rw [unpaid, ResourceUsage.total_merge cumulative, zero, add_zero] at bounded
      exact bounded.trans (sound.within pid field limit cumulative bound)

theorem reserved_elsewhere {id : String} {row : ResourceUsageReservation}
    (sound : accounts.Sound forest .zero none) (fresh : accounts.usageReservations.get id = none)
    (active : row.status = .active) {pid : String} (off : pid ∉ forest.chain row.pid) :
    (accounts.withReservation id row).Within forest pid := by
  have same := @withReservation_same accounts id row
  have backed := same.backed sound.backed
  intro field limit cumulative bound
  refine le_of_eq_of_le ?_ (sound.within pid field limit cumulative bound)
  have own : row.pid ≠ pid := fun self => off (self ▸ self_mem_chain row.pid)
  rw [committed_eq backed.known, committed_eq sound.backed.known, same.usage,
    ownEnvelope_fresh fresh active, if_neg own, add_zero]
  refine congrArg _ (Finset.sum_congr rfl fun child _ => ?_)
  rw [childCost, childCost, same.reserved, activeUsage_eq, activeUsage_eq]
  split_ifs with link
  · rw [envelope_fresh fresh active, if_neg, add_zero]
    exact fun member => off (parent_mem_chain link member)
  · rfl

/-- Admission walks up the chain; so does the bound on what is committed. -/
theorem reserved_chain {id : String} {row : ResourceUsageReservation}
    (sound : accounts.Sound forest .zero none) (fresh : accounts.usageReservations.get id = none)
    (active : row.status = .active) (pid : String) {below : Option String}
    (position : belowOwner pid none (forest.chain row.pid) = some below)
    (within : ∀ c, below = some c → (accounts.withReservation id row).Within forest c)
    (admitted : accounts.preflightChain forest row.usage below (forest.chain pid) = .ok ()) :
    ∀ other ∈ forest.chain pid, (accounts.withReservation id row).Within forest other := by
  induction pid using chain_induction forest generalizing below with
  | root pid above =>
      rw [chain_root above] at admitted ⊢
      have here := reserved_within sound fresh active position within (preflightChain_cons admitted).1
      simpa using here
  | child pid parent above ih =>
      rw [chain_child above] at admitted ⊢
      obtain ⟨first, further⟩ := preflightChain_cons admitted
      have here := reserved_within sound fresh active position within first
      have member : pid ∈ forest.chain row.pid := by
        rw [← @belowOwner_isSome _ _ _ none, position]
        rfl
      have up := ih (belowOwner_of_mem above member none) (fun c same => by
        obtain rfl : pid = c := Option.some.inj same
        exact here) further
      intro other member
      rcases List.mem_cons.mp member with rfl | member
      · exact here
      · exact up other member

theorem reserveUsage_sound (sound : accounts.Sound forest .zero none) {pid id reason : String}
    {usage : ResourceUsage} {accounts' : Accounts}
    (done : accounts.reserveUsage forest pid id usage reason = .ok accounts') :
    accounts'.Sound forest .zero none := by
  unfold reserveUsage at done
  split_ifs at done
  obtain ⟨_, admitted, done⟩ := Run.bind_eq_ok.mp done
  split at done <;> cases done
  rename_i fresh
  obtain ⟨-, chain⟩ := preflightLocked_ok admitted
  have up := @reserved_chain _ _ _ ⟨pid, usage, .active, reason, none⟩ sound fresh rfl pid none
    (belowOwner_self.mpr rfl) (by simp) chain
  refine ⟨fun other => ?_, (withReservation_same id ⟨pid, usage, .active, reason, none⟩).backed sound.backed⟩
  by_cases member : other ∈ forest.chain pid
  · exact up other member
  · exact @reserved_elsewhere _ _ _ ⟨pid, usage, .active, reason, none⟩ sound fresh rfl _ member

theorem selectSettlement_inactive {row : ResourceUsageReservation} {settlement : Settlement}
    {selected : ResourceUsage} {status : UsageReservationStatus}
    (chosen : selectSettlement row settlement = .ok (selected, status)) : status ≠ .active := by
  cases settlement with
  | release =>
      cases chosen
      decide
  | chargeMaximum =>
      cases chosen
      decide
  | actual usage =>
      simp only [selectSettlement] at chosen
      split_ifs at chosen
      cases chosen
      decide

/-- The row once it is settled. -/
def settledRow (row : ResourceUsageReservation)
    (status : UsageReservationStatus) (selected : ResourceUsage) : ResourceUsageReservation :=
  { row with status := status, settledUsage := some selected }

/-- A settlement that succeeds finds the row settled, or takes its envelope out and charges. -/
theorem settle_cases {id : String} {settlement : Settlement} {accounts' : Accounts}
    {returned : ResourceUsage}
    (done : accounts.settleUsageReservation forest id settlement = .ok (accounts', returned)) :
    ∃ row, accounts.usageReservations.get id = some row ∧
      ((row.status ≠ .active ∧ accounts' = accounts ∧ returned = row.settledUsage.getD .zero) ∨
        (row.status = .active ∧ ∃ status, selectSettlement row settlement = .ok (returned, status) ∧
          (accounts.withReservation id
            (settledRow row status returned)).charge forest row.pid returned true =
              .done accounts')) := by
  unfold settleUsageReservation at done
  cases stored : accounts.usageReservations.get id with
  | none => simp [stored] at done
  | some row =>
      refine ⟨row, rfl, ?_⟩
      simp only [stored] at done
      by_cases active : row.status = .active
      · rw [if_neg (not_not.mpr active)] at done
        obtain ⟨⟨selected, status⟩, chosen, done⟩ := Run.bind_eq_ok.mp done
        cases run : (accounts.withReservation id
            (settledRow row status selected)).charge forest row.pid selected true with
        | done charged =>
            simp only [withReservation, settledRow] at run
            simp only [run] at done
            cases done
            exact Or.inr ⟨active, status, chosen, run⟩
        | raised err left =>
            simp only [withReservation, settledRow] at run
            simp only [run] at done
            cases done
      · rw [if_pos active] at done
        cases done
        exact Or.inl ⟨active, rfl, rfl⟩

theorem settle_sound (sound : accounts.Sound forest .zero none) {id : String}
    {settlement : Settlement} {accounts' : Accounts} {returned : ResourceUsage}
    (done : accounts.settleUsageReservation forest id settlement = .ok (accounts', returned)) :
    accounts'.Sound forest .zero none := by
  obtain ⟨row, -, ⟨-, rfl, -⟩ | ⟨-, status, chosen, charging⟩⟩ := settle_cases done
  · exact sound
  · have inactive := selectSettlement_inactive chosen
    have settled := @settled_sound _ _ id (settledRow row status returned) sound
      inactive
    rcases charge_sound settled row.pid returned true with ⟨charged, run, final⟩ | ⟨err, run⟩
    · rw [run] at charging
      cases charging
      exact final
    · rw [run] at charging
      cases charging

/-! ## Child budgets -/

theorem peak_of_min {values : List ℚ} {least value : ℚ} (bound : values.min? = some least)
    (member : value ∈ values) : least ≤ value := by
  rw [List.min?_eq_some_iff] at bound
  exact bound.2 value member

theorem validateChildFields_ok {pid : String} {budget : ResourceBudget} {usage : ResourceUsage}
    {fields : List BudgetField}
    (valid : accounts.validateChildFields forest pid budget usage fields = .ok ()) :
    ∀ field ∈ fields, accounts.validateChildField forest pid budget usage field = .ok () := by
  induction fields with
  | nil => simp
  | cons field rest ih =>
      obtain ⟨_, here, later⟩ := Run.bind_eq_ok.mp valid
      intro other member
      rcases List.mem_cons.mp member with rfl | member
      · exact here
      · exact ih later other member

theorem validateChildBudget_fields {pid : String} {budget : ResourceBudget}
    {usage : ResourceUsage}
    (valid : accounts.validateChildBudget forest pid budget usage = .ok ()) (field : BudgetField) :
    accounts.validateChildField forest pid budget usage field = .ok () := by
  obtain ⟨_, -, valid⟩ := Run.bind_eq_ok.mp valid
  split_ifs at valid
  split at valid
  · split_ifs at valid
    exact validateChildFields_ok valid field (mem_budgetFields field)
  · exact validateChildFields_ok valid field (mem_budgetFields field)

theorem total_merge_oneChild {field : BudgetField} (cumulative : reservable field = true)
    (usage : ResourceUsage) : (usage.merge oneChild).total field = usage.total field := by
  rw [ResourceUsage.total_merge cumulative]
  cases field <;> simp [reservable] at cumulative <;>
    simp [oneChild, ResourceUsage.single, ResourceUsage.total, budgetUsageMap]

/-- A validated request fits into what the parent has not committed. -/
theorem validated_fits (sound : accounts.Sound forest .zero none) {pid : String}
    {budget : ResourceBudget} {field : BudgetField} (cumulative : reservable field = true)
    (valid : accounts.validateChildField forest pid budget oneChild field = .ok ())
    {requested limit : ℚ} (asked : budget.limit field = some requested)
    (bound : (forest.budget pid).limit field = some limit) :
    accounts.committed forest pid field + requested ≤ limit := by
  have inside := sound.within pid field limit cumulative bound
  let left := max 0 (limit - accounts.committed forest pid field)
  have member : left ∈ (forest.chain pid).filterMap fun pid' =>
      accounts.processRemaining forest ((accounts.usage pid').merge oneChild) pid' field := by
    refine List.mem_filterMap.mpr ⟨pid, self_mem_chain pid, ?_⟩
    simp [processRemaining, bound, cumulative, total_merge_oneChild cumulative, left, committed]
  unfold validateChildField at valid
  simp only [asked, cumulative, if_true, remainingBudgetField] at valid
  cases least : ((forest.chain pid).filterMap fun pid' =>
      accounts.processRemaining forest ((accounts.usage pid').merge oneChild) pid' field).min? with
  | none =>
      rw [List.min?_eq_none_iff] at least
      simp [least] at member
  | some value =>
      simp only [least] at valid
      split_ifs at valid with short
      have le := peak_of_min least member
      have room : left = limit - accounts.committed forest pid field :=
        max_eq_right (by linarith)
      linarith

/-- The callers of `reserve_child_budget` pass the child's parent and the child's own budget. -/
def CallerContract (forest : ProcessForest) : ResourceOp → Prop
  | .reserveChildBudget parentPid childPid budget =>
      forest.parent childPid = some parentPid ∧ budget = forest.budget childPid
  | _ => True

/-- The accounts with the reservation of a child replaced. -/
def withChildBudget (accounts : Accounts) (pid child : String) (row : ResourceReservation) :
    Accounts :=
  { accounts with reservations := accounts.reservations.set (pid, child) row }

theorem withChildBudget_reserved (pid child owner other : String) (row : ResourceReservation)
    (field : BudgetField) :
    (accounts.withChildBudget pid child row).reserved owner other field =
      if (owner, other) = (pid, child) then row.reserved field
      else accounts.reserved owner other field := by
  rw [reserved, withChildBudget, Table.at_set]
  rfl

theorem withChildBudget_committed {pid child : String} {row : ResourceReservation}
    (known : accounts.Scoped forest)
    (known' : (accounts.withChildBudget pid child row).Scoped forest)
    (link : forest.parent child = some pid) (field : BudgetField) :
    (accounts.withChildBudget pid child row).committed forest pid field ≤
      accounts.committed forest pid field + row.reserved field := by
  have inside := (forest.linked child pid link).1
  have costs : ∑ other ∈ forest.pids,
      (accounts.withChildBudget pid child row).childCost forest pid other field ≤
        ∑ other ∈ forest.pids, (accounts.childCost forest pid other field +
          if other = child then row.reserved field else 0) := by
    refine Finset.sum_le_sum fun other _ => ?_
    have nonneg := row.nonneg field
    have held := accounts.reserved_nonneg pid other field
    have least := le_max_left (accounts.reserved pid other field)
      (accounts.activeUsage forest pid field (fun below => below = some other))
    have active := le_max_right (accounts.reserved pid other field)
      (accounts.activeUsage forest pid field (fun below => below = some other))
    have same : (accounts.withChildBudget pid child row).activeUsage forest pid field
        (fun below => below = some other) =
        accounts.activeUsage forest pid field (fun below => below = some other) := rfl
    rw [childCost, withChildBudget_reserved, same, childCost]
    by_cases here : other = child
    · rw [if_pos (by rw [here]), if_pos here]
      exact max_le (by linarith) (by linarith)
    · rw [if_neg (fun key => here (congrArg Prod.snd key)), if_neg here, add_zero]
  have own : (accounts.withChildBudget pid child row).ownEnvelope pid field =
      accounts.ownEnvelope pid field := rfl
  have usage : (accounts.withChildBudget pid child row).usage pid = accounts.usage pid := rfl
  rw [Finset.sum_add_distrib, Finset.sum_ite_eq' forest.pids child, if_pos inside] at costs
  rw [committed_eq known', committed_eq known, own, usage]
  linarith

theorem reserveChildBudget_sound (sound : accounts.Sound forest .zero none) {pid child : String}
    (link : forest.parent child = some pid) {accounts' : Accounts}
    (done : accounts.reserveChildBudget forest pid child (forest.budget child) = .ok accounts') :
    accounts'.Sound forest .zero none := by
  obtain ⟨_, valid, done⟩ := Run.bind_eq_ok.mp done
  split_ifs at done
  · cases done
    exact sound
  cases done
  have backed : (accounts.withChildBudget pid child
      (reservationFromBudget (forest.budget child))).Backed forest .zero none := by
    intro owner other field held
    by_cases key : (owner, other) = (pid, child)
    · obtain ⟨rfl, rfl⟩ := Prod.mk.inj key
      rw [withChildBudget_reserved, if_pos rfl] at held ⊢
      have cumulative : reservable field = true := by
        by_contra other
        simp [reservationFromBudget, other] at held
      cases bound : (forest.budget other).limit field with
      | none => simp [reservationFromBudget, cumulative, bound] at held
      | some limit =>
          refine ⟨cumulative, link, limit, rfl, ?_⟩
          have nonneg := (accounts.usage other).total_nonneg field
          simpa [reservationFromBudget, cumulative, bound, withChildBudget] using nonneg
    · rw [withChildBudget_reserved, if_neg key] at held ⊢
      exact sound.backed owner other field held
  refine ⟨fun other field limit cumulative bound => ?_, backed⟩
  by_cases here : other = pid
  · subst here
    have cost := withChildBudget_committed sound.backed.known backed.known link field
    refine cost.trans ?_
    cases asked : (forest.budget child).limit field with
    | none =>
        have := sound.within other field limit cumulative bound
        simpa [reservationFromBudget, cumulative, asked] using this
    | some requested =>
        have := validated_fits sound cumulative (validateChildBudget_fields valid field) asked bound
        simpa [reservationFromBudget, cumulative, asked] using this
  · have same : SameAt other (accounts.withChildBudget pid child
        (reservationFromBudget (forest.budget child))) accounts := by
      refine ⟨rfl, fun c => ?_, rfl⟩
      have key : (other, c) ≠ (pid, child) := fun same => here (congrArg Prod.fst same)
      simp [withChildBudget, key]
    exact same.committed field ▸ sound.within other field limit cumulative bound

/-! ## Released budgets -/

/-- Giving up reservations frees at a parent what exceeds the child's active usage. -/
theorem restricted_sound {released : Accounts} {keep : String × String → Bool}
    (sound : accounts.Sound forest .zero none)
    (usage : ∀ pid, released.usage pid = accounts.usage pid)
    (active : released.usageReservations = accounts.usageReservations)
    (kept : released.reservations = accounts.reservations.restrict keep) :
    released.Sound forest .zero none := by
  have reserved : ∀ pid child field, released.reserved pid child field =
      if keep (pid, child) then accounts.reserved pid child field else 0 := by
    intro pid child field
    simp only [Accounts.reserved, Table.at_, kept, Table.restrict_get]
    split_ifs <;> rfl
  have backed : released.Backed forest .zero none := by
    intro pid child field held
    by_cases remains : keep (pid, child) = true
    · rw [reserved, if_pos remains] at held ⊢
      rw [usage]
      exact sound.backed pid child field held
    · rw [reserved, if_neg remains] at held
      exact absurd rfl held
  refine ⟨fun pid field limit cumulative bound => ?_, backed⟩
  refine le_trans ?_ (sound.within pid field limit cumulative bound)
  rw [committed_eq backed.known, committed_eq sound.backed.known, usage]
  have own : released.ownEnvelope pid field = accounts.ownEnvelope pid field := by
    rw [ownEnvelope, ownEnvelope, active]
  rw [own]
  refine add_le_add_right (Finset.sum_le_sum fun child _ => ?_) _
  have tree : released.activeUsage forest pid field (fun below => below = some child) =
      accounts.activeUsage forest pid field (fun below => below = some child) := by
    rw [activeUsage, activeUsage, active]
  rw [childCost, childCost, reserved, tree]
  refine max_le_max ?_ le_rfl
  split_ifs
  · exact le_rfl
  · exact accounts.reserved_nonneg pid child field

/-! ## Runs -/

theorem sound_initial (forest : ProcessForest) : Accounts.initial.Sound forest .zero none := by
  have empty : ∀ pid child field, Accounts.initial.reserved pid child field = 0 := fun _ _ _ => rfl
  have backed : Accounts.initial.Backed forest .zero none :=
    fun pid child field held => absurd (empty pid child field) held
  refine ⟨fun pid field limit _ bound => ?_, backed⟩
  refine le_of_eq_of_le ?_ ((forest.budget pid).nonneg field limit bound)
  have own : Accounts.initial.ownEnvelope pid field = 0 := rfl
  have usage : (Accounts.initial.usage pid).total field = 0 := ResourceUsage.total_zero field
  have cost : ∀ child, Accounts.initial.childCost forest pid child field = 0 := fun _ => max_self _
  rw [committed_eq backed.known, own, usage, Finset.sum_eq_zero fun child _ => cost child]
  simp

theorem transacted_sound (sound : accounts.Sound forest .zero none)
    {result : Except ResourceError Accounts}
    (preserved : ∀ accounts', result = .ok accounts' → accounts'.Sound forest .zero none) :
    (accounts.transacted result).accounts.Sound forest .zero none := by
  cases result with
  | ok accounts' => exact preserved accounts' rfl
  | error err => exact sound

theorem exec_sound (sound : accounts.Sound forest .zero none) {op : ResourceOp}
    (contract : CallerContract forest op) :
    (op.exec forest accounts).accounts.Sound forest .zero none := by
  cases op with
  | reserveChildBudget parentPid childPid budget =>
      obtain ⟨link, rfl⟩ := contract
      exact transacted_sound sound fun _ => reserveChildBudget_sound sound link
  | reserveUsage pid id usage reason => exact transacted_sound sound fun _ => reserveUsage_sound sound
  | settleUsageReservation id settlement =>
      refine transacted_sound sound fun accounts' done => ?_
      obtain ⟨⟨left, returned⟩, settled, same⟩ := Run.map_eq_ok.mp done
      exact same ▸ settle_sound sound settled
  | charge pid usage killOnExceed =>
      rcases charge_sound sound pid usage killOnExceed with ⟨charged, run, final⟩ | ⟨err, run⟩
      · simp only [ResourceOp.exec, run]
        exact final
      · simp only [ResourceOp.exec, run]
        exact sound
  | killIfExceeded pid =>
      simp only [ResourceOp.exec]
      split_ifs
      · exact restricted_sound sound (fun _ => rfl) rfl rfl
      · exact sound
  | releaseProcessReservations pid => exact restricted_sound sound (fun _ => rfl) rfl rfl

theorem transacted_raised {result : Except ResourceError Accounts} {err : ResourceError}
    {left : Accounts} (raised : accounts.transacted result = .raised err left) : left = accounts := by
  cases result <;> cases raised
  rfl

/-- In sound accounts whatever raises has changed nothing: no limit is found exceeded late. -/
theorem exec_raised (sound : accounts.Sound forest .zero none) {op : ResourceOp}
    {err : ResourceError} {left : Accounts} (raised : op.exec forest accounts = .raised err left) :
    left = accounts := by
  cases op with
  | charge pid usage killOnExceed =>
      rcases charge_sound sound pid usage killOnExceed with ⟨charged, run, -⟩ | ⟨err', run⟩
      · simp only [ResourceOp.exec, run] at raised
        cases raised
      · simp only [ResourceOp.exec, run] at raised
        cases raised
        rfl
  | killIfExceeded pid =>
      simp only [ResourceOp.exec] at raised
      split_ifs at raised
      cases raised
      rfl
  | releaseProcessReservations pid => cases raised
  | _ => exact transacted_raised raised

/-- The accounts after a run of operations, each of them done or raised. -/
def after (forest : ProcessForest) (ops : List ResourceOp) : Accounts :=
  Run.run (fun accounts op => (ResourceOp.exec forest accounts op).accounts) .initial ops

theorem sound_after {ops : List ResourceOp} (contract : ∀ op ∈ ops, CallerContract forest op) :
    (after forest ops).Sound forest .zero none := by
  unfold after
  induction ops using List.reverseRecOn with
  | nil => exact sound_initial forest
  | append_singleton ops op ih =>
      rw [Run.run_append]
      have before := ih fun op member => contract op (List.mem_append_left _ member)
      exact exec_sound before (contract op (by simp))

def toolCallBudget (calls : ℚ) (nonneg : 0 ≤ calls) : ResourceBudget where
  limit := fun field => if field = .maxToolCalls then some calls else none
  maxContextMaterializationTokens := 0
  nonneg := by
    intro field bound asked
    split_ifs at asked
    cases asked
    exact nonneg

/-- A parent with ten tool calls and a child with eight. -/
def pair : ProcessForest where
  pids := {"pid_parent", "pid_child"}
  parent := fun pid => if pid = "pid_child" then some "pid_parent" else none
  budget := fun pid =>
    if pid = "pid_child" then toolCallBudget 8 (by norm_num) else toolCallBudget 10 (by norm_num)
  depth := fun pid => if pid = "pid_child" then 1 else 0
  linked := by
    intro child pid link
    split_ifs at link with here
    cases link
    simp [here]

def pairOps : List ResourceOp :=
  [.reserveChildBudget "pid_parent" "pid_child" (pair.budget "pid_child"),
    .reserveUsage "pid_child" "usage_1" (.single .toolCalls 5 (by norm_num)) "tool",
    .charge "pid_parent" (.single .toolCalls 2 (by norm_num)) true,
    .settleUsageReservation "usage_1" .chargeMaximum]

end Accounts
end AgentLibOS.Resources
