import AgentLibOS.Resources.Remaining

namespace AgentLibOS.Resources
open Library ProcessForest UsageField BudgetField

@[ext] theorem ResourceUsage.ext' {left right : ResourceUsage}
    (same : ∀ field, left.value field = right.value field) : left = right := by
  cases left
  cases right
  congr
  funext field
  exact same field

theorem ResourceUsage.total_mono {actual envelope : ResourceUsage}
    (inside : ∀ field, actual.value field ≤ envelope.value field) (field : BudgetField) :
    actual.total field ≤ envelope.total field :=
  List.sum_le_sum fun counter _ => inside counter

theorem ResourceUsage.merge_zero {delta : ResourceUsage} (zero : delta.isZero = true)
    (current : ResourceUsage) : current.merge delta = current := by
  apply ResourceUsage.ext'
  intro field
  have nothing : delta.value field = 0 :=
    of_decide_eq_true (List.all_eq_true.mp zero field (mem_usageFields field))
  have nonneg := current.nonneg field
  simp [ResourceUsage.merge, nothing, nonneg]

namespace Accounts
variable {forest : ProcessForest} {accounts : Accounts}

/-! ## What a charge changes -/

theorem chargeChain_active (delta : ResourceUsage) (pids : List String) :
    ∀ (accounts : Accounts) (below : Option String),
      (chargeChain forest delta accounts below pids).1.usageReservations =
        accounts.usageReservations := by
  induction pids with
  | nil =>
      intro accounts below
      rfl
  | cons pid rest ih =>
      intro accounts below
      simp only [chargeChain, chargeProcess_eq]
      rw [ih, chargedAt_active]

/-- The process and its ancestors are charged once each. -/
theorem chargeChain_usage (delta : ResourceUsage) (pid : String) {accounts : Accounts}
    {below : Option String} (other : String) :
    (chargeChain forest delta accounts below (forest.chain pid)).1.usage other =
      if other ∈ forest.chain pid then (accounts.usage other).merge delta
      else accounts.usage other := by
  induction pid using chain_induction forest generalizing accounts below with
  | root pid above =>
      rw [chain_root above]
      simp only [chargeChain, chargeProcess_eq, chargedAt_usage, List.mem_singleton]
      split_ifs with same
      · rw [same]
      · rfl
  | child pid parent above ih =>
      rw [chain_child above]
      simp only [chargeChain, chargeProcess_eq]
      rw [ih, chargedAt_usage]
      by_cases same : other = pid
      · have once : other ∉ forest.chain parent := by
          rw [same]
          exact not_mem_chain_parent above
        have member : other ∈ pid :: forest.chain parent := List.mem_cons.mpr (Or.inl same)
        rw [if_neg once, if_pos same, if_pos member, same]
      · simp only [same, if_false, List.mem_cons, false_or]

theorem charge_admitted {pid : String} {delta : ResourceUsage} {killOnExceed : Bool}
    {charged : Accounts} (done : accounts.charge forest pid delta killOnExceed = .done charged) :
    (delta.isZero = true ∧ charged = accounts) ∨
      (pid ∈ forest.pids ∧
        accounts.preflightChain forest delta none (forest.chain pid) = .ok () ∧
        (chargeChain forest delta accounts none (forest.chain pid)).1 = charged) := by
  unfold charge at done
  by_cases zero : delta.isZero = true
  · rw [if_pos zero] at done
    cases done
    exact Or.inl ⟨zero, rfl⟩
  · rw [if_neg zero] at done
    cases admitted : accounts.preflightLocked forest pid delta with
    | error err => simp [admitted] at done
    | ok _ =>
        obtain ⟨known, chain⟩ := preflightLocked_ok admitted
        rw [admitted] at done
        cases run : chargeChain forest delta accounts none (forest.chain pid) with
        | mk left exceeded =>
            rw [run] at done
            cases exceeded with
            | some _ => cases done
            | none =>
                cases done
                exact Or.inr ⟨known, chain, rfl⟩

theorem charge_active (accounts : Accounts) (pid : String) (delta : ResourceUsage)
    (killOnExceed : Bool) :
    (accounts.charge forest pid delta killOnExceed).accounts.usageReservations =
      accounts.usageReservations := by
  have rows := @chargeChain_active forest delta (forest.chain pid) accounts none
  unfold charge
  by_cases zero : delta.isZero = true
  · rw [if_pos zero]
    rfl
  · rw [if_neg zero]
    cases accounts.preflightLocked forest pid delta with
    | error err => rfl
    | ok _ =>
        cases run : chargeChain forest delta accounts none (forest.chain pid) with
        | mk charged exceeded =>
            rw [run] at rows
            cases exceeded with
            | none => exact rows
            | some found =>
                cases killOnExceed
                · exact rows
                · exact rows

theorem charge_usage {pid : String} {delta : ResourceUsage} {killOnExceed : Bool}
    {charged : Accounts} (done : accounts.charge forest pid delta killOnExceed = .done charged)
    (other : String) :
    charged.usage other = if other ∈ forest.chain pid then (accounts.usage other).merge delta
      else accounts.usage other := by
  rcases charge_admitted done with ⟨zero, rfl⟩ | ⟨-, -, run⟩
  · rw [ResourceUsage.merge_zero zero, ite_self]
  · rw [← run, chargeChain_usage]

/-! ## What a settlement frees -/

section Settled
variable {id : String} {row settled : ResourceUsageReservation}

theorem envelope_freed (stored : accounts.usageReservations.get id = some row)
    (active : row.status = .active) (inactive : settled.status ≠ .active) (pid : String)
    (field : BudgetField) :
    (accounts.withReservation id settled).envelope forest pid field +
        (if pid ∈ forest.chain row.pid then row.usage.total field else 0) =
      accounts.envelope forest pid field := by
  have exchange := Table.sum_set accounts.usageReservations (fun _ row =>
    if row.status = .active ∧ pid ∈ forest.chain row.pid then row.usage.total field else 0) id settled
  simp only [Table.at_, stored, Option.elim_some, active, true_and, inactive, false_and, if_false,
    add_zero] at exchange
  exact exchange

theorem ownEnvelope_freed (stored : accounts.usageReservations.get id = some row)
    (active : row.status = .active) (inactive : settled.status ≠ .active) (pid : String)
    (field : BudgetField) :
    (accounts.withReservation id settled).ownEnvelope pid field +
        (if row.pid = pid then row.usage.total field else 0) = accounts.ownEnvelope pid field := by
  have exchange := Table.sum_set accounts.usageReservations (fun _ row =>
    if row.status = .active ∧ row.pid = pid then row.usage.total field else 0) id settled
  simp only [Table.at_, stored, Option.elim_some, active, true_and, inactive, false_and, if_false,
    add_zero] at exchange
  exact exchange

/-- A child on the chain becomes cheaper by the part of the use that its reservation does not
cover. -/
theorem childCost_freed (sound : accounts.Sound forest .zero none)
    (stored : accounts.usageReservations.get id = some row) (active : row.status = .active)
    (inactive : settled.status ≠ .active) {owner child : String}
    (link : forest.parent child = some owner) (member : child ∈ forest.chain row.pid)
    {field : BudgetField} {used : ℚ} (inside : used ≤ row.usage.total field) :
    (accounts.withReservation id settled).childCost forest owner child field +
        max 0 (used - accounts.reserved owner child field) ≤
      accounts.childCost forest owner child field := by
  have same := @withReservation_same accounts id settled
  have freed := @envelope_freed forest _ _ _ _ stored active inactive child field
  have rest := @envelope_nonneg forest (accounts.withReservation id settled) child field
  rw [if_pos member] at freed
  rw [childCost, childCost, same.reserved, activeUsage_child field link,
    activeUsage_child field link]
  by_cases nothing : accounts.reserved owner child field = 0
  · have nonneg := row.usage.total_nonneg field
    have whole := @envelope_nonneg forest accounts child field
    rw [nothing, sub_zero, max_eq_right rest, max_eq_right whole]
    rcases le_total 0 used with positive | negative
    · rw [max_eq_right positive]
      linarith
    · rw [max_eq_left negative]
      linarith
  · have covered := sound.backed.envelope_le_reserved (sound.within child) nothing
    simp only [reduceCtorEq, if_false, add_zero] at covered
    have nonneg := row.usage.total_nonneg field
    rw [max_eq_left (by linarith), max_eq_left covered, max_eq_left (by linarith), add_zero]

theorem childCost_settled (inactive : settled.status ≠ .active) (owner child : String)
    (field : BudgetField) :
    (accounts.withReservation id settled).childCost forest owner child field ≤
      accounts.childCost forest owner child field := by
  have same := @withReservation_same accounts id settled
  rw [childCost, childCost, same.reserved, activeUsage_eq, activeUsage_eq]
  refine max_le_max le_rfl ?_
  split_ifs
  · exact envelope_settled inactive child field
  · exact le_rfl

/-- Every process of the chain has room for the use that is settled, its reservation for the
process below counted. -/
theorem committed_freed (sound : accounts.Sound forest .zero none)
    (stored : accounts.usageReservations.get id = some row) (active : row.status = .active)
    (inactive : settled.status ≠ .active) {owner : String} {below : Option String}
    (position : belowOwner owner none (forest.chain row.pid) = some below) {field : BudgetField}
    {used : ℚ} (nonneg : 0 ≤ used) (inside : used ≤ row.usage.total field) :
    (accounts.withReservation id settled).committed forest owner field +
        max 0 (used - accounts.heldBelow owner field below) ≤
      accounts.committed forest owner field := by
  have same := @withReservation_same accounts id settled
  have backed := same.backed sound.backed
  rw [committed_eq backed.known, committed_eq sound.backed.known, same.usage]
  cases below with
  | none =>
      have own := @ownEnvelope_freed _ _ _ _ stored active inactive owner field
      rw [if_pos (belowOwner_self.mp position)] at own
      have children := Finset.sum_le_sum fun child (_ : child ∈ forest.pids) =>
        @childCost_settled forest accounts id _ inactive owner child field
      rw [heldBelow, sub_zero, max_eq_right nonneg]
      linarith
  | some c =>
      obtain ⟨link, member⟩ := belowOwner_direct.mp position
      have known := (forest.linked c owner link).1
      have own := @ownEnvelope_settled accounts id _ inactive owner field
      have children : ∑ child ∈ forest.pids,
          ((accounts.withReservation id settled).childCost forest owner child field +
            if child = c then max 0 (used - accounts.reserved owner c field) else 0) ≤
          ∑ child ∈ forest.pids, accounts.childCost forest owner child field := by
        refine Finset.sum_le_sum fun child _ => ?_
        split_ifs with here
        · rw [here]
          exact childCost_freed sound stored active inactive link member inside
        · rw [add_zero]
          exact childCost_settled inactive owner child field
      rw [Finset.sum_add_distrib, Finset.sum_ite_eq' forest.pids c, if_pos known] at children
      rw [heldBelow]
      linarith

end Settled

/-! ## The memory peak -/

/-- A peak is no sum, so nothing holds it: an envelope within every limit on its chain stays
there. -/
structure Peaked (forest : ProcessForest) (accounts : Accounts) : Prop where
  known : ∀ {id row}, accounts.usageReservations.get id = some row → row.status = .active →
    row.pid ∈ forest.pids
  envelope : ∀ {id row pid limit}, accounts.usageReservations.get id = some row →
    row.status = .active → pid ∈ forest.chain row.pid →
    (forest.budget pid).limit maxSubprocessMemoryBytes = some limit →
    row.usage.value subprocessPeakMemoryBytes ≤ limit
  within : ∀ {pid limit}, (forest.budget pid).limit maxSubprocessMemoryBytes = some limit →
    (accounts.usage pid).value subprocessPeakMemoryBytes ≤ limit

@[simp] theorem total_peak (usage : ResourceUsage) :
    usage.total maxSubprocessMemoryBytes = usage.value subprocessPeakMemoryBytes := by
  simp [ResourceUsage.total, budgetUsageMap]

@[simp] theorem total_children (usage : ResourceUsage) :
    usage.total maxChildProcesses = usage.value childProcesses := by
  simp [ResourceUsage.total, budgetUsageMap]

@[simp] theorem merge_peak (current delta : ResourceUsage) :
    (current.merge delta).value subprocessPeakMemoryBytes =
      max (current.value subprocessPeakMemoryBytes) (delta.value subprocessPeakMemoryBytes) := by
  simp [ResourceUsage.merge]

@[simp] theorem merge_children (current delta : ResourceUsage) :
    (current.merge delta).value childProcesses =
      current.value childProcesses + delta.value childProcesses := by
  simp [ResourceUsage.merge]

theorem admitted_peak {delta : ResourceUsage} {pid owner : String}
    (admitted : accounts.preflightChain forest delta none (forest.chain pid) = .ok ())
    (member : owner ∈ forest.chain pid) {limit : ℚ}
    (bound : (forest.budget owner).limit maxSubprocessMemoryBytes = some limit) :
    delta.value subprocessPeakMemoryBytes ≤ limit := by
  obtain ⟨position, found⟩ := Option.isSome_iff_exists.mp (belowOwner_isSome.mpr member)
  have fine := (preflightChain_ok_iff pid).mp admitted owner position found
  rw [firstExceeded_eq_none] at fine
  cases touched : delta.touches maxSubprocessMemoryBytes with
  | true =>
      have here := fine maxSubprocessMemoryBytes limit touched bound
      simp only [reservable, bne_self_eq_false, Bool.false_and, Bool.false_eq_true, if_false,
        total_peak, merge_peak] at here
      exact (le_max_right _ _).trans here
  | false =>
      have nothing := (delta.touches_iff maxSubprocessMemoryBytes).mp touched
      rw [total_peak] at nothing
      rw [nothing]
      exact (forest.budget owner).nonneg _ _ bound

theorem charge_peaked (peaked : accounts.Peaked forest) {pid : String} {delta : ResourceUsage}
    {killOnExceed : Bool} {charged : Accounts}
    (done : accounts.charge forest pid delta killOnExceed = .done charged) :
    charged.Peaked forest := by
  have rows := @charge_active forest accounts pid delta killOnExceed
  rw [done] at rows
  refine ⟨fun stored => peaked.known (rows ▸ stored),
    fun stored => peaked.envelope (rows ▸ stored), fun {owner limit} bound => ?_⟩
  have before := peaked.within bound
  rcases charge_admitted done with ⟨-, rfl⟩ | ⟨-, admitted, -⟩
  · exact before
  · rw [charge_usage done]
    split_ifs with member
    · rw [merge_peak]
      exact max_le before (admitted_peak admitted member bound)
    · exact before

/-- Peaks depend on the usage and on the active rows alone. -/
theorem Peaked.of_rows {left right : Accounts} (peaked : right.Peaked forest)
    (usage : left.usage = right.usage)
    (rows : ∀ id row, left.usageReservations.get id = some row → row.status = .active →
      right.usageReservations.get id = some row) : left.Peaked forest :=
  ⟨fun stored active => peaked.known (rows _ _ stored active) active,
    fun stored active => peaked.envelope (rows _ _ stored active) active,
    fun bound => by
      rw [usage]
      exact peaked.within bound⟩

theorem reserveUsage_peaked (peaked : accounts.Peaked forest) {pid id reason : String}
    {usage : ResourceUsage} {accounts' : Accounts}
    (done : accounts.reserveUsage forest pid id usage reason = .ok accounts') :
    accounts'.Peaked forest := by
  unfold reserveUsage at done
  split_ifs at done
  obtain ⟨_, admitted, done⟩ := Run.bind_eq_ok.mp done
  split at done <;> cases done
  obtain ⟨known, chain⟩ := preflightLocked_ok admitted
  refine ⟨fun {id' row} stored active => ?_, fun {id' row owner limit} stored active member bound => ?_,
    fun bound => peaked.within bound⟩
  · rw [Table.set_get] at stored
    split_ifs at stored
    · cases stored
      exact known
    · exact peaked.known stored active
  · rw [Table.set_get] at stored
    split_ifs at stored
    · cases stored
      exact admitted_peak chain member bound
    · exact peaked.envelope stored active member bound

theorem settle_peaked (peaked : accounts.Peaked forest) {id : String} {settlement : Settlement}
    {accounts' : Accounts} {returned : ResourceUsage}
    (done : accounts.settleUsageReservation forest id settlement = .ok (accounts', returned)) :
    accounts'.Peaked forest := by
  obtain ⟨row, stored, ⟨-, rfl, -⟩ | ⟨-, status, chosen, charging⟩⟩ := settle_cases done
  · exact peaked
  · have inactive := selectSettlement_inactive chosen
    have removed : (accounts.withReservation id (settledRow row status returned)).Peaked forest := by
      refine peaked.of_rows rfl fun id' row' stored' active => ?_
      simp only [withReservation, Table.set_get] at stored'
      split_ifs at stored'
      · cases stored'
        exact absurd active inactive
      · exact stored'
    exact charge_peaked removed charging

theorem exec_peaked (sound : accounts.Sound forest .zero none) (peaked : accounts.Peaked forest)
    (op : ResourceOp) : (op.exec forest accounts).accounts.Peaked forest := by
  have transacted : ∀ result : Except ResourceError Accounts,
      (∀ accounts', result = .ok accounts' → accounts'.Peaked forest) →
        (accounts.transacted result).accounts.Peaked forest := by
    intro result preserved
    cases result with
    | ok accounts' => exact preserved accounts' rfl
    | error err => exact peaked
  cases op with
  | reserveChildBudget parentPid childPid budget =>
      apply transacted
      intro accounts' done
      obtain ⟨_, -, done⟩ := Run.bind_eq_ok.mp done
      split_ifs at done <;> cases done
      · exact peaked
      · exact peaked.of_rows rfl fun _ _ stored _ => stored
  | reserveUsage pid id usage reason =>
      apply transacted
      exact fun _ => reserveUsage_peaked peaked
  | settleUsageReservation id settlement =>
      apply transacted
      intro accounts' done
      obtain ⟨⟨left, returned⟩, settled, same⟩ := Run.map_eq_ok.mp done
      exact same ▸ settle_peaked peaked settled
  | charge pid usage killOnExceed =>
      rcases charge_sound sound pid usage killOnExceed with ⟨charged, run, -⟩ | ⟨err, run⟩
      · simp only [ResourceOp.exec, run]
        exact charge_peaked peaked run
      · simp only [ResourceOp.exec, run]
        exact peaked
  | killIfExceeded pid =>
      simp only [ResourceOp.exec]
      split_ifs
      · exact peaked.of_rows rfl fun _ _ stored _ => stored
      · exact peaked
  | releaseProcessReservations pid => exact peaked.of_rows rfl fun _ _ stored _ => stored

theorem peaked_after {ops : List ResourceOp} (contract : ∀ op ∈ ops, CallerContract forest op) :
    (after forest ops).Peaked forest := by
  induction ops using List.reverseRecOn with
  | nil =>
      refine ⟨fun {id row} stored => ?_, fun {id row pid limit} stored => ?_, fun {pid limit} bound => ?_⟩
      · cases stored
      · cases stored
      · exact (forest.budget pid).nonneg _ _ bound
  | append_singleton ops op ih =>
      have before : ∀ op ∈ ops, CallerContract forest op :=
        fun op member => contract op (List.mem_append_left _ member)
      unfold after
      rw [Run.run_append]
      exact exec_peaked (sound_after before) (ih before) op

/-! ## Settlements within the envelope -/

/-- Nothing holds child processes either, and these add up. -/
def ChildrenFit (forest : ProcessForest) (accounts : Accounts) (pid : String)
    (actual : ResourceUsage) : Prop :=
  ∀ owner ∈ forest.chain pid, ∀ limit, (forest.budget owner).limit maxChildProcesses = some limit →
    actual.value childProcesses ≠ 0 →
    (accounts.usage owner).value childProcesses + actual.value childProcesses ≤ limit

section Within
variable {id : String} {row : ResourceUsageReservation} {actual : ResourceUsage}

/-- What the check compares once the envelope is out. -/
theorem settling_value (owner : String) (below : Option String) {field : BudgetField}
    (cumulative : reservable field = true) :
    ((accounts.usage owner).merge actual).total field +
        accounts.reservedBudgetValue owner field (below.map (·, actual)) +
        accounts.reservedUsageValue forest owner field =
      accounts.committed forest owner field +
        max 0 (actual.total field - accounts.heldBelow owner field below) := by
  have excess : actual.total field - accounts.heldBelow owner field below +
      max 0 (accounts.heldBelow owner field below - actual.total field) =
        max 0 (actual.total field - accounts.heldBelow owner field below) := by
    rcases le_total (actual.total field) (accounts.heldBelow owner field below) with le | ge
    · rw [max_eq_right (by linarith), max_eq_left (by linarith)]
      ring
    · rw [max_eq_left (by linarith), max_eq_right (by linarith)]
      ring
  rw [ResourceUsage.total_merge cumulative, reservedBudgetValue_consuming, committed, ← excess]
  ring

theorem settling_admitted (sound : accounts.Sound forest .zero none) (peaked : accounts.Peaked forest)
    (stored : accounts.usageReservations.get id = some row) (active : row.status = .active)
    (inside : ∀ field, actual.value field ≤ row.usage.value field) {settled : ResourceUsageReservation}
    (inactive : settled.status ≠ .active) :
    (accounts.withReservation id settled).preflightChain forest actual none (forest.chain row.pid) =
        .ok () ↔ accounts.ChildrenFit forest row.pid actual := by
  rw [preflightChain_ok_iff]
  constructor
  · intro admitted owner member limit bound moved
    obtain ⟨position, found⟩ := Option.isSome_iff_exists.mp (belowOwner_isSome.mpr member)
    have fine := firstExceeded_eq_none.mp (admitted owner position found) maxChildProcesses limit
      (by simp [ResourceUsage.touches, budgetUsageMap, moved]) bound
    simpa [reservable, withReservation] using fine
  · intro fits owner position found
    have member : owner ∈ forest.chain row.pid := belowOwner_isSome.mp (by
      rw [found]
      rfl)
    rw [firstExceeded_eq_none]
    intro field limit touched bound
    by_cases cumulative : reservable field = true
    · rw [if_pos cumulative, settling_value owner position cumulative]
      have freed := committed_freed sound stored active inactive found
        (actual.total_nonneg field) (ResourceUsage.total_mono inside field)
      exact freed.trans (sound.within owner field limit cumulative bound)
    · rw [if_neg cumulative]
      have uncounted : field = maxSubprocessMemoryBytes ∨ field = maxChildProcesses := by
        cases field <;> simp [reservable] at cumulative ⊢
      rcases uncounted with rfl | rfl
      · rw [total_peak, merge_peak]
        exact max_le (peaked.within bound)
          ((inside _).trans (peaked.envelope stored active member bound))
      · have moved : actual.value childProcesses ≠ 0 := by
          simpa [ResourceUsage.touches, budgetUsageMap] using touched
        rw [total_children, merge_children]
        exact fits owner member limit bound moved

theorem selectSettlement_inside
    (inside : ∀ field, actual.value field ≤ row.usage.value field) :
    selectSettlement row (.actual actual) = .ok (actual, .settled) := by
  unfold selectSettlement
  exact if_pos fun field _ => inside field

/-- A settlement of an active row goes as the charge of the use once its envelope is out. -/
theorem settle_charged (stored : accounts.usageReservations.get id = some row)
    (active : row.status = .active) {settlement : Settlement} {status : UsageReservationStatus}
    (chosen : selectSettlement row settlement = .ok (actual, status)) {charged : Accounts}
    (run : (accounts.withReservation id (settledRow row status actual)).charge forest row.pid actual
      true = .done charged) :
    accounts.settleUsageReservation forest id settlement = .ok (charged, actual) := by
  simp only [withReservation, settledRow] at run
  unfold settleUsageReservation
  simp only [stored, active, ne_eq, not_true, if_false, chosen, bind, Except.bind, run]
  rfl

theorem settle_raised (stored : accounts.usageReservations.get id = some row)
    (active : row.status = .active) {settlement : Settlement} {status : UsageReservationStatus}
    (chosen : selectSettlement row settlement = .ok (actual, status)) {err : ResourceError}
    {left : Accounts}
    (run : (accounts.withReservation id (settledRow row status actual)).charge forest row.pid actual
      true = .raised err left) :
    accounts.settleUsageReservation forest id settlement = .error err := by
  simp only [withReservation, settledRow] at run
  unfold settleUsageReservation
  simp only [stored, active, ne_eq, not_true, if_false, chosen, bind, Except.bind, run]

theorem settle_succeeds (sound : accounts.Sound forest .zero none) (peaked : accounts.Peaked forest)
    (stored : accounts.usageReservations.get id = some row) (active : row.status = .active)
    (inside : ∀ field, actual.value field ≤ row.usage.value field)
    (fits : accounts.ChildrenFit forest row.pid actual) :
    ∃ charged, accounts.settleUsageReservation forest id (.actual actual) = .ok (charged, actual) ∧
      (accounts.withReservation id (settledRow row .settled actual)).charge forest row.pid actual true =
        .done charged := by
  have inactive : (settledRow row .settled actual).status ≠ .active := by simp [settledRow]
  have settled := @settled_sound _ _ id _ sound inactive
  have chosen := selectSettlement_inside inside
  rcases charge_sound settled row.pid actual true with ⟨charged, run, -⟩ | ⟨err, run⟩
  · exact ⟨charged, settle_charged stored active chosen run, run⟩
  · have known := peaked.known stored active
    have admitted := (settling_admitted sound peaked stored active inside inactive).mpr fits
    obtain ⟨left, clear, -⟩ := chargeChain_sound row.pid (@Sound.settle_ahead _ _ _ actual _ settled)
      (by simp) admitted
    unfold charge at run
    by_cases zero : actual.isZero = true
    · rw [if_pos zero] at run
      cases run
    · rw [if_neg zero, preflightLocked, if_pos known, admitted] at run
      simp only [clear] at run
      cases run

theorem settle_refused (sound : accounts.Sound forest .zero none) (peaked : accounts.Peaked forest)
    (stored : accounts.usageReservations.get id = some row) (active : row.status = .active)
    (inside : ∀ field, actual.value field ≤ row.usage.value field)
    (short : ¬ accounts.ChildrenFit forest row.pid actual) :
    ∃ err, accounts.settleUsageReservation forest id (.actual actual) = .error err := by
  have inactive : (settledRow row .settled actual).status ≠ .active := by simp [settledRow]
  have chosen := selectSettlement_inside inside
  cases run : (accounts.withReservation id (settledRow row .settled actual)).charge forest row.pid
      actual true with
  | raised err left => exact ⟨err, settle_raised stored active chosen run⟩
  | done charged =>
      refine absurd ?_ short
      rcases charge_admitted run with ⟨zero, -⟩ | ⟨-, admitted, -⟩
      · intro owner _ limit _ moved
        have nothing := List.all_eq_true.mp zero childProcesses (mem_usageFields _)
        exact absurd (of_decide_eq_true nothing) moved
      · exact (settling_admitted sound peaked stored active inside inactive).mp admitted

end Within

/-! ## Settled once -/

/-- The accounts once more operations have run. -/
def onward (forest : ProcessForest) (accounts : Accounts) (ops : List ResourceOp) : Accounts :=
  Run.run (fun accounts op => (ResourceOp.exec forest accounts op).accounts) accounts ops

theorem exec_keeps_settled {id : String} {row : ResourceUsageReservation}
    (stored : accounts.usageReservations.get id = some row) (inactive : row.status ≠ .active)
    (op : ResourceOp) :
    (op.exec forest accounts).accounts.usageReservations.get id = some row := by
  have transacted : ∀ result : Except ResourceError Accounts,
      (∀ accounts', result = .ok accounts' → accounts'.usageReservations.get id = some row) →
        (accounts.transacted result).accounts.usageReservations.get id = some row := by
    intro result preserved
    cases result with
    | ok accounts' => exact preserved accounts' rfl
    | error err => exact stored
  cases op with
  | reserveChildBudget parentPid childPid budget =>
      apply transacted
      intro accounts' done
      obtain ⟨_, -, done⟩ := Run.bind_eq_ok.mp done
      split_ifs at done <;> cases done
      · exact stored
      · exact stored
  | reserveUsage pid id' usage reason =>
      apply transacted
      intro accounts' done
      unfold reserveUsage at done
      split_ifs at done
      obtain ⟨_, -, done⟩ := Run.bind_eq_ok.mp done
      split at done <;> cases done
      rename_i fresh
      rw [Table.set_get, if_neg]
      · exact stored
      · rintro rfl
        rw [fresh] at stored
        cases stored
  | settleUsageReservation id' settlement =>
      apply transacted
      intro accounts' done
      obtain ⟨⟨left, returned⟩, settled, same⟩ := Run.map_eq_ok.mp done
      obtain rfl : left = accounts' := same
      obtain ⟨row', found, ⟨-, rfl, -⟩ | ⟨active, status, -, charging⟩⟩ := settle_cases settled
      · exact stored
      · have rows := @charge_active forest (accounts.withReservation id' (settledRow row' status returned))
          row'.pid returned true
        rw [charging] at rows
        simp only [Outcome.accounts] at rows
        rw [rows]
        simp only [withReservation, Table.set_get]
        rw [if_neg]
        · exact stored
        · rintro rfl
          rw [stored] at found
          cases found
          exact inactive active
  | charge pid usage killOnExceed =>
      simp only [ResourceOp.exec]
      rw [charge_active]
      exact stored
  | killIfExceeded pid =>
      simp only [ResourceOp.exec]
      split_ifs
      · exact stored
      · exact stored
  | releaseProcessReservations pid => exact stored

theorem onward_keeps_settled {id : String} {row : ResourceUsageReservation}
    (stored : accounts.usageReservations.get id = some row) (inactive : row.status ≠ .active)
    (ops : List ResourceOp) : (onward forest accounts ops).usageReservations.get id = some row :=
  Run.stable_run (I := fun accounts : Accounts => accounts.usageReservations.get id = some row)
    (fun _ op stored => exec_keeps_settled stored inactive op) ops stored

/-- A settled row answers every further settlement with the usage it was settled for. -/
theorem settle_again {id : String} {row : ResourceUsageReservation}
    (stored : accounts.usageReservations.get id = some row) (inactive : row.status ≠ .active)
    (settlement : Settlement) : accounts.settleUsageReservation forest id settlement =
      .ok (accounts, row.settledUsage.getD .zero) := by
  unfold settleUsageReservation
  simp only [stored]
  rw [if_pos inactive]
  rfl

/-! ## Settlements in a run -/

/-- An active row whose envelope covers the use. -/
def covers (accounts : Accounts) (id : String) (actual : ResourceUsage) : Bool :=
  (accounts.usageReservations.get id).any fun row => row.status = .active &&
    usageFields.all fun field => actual.value field ≤ row.usage.value field

theorem covers_iff {id : String} {actual : ResourceUsage} :
    accounts.covers id actual = true ↔ ∃ row, accounts.usageReservations.get id = some row ∧
      row.status = .active ∧ ∀ field, actual.value field ≤ row.usage.value field := by
  unfold covers
  cases accounts.usageReservations.get id with
  | none => simp
  | some row => simp [mem_usageFields]

def childBudget (children : ℚ) (nonneg : 0 ≤ children) : ResourceBudget where
  limit := fun field => if field = maxChildProcesses then some children else none
  maxContextMaterializationTokens := 0
  nonneg := by
    intro field bound asked
    split_ifs at asked
    cases asked
    exact nonneg

def lone : ProcessForest where
  pids := {"pid_root"}
  parent := fun _ => none
  budget := fun _ => childBudget 5 (Rat.num_nonneg.mp (by decide))
  depth := fun _ => 0
  linked := by simp

def children (count : ℚ) (nonneg : 0 ≤ count) : ResourceUsage := .single childProcesses count nonneg

/-- The envelope holds no children back, so a charge can use them up. -/
def loneOps : List ResourceOp :=
  [.reserveUsage "pid_root" "usage_1" (children 5 (Rat.num_nonneg.mp (by decide))) "tool",
    .charge "pid_root" (children 5 (Rat.num_nonneg.mp (by decide))) true]

end Accounts
end AgentLibOS.Resources
