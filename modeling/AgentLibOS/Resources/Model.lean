import AgentLibOS.Library.Table
import AgentLibOS.Library.Run
import Mathlib.Algebra.Order.Ring.Unbundled.Rat
import Mathlib.Tactic.Linarith

namespace AgentLibOS.Resources
open Library

inductive UsageField
  | runtimeSeconds | toolCalls | childProcesses | contextMaterializedTokens | llmCalls
  | llmPromptTokens | llmCompletionTokens | llmTotalTokens | subprocessWallSeconds
  | subprocessCpuSeconds | subprocessPeakMemoryBytes | externalReadBytes | externalWriteBytes
  | jsonrpcRequestBytes | jsonrpcResponseBytes | mcpRequestBytes | mcpResponseBytes | denoSyscalls
  deriving DecidableEq, Repr

/-- The limited fields of a budget, in the order of `_BUDGET_USAGE_MAP`. -/
inductive BudgetField
  | maxToolCalls | maxChildProcesses | maxRuntimeSeconds | maxContextMaterializationTotalTokens
  | maxLlmCalls | maxLlmTotalTokens | maxSubprocessWallSeconds | maxSubprocessCpuSeconds
  | maxSubprocessMemoryBytes | maxExternalReadBytes | maxExternalWriteBytes | maxJsonrpcBytes
  | maxMcpBytes | maxDenoSyscalls
  deriving DecidableEq, Repr

open UsageField BudgetField

def usageFields : List UsageField :=
  [runtimeSeconds, toolCalls, childProcesses, contextMaterializedTokens, llmCalls,
    llmPromptTokens, llmCompletionTokens, llmTotalTokens, subprocessWallSeconds,
    subprocessCpuSeconds, subprocessPeakMemoryBytes, externalReadBytes, externalWriteBytes,
    jsonrpcRequestBytes, jsonrpcResponseBytes, mcpRequestBytes, mcpResponseBytes, denoSyscalls]

theorem mem_usageFields (field : UsageField) : field ∈ usageFields := by cases field <;> decide

def budgetFields : List BudgetField :=
  [maxToolCalls, maxChildProcesses, maxRuntimeSeconds, maxContextMaterializationTotalTokens,
    maxLlmCalls, maxLlmTotalTokens, maxSubprocessWallSeconds, maxSubprocessCpuSeconds,
    maxSubprocessMemoryBytes, maxExternalReadBytes, maxExternalWriteBytes, maxJsonrpcBytes,
    maxMcpBytes, maxDenoSyscalls]

theorem mem_budgetFields (field : BudgetField) : field ∈ budgetFields := by
  cases field <;> decide

/-- `_BUDGET_USAGE_MAP`. -/
def budgetUsageMap : BudgetField → List UsageField
  | maxToolCalls => [toolCalls]
  | maxChildProcesses => [childProcesses]
  | maxRuntimeSeconds => [runtimeSeconds]
  | maxContextMaterializationTotalTokens => [contextMaterializedTokens]
  | maxLlmCalls => [llmCalls]
  | maxLlmTotalTokens => [llmTotalTokens]
  | maxSubprocessWallSeconds => [subprocessWallSeconds]
  | maxSubprocessCpuSeconds => [subprocessCpuSeconds]
  | maxSubprocessMemoryBytes => [subprocessPeakMemoryBytes]
  | maxExternalReadBytes => [externalReadBytes]
  | maxExternalWriteBytes => [externalWriteBytes]
  | maxJsonrpcBytes => [jsonrpcRequestBytes, jsonrpcResponseBytes]
  | maxMcpBytes => [mcpRequestBytes, mcpResponseBytes]
  | maxDenoSyscalls => [denoSyscalls]

def reservable (field : BudgetField) : Bool :=
  field != maxSubprocessMemoryBytes && field != maxChildProcesses

structure ResourceUsage where
  value : UsageField → ℚ
  nonneg : ∀ field, 0 ≤ value field

structure ResourceBudget where
  limit : BudgetField → Option ℚ
  maxContextMaterializationTokens : ℚ
  nonneg : ∀ field bound, limit field = some bound → 0 ≤ bound

def ResourceUsage.zero : ResourceUsage := ⟨fun _ => 0, fun _ => le_rfl⟩

/-- A usage with a single counter. -/
def ResourceUsage.single (field : UsageField) (amount : ℚ) (nonneg : 0 ≤ amount) : ResourceUsage :=
  ⟨fun field' => if field' = field then amount else 0, fun field' => by
    split_ifs
    · exact nonneg
    · exact le_rfl⟩

def ResourceUsage.isZero (usage : ResourceUsage) : Bool :=
  usageFields.all fun field => usage.value field = 0

/-- `_merge_usage`: counters add up, the memory peak is a maximum. -/
def ResourceUsage.merge (current delta : ResourceUsage) : ResourceUsage where
  value := fun field =>
    if field = subprocessPeakMemoryBytes then max (current.value field) (delta.value field)
    else current.value field + delta.value field
  nonneg := fun field => by
    split_ifs
    · exact le_max_of_le_left (current.nonneg field)
    · exact add_nonneg (current.nonneg field) (delta.nonneg field)

/-- `_usage_value`. -/
def ResourceUsage.total (usage : ResourceUsage) (field : BudgetField) : ℚ :=
  ((budgetUsageMap field).map usage.value).sum

/-- Whether a budget field is concerned by the counters that `delta` moves. -/
def ResourceUsage.touches (delta : ResourceUsage) (field : BudgetField) : Bool :=
  (budgetUsageMap field).any fun counter => delta.value counter ≠ 0

/-! ## Processes -/

structure ProcessForest where
  pids : Finset String
  parent : String → Option String
  budget : String → ResourceBudget
  depth : String → Nat
  linked : ∀ child pid, parent child = some pid →
    child ∈ pids ∧ pid ∈ pids ∧ depth pid < depth child

namespace ProcessForest
variable (forest : ProcessForest)

def chainFrom : Nat → String → List String
  | 0, pid => [pid]
  | fuel + 1, pid =>
      match forest.parent pid with
      | some above => pid :: chainFrom fuel above
      | none => [pid]

/-- `_process_chain` of an existing process: the process and its ancestors. -/
def chain (pid : String) : List String := forest.chainFrom (forest.depth pid) pid

end ProcessForest

/-- The process of the chain right below `owner`, if `owner` is on it at all. -/
def belowOwner (owner : String) : Option String → List String → Option (Option String)
  | _, [] => none
  | below, pid :: rest => if pid = owner then some below else belowOwner owner (some pid) rest

/-! ## Accounts -/

inductive UsageReservationStatus
  | active | settled | released | chargedMaximum
  deriving DecidableEq, Repr

structure ResourceUsageReservation where
  pid : String
  usage : ResourceUsage
  status : UsageReservationStatus
  reason : String
  settledUsage : Option ResourceUsage

/-- What a parent holds back for a child; a missing field is zero. -/
structure ResourceReservation where
  reserved : BudgetField → ℚ
  nonneg : ∀ field, 0 ≤ reserved field

structure Accounts where
  usage : String → ResourceUsage
  reservations : Table (String × String) ResourceReservation
  usageReservations : Table String ResourceUsageReservation
  killed : String → Bool

inductive ResourceError
  | notFound (pid : String)
  | preflightDenied (pid : String) (field : BudgetField) (value limit : ℚ)
  | limitExceeded (pid : String) (field : BudgetField) (value limit : ℚ)
  | childBudgetExceeded (field : Option BudgetField) (requested limit : ℚ)
  | settlementExceeded (fields : List UsageField)
  | validation (message : String)
  | integrity
  deriving DecidableEq, Repr

namespace Accounts
variable (forest : ProcessForest)

def reserved (accounts : Accounts) (parentPid childPid : String) (field : BudgetField) : ℚ :=
  accounts.reservations.at_ (fun _ row => row.reserved field) (parentPid, childPid)

/-- What a row still holds back once a use by the consuming child is set against it. -/
def rowHeld (field : BudgetField) (consuming : Option (String × ResourceUsage)) (childPid : String)
    (row : ResourceReservation) : ℚ :=
  match consuming with
  | some (child, usage) =>
      if childPid = child then max 0 (row.reserved field - usage.total field)
      else row.reserved field
  | none => row.reserved field

/-- `_reserved_budget_value_locked`. -/
def reservedBudgetValue (accounts : Accounts) (parentPid : String) (field : BudgetField)
    (consuming : Option (String × ResourceUsage)) : ℚ :=
  accounts.reservations.sum fun key row =>
    if key.1 = parentPid then rowHeld field consuming key.2 row else 0

/-- The active usage that `select` picks by its position below the owner. A reservation whose
process is gone counts as its own owner's. -/
def activeUsage (accounts : Accounts) (owner : String) (field : BudgetField)
    (select : Option String → Bool) : ℚ :=
  accounts.usageReservations.sum fun _ row =>
    if row.status = .active then
      let position :=
        if row.pid ∈ forest.pids then belowOwner owner none (forest.chain row.pid)
        else if row.pid = owner then some none
        else none
      if position.any select then row.usage.total field else 0
    else 0

/-- `_reserved_usage_value_locked`: active usage not covered by child budget reservations. -/
def reservedUsageValue (accounts : Accounts) (owner : String) (field : BudgetField) : ℚ :=
  accounts.activeUsage forest owner field (fun below => below = none) +
    ∑ child ∈ forest.pids,
      max 0 (accounts.activeUsage forest owner field (fun below => below = some child) -
        accounts.reserved owner child field)

/-- `_first_exceeded_effective`. -/
def firstExceeded (accounts : Accounts) (pid : String) (usage delta : ResourceUsage)
    (consumingChild : Option String) : Option (BudgetField × ℚ × ℚ) :=
  budgetFields.findSome? fun field =>
    if delta.touches field = false then none
    else match (forest.budget pid).limit field with
      | none => none
      | some limit =>
          let value :=
            if reservable field then
              usage.total field +
                accounts.reservedBudgetValue pid field (consumingChild.map (·, delta)) +
                accounts.reservedUsageValue forest pid field
            else usage.total field
          if limit < value then some (field, value, limit) else none

def preflightChain (accounts : Accounts) (usage : ResourceUsage) :
    Option String → List String → Except ResourceError Unit
  | _, [] => .ok ()
  | below, pid :: rest =>
      match accounts.firstExceeded forest pid ((accounts.usage pid).merge usage) usage below with
      | some (field, value, limit) => .error (.preflightDenied pid field value limit)
      | none => preflightChain accounts usage (some pid) rest

/-- `_preflight_locked`. -/
def preflightLocked (accounts : Accounts) (pid : String) (usage : ResourceUsage) :
    Except ResourceError Unit :=
  if pid ∈ forest.pids then accounts.preflightChain forest usage none (forest.chain pid)
  else .error (.notFound pid)

def preflight (accounts : Accounts) (pid : String) (usage : ResourceUsage) :
    Except ResourceError Unit :=
  if usage.isZero then .ok () else accounts.preflightLocked forest pid usage

/-! ## Charging -/

def setUsage (accounts : Accounts) (pid : String) (usage : ResourceUsage) : Accounts :=
  { accounts with usage := fun pid' => if pid' = pid then usage else accounts.usage pid' }

/-- `_consume_reservation_locked`. Consuming in a row that is missing changes nothing. -/
def consumeReservation (accounts : Accounts) (parentPid childPid : String) (usage : ResourceUsage) :
    Accounts :=
  match accounts.reservations.get (parentPid, childPid) with
  | none => accounts
  | some row =>
      { accounts with
        reservations := accounts.reservations.set (parentPid, childPid)
          { reserved := fun field =>
              if reservable field ∧ usage.touches field then
                row.reserved field - min (row.reserved field) (usage.total field)
              else row.reserved field
            nonneg := fun field => by
              split_ifs
              · exact sub_nonneg.mpr (min_le_left _ _)
              · exact row.nonneg field } }

/-- One round of the loop in `_charge`, and the limit it leaves exceeded. -/
def chargeProcess (accounts : Accounts) (delta : ResourceUsage) (below : Option String)
    (pid : String) : Accounts × Option (String × BudgetField × ℚ × ℚ) :=
  let charged := accounts.setUsage pid ((accounts.usage pid).merge delta)
  let consumed := match below with
    | none => charged
    | some child => charged.consumeReservation pid child delta
  (consumed, (consumed.firstExceeded forest pid (consumed.usage pid) delta none).map (pid, ·))

def chargeChain (delta : ResourceUsage) : Accounts → Option String → List String →
    Accounts × Option (String × BudgetField × ℚ × ℚ)
  | accounts, _, [] => (accounts, none)
  | accounts, below, pid :: rest =>
      let (charged, here) := accounts.chargeProcess forest delta below pid
      let (final, later) := chargeChain delta charged (some pid) rest
      (final, here.or later)

/-- `_persist_resource_limit_kill`: the living descendants lose their budget reservations. -/
def kill (accounts : Accounts) (owner : String) : Accounts :=
  let doomed := fun pid => decide (pid ∈ forest.pids) && decide (owner ∈ forest.chain pid) &&
    !accounts.killed pid
  { accounts with
    killed := fun pid => accounts.killed pid || doomed pid
    reservations := accounts.reservations.restrict fun key => !(doomed key.1 || doomed key.2) }

/-- `release_process_reservations`: as a parent and as a child. -/
def releaseProcessReservations (accounts : Accounts) (pid : String) : Accounts :=
  { accounts with
    reservations := accounts.reservations.restrict fun key =>
      !(decide (key.1 = pid) || decide (key.2 = pid)) }

/-- How an operation ends: in the state it leaves, or with an error and the state that the rolled
back or committed transactions leave. -/
inductive Outcome
  | done (accounts : Accounts)
  | raised (error : ResourceError) (accounts : Accounts)

def Outcome.accounts : Outcome → Accounts
  | .done accounts => accounts
  | .raised _ accounts => accounts

/-- A transaction that fails leaves the accounts it started from. -/
def transacted (accounts : Accounts) : Except ResourceError Accounts → Outcome
  | .ok accounts' => .done accounts'
  | .error err => .raised err accounts

/-- `_charge` with `allow_overage=False`. A limit found exceeded after the charge is raised once
the charge has committed. -/
def charge (accounts : Accounts) (pid : String) (delta : ResourceUsage) (killOnExceed : Bool) :
    Outcome :=
  if delta.isZero then .done accounts
  else match accounts.preflightLocked forest pid delta with
    | .error err => .raised err accounts
    | .ok () =>
        match chargeChain forest delta accounts none (forest.chain pid) with
        | (charged, none) => .done charged
        | (charged, some (owner, field, value, limit)) =>
            .raised (.limitExceeded owner field value limit)
              (if killOnExceed then charged.kill forest owner else charged)

/-! ## Usage reservations -/

def reserveUsage (accounts : Accounts) (pid reservationId : String) (usage : ResourceUsage)
    (reason : String) : Except ResourceError Accounts :=
  if usage.isZero then .error (.validation "resource usage reservation must be non-zero")
  else do
    accounts.preflightLocked forest pid usage
    match accounts.usageReservations.get reservationId with
    | some _ => .error .integrity
    | none =>
        pure { accounts with
          usageReservations :=
            accounts.usageReservations.set reservationId ⟨pid, usage, .active, reason, none⟩ }

def llmUsageFields : List UsageField := [llmCalls, llmPromptTokens, llmCompletionTokens, llmTotalTokens]

/-- `_maximum_charge_usage`: an unknown model call is charged without a token split. -/
def maximumChargeUsage (row : ResourceUsageReservation) : ResourceUsage :=
  if row.reason = "llm.request" ∧
      ∀ field ∈ usageFields, field ∈ llmUsageFields ∨ row.usage.value field = 0 then
    { value := fun field =>
        if field = llmCalls ∨ field = llmTotalTokens then row.usage.value field else 0
      nonneg := fun field => by
        split_ifs
        · exact row.usage.nonneg field
        · exact le_rfl }
  else row.usage

inductive Settlement
  | release
  | chargeMaximum
  | actual (usage : ResourceUsage)

def selectSettlement (row : ResourceUsageReservation) :
    Settlement → Except ResourceError (ResourceUsage × UsageReservationStatus)
  | .release => .ok (.zero, .released)
  | .chargeMaximum => .ok (maximumChargeUsage row, .chargedMaximum)
  | .actual usage =>
      if ∀ field ∈ usageFields, usage.value field ≤ row.usage.value field then .ok (usage, .settled)
      else .error (.settlementExceeded
        (usageFields.filter fun field => row.usage.value field < usage.value field))

/-- `settle_usage_reservation`, with the usage it returns. Every error rolls the whole settlement
back. -/
def settleUsageReservation (accounts : Accounts) (reservationId : String)
    (settlement : Settlement) : Except ResourceError (Accounts × ResourceUsage) := do
  match accounts.usageReservations.get reservationId with
  | none => .error (.validation ("resource usage reservation not found: " ++ reservationId))
  | some row =>
      if row.status ≠ .active then pure (accounts, row.settledUsage.getD .zero)
      else do
        let (selected, status) ← selectSettlement row settlement
        let settled := { accounts with
          usageReservations := accounts.usageReservations.set reservationId
            { row with status := status, settledUsage := some selected } }
        match settled.charge forest row.pid selected true with
        | .done charged => pure (charged, selected)
        | .raised err _ => .error err

/-! ## Child budgets -/

/-- The tightest limit of a field on the chain. -/
def peakLimit (pid : String) (field : BudgetField) : Option ℚ :=
  ((forest.chain pid).filterMap fun pid' => (forest.budget pid').limit field).min?

def contextMaterializationWindowLimit (pid : String) : Option ℚ :=
  ((forest.chain pid).map fun pid' => (forest.budget pid').maxContextMaterializationTokens).min?

/-- What one process of the chain leaves of a field, if it limits it. -/
def processRemaining (accounts : Accounts) (usage : ResourceUsage) (pid : String)
    (field : BudgetField) : Option ℚ :=
  ((forest.budget pid).limit field).map fun limit =>
    max 0 (limit -
      if reservable field then
        usage.total field + accounts.reservedBudgetValue pid field none +
          accounts.reservedUsageValue forest pid field
      else usage.total field)

/-- `_remaining_budget_field_locked` over the counters of the field. -/
def remainingBudgetField (accounts : Accounts) (pid : String) (field : BudgetField)
    (reservedUsage : ResourceUsage) : Option ℚ :=
  ((forest.chain pid).filterMap fun pid' =>
    accounts.processRemaining forest ((accounts.usage pid').merge reservedUsage) pid' field).min?

def validateChildField (accounts : Accounts) (parentPid : String) (budget : ResourceBudget)
    (reservedUsage : ResourceUsage) (field : BudgetField) : Except ResourceError Unit :=
  match budget.limit field with
  | none => .ok ()
  | some requested =>
      let bound :=
        if reservable field then
          accounts.remainingBudgetField forest parentPid field reservedUsage
        else peakLimit forest parentPid field
      match bound with
      | none => .ok ()
      | some limit =>
          if limit < requested then .error (.childBudgetExceeded (some field) requested limit)
          else .ok ()

def validateChildFields (accounts : Accounts) (parentPid : String) (budget : ResourceBudget)
    (reservedUsage : ResourceUsage) : List BudgetField → Except ResourceError Unit
  | [] => .ok ()
  | field :: rest => do
      accounts.validateChildField forest parentPid budget reservedUsage field
      validateChildFields accounts parentPid budget reservedUsage rest

/-- `validate_child_budget`. -/
def validateChildBudget (accounts : Accounts) (parentPid : String) (budget : ResourceBudget)
    (reservedUsage : ResourceUsage) : Except ResourceError Unit := do
  accounts.preflight forest parentPid reservedUsage
  if parentPid ∈ forest.pids then
    match contextMaterializationWindowLimit forest parentPid with
    | some window =>
        if window < budget.maxContextMaterializationTokens then
          .error (.childBudgetExceeded none budget.maxContextMaterializationTokens window)
        else accounts.validateChildFields forest parentPid budget reservedUsage budgetFields
    | none => accounts.validateChildFields forest parentPid budget reservedUsage budgetFields
  else .error (.notFound parentPid)

def oneChild : ResourceUsage := .single childProcesses 1 zero_le_one

/-- `_reservation_from_budget`. -/
def reservationFromBudget (budget : ResourceBudget) : ResourceReservation where
  reserved := fun field => if reservable field then (budget.limit field).getD 0 else 0
  nonneg := fun field => by
    split_ifs
    · cases bound : budget.limit field with
      | none => exact le_rfl
      | some limit => exact budget.nonneg field limit bound
    · exact le_rfl

def reserveChildBudget (accounts : Accounts) (parentPid childPid : String)
    (budget : ResourceBudget) : Except ResourceError Accounts := do
  accounts.validateChildBudget forest parentPid budget oneChild
  if ∀ field ∈ budgetFields, reservable field = true → budget.limit field = none then
    pure accounts
  else
    pure { accounts with
      reservations :=
        accounts.reservations.set (parentPid, childPid) (reservationFromBudget budget) }

/-! ## Remaining budgets -/

/-- `remaining_cumulative` for a field with one counter. -/
def remainingCumulative (accounts : Accounts) (pid : String) (field : BudgetField) :
    Except ResourceError (Option ℚ) :=
  if pid ∈ forest.pids then .ok (accounts.remainingBudgetField forest pid field .zero)
  else .error (.notFound pid)

/-- The entry of `remaining_budgets([pid])` for a field. -/
def remainingBudgets (accounts : Accounts) (pid : String) (field : BudgetField) :
    Except ResourceError (Option ℚ) :=
  if pid ∈ forest.pids then
    .ok (if field = maxSubprocessMemoryBytes then peakLimit forest pid field
      else ((forest.chain pid).filterMap fun pid' =>
        accounts.processRemaining forest (accounts.usage pid') pid' field).min?)
  else .error (.notFound pid)

end Accounts

/-! ## Interleavings -/

inductive ResourceOp
  | reserveChildBudget (parentPid childPid : String) (budget : ResourceBudget)
  | reserveUsage (pid reservationId : String) (usage : ResourceUsage) (reason : String)
  | settleUsageReservation (reservationId : String) (settlement : Accounts.Settlement)
  | charge (pid : String) (usage : ResourceUsage) (killOnExceed : Bool)
  | killIfExceeded (pid : String)
  | releaseProcessReservations (pid : String)

open Accounts in
def ResourceOp.exec (forest : ProcessForest) (accounts : Accounts) : ResourceOp → Outcome
  | .reserveChildBudget parentPid childPid budget =>
      accounts.transacted (accounts.reserveChildBudget forest parentPid childPid budget)
  | .reserveUsage pid reservationId usage reason =>
      accounts.transacted (accounts.reserveUsage forest pid reservationId usage reason)
  | .settleUsageReservation reservationId settlement =>
      accounts.transacted
        ((accounts.settleUsageReservation forest reservationId settlement).map Prod.fst)
  | .charge pid usage killOnExceed => accounts.charge forest pid usage killOnExceed
  | .killIfExceeded pid =>
      if pid ∈ forest.pids then .done (accounts.kill forest pid) else .raised (.notFound pid) accounts
  | .releaseProcessReservations pid => .done (accounts.releaseProcessReservations pid)

def Accounts.initial : Accounts :=
  ⟨fun _ => .zero, .empty, .empty, fun _ => false⟩

end AgentLibOS.Resources
