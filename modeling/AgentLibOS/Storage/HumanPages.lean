import AgentLibOS.Library.Pages
import AgentLibOS.Storage.HumanCursor

namespace AgentLibOS.Storage
open Library Library.Json

/-! ## Requests and their order -/

inductive HumanRequestStatus
  | pending | approved | rejected | edited | cancelled | delivered
  deriving DecidableEq

def HumanRequestStatus.ofValue : String → Option HumanRequestStatus
  | "pending" => some .pending
  | "approved" => some .approved
  | "rejected" => some .rejected
  | "edited" => some .edited
  | "cancelled" => some .cancelled
  | "delivered" => some .delivered
  | _ => none

/-- A row of `human_requests`. -/
structure HumanRequest where
  requestId : Text
  pid : Text
  status : HumanRequestStatus
  createdAt : Text
  deriving DecidableEq

namespace HumanKey

/-- The order of the keys by code points; `BINARY` orders valid UTF-8 so. -/
def le (left right : HumanKey) : Bool :=
  if left.createdAt = right.createdAt then textLe left.requestId right.requestId
  else textLe left.createdAt right.createdAt

theorem le_total (left right : HumanKey) : left.le right = true ∨ right.le left = true := by
  unfold le
  by_cases same : left.createdAt = right.createdAt
  · rw [if_pos same, if_pos same.symm]
    exact textLe_total _ _
  · rw [if_neg same, if_neg (Ne.symm same)]
    exact textLe_total _ _

theorem le_antisymm {left right : HumanKey} (first : left.le right = true)
    (second : right.le left = true) : left = right := by
  unfold le at first second
  by_cases same : left.createdAt = right.createdAt
  · rw [if_pos same] at first
    rw [if_pos same.symm] at second
    cases left
    cases right
    cases same
    exact congrArg (HumanKey.mk _) (textLe_antisymm first second)
  · rw [if_neg same] at first
    rw [if_neg (Ne.symm same)] at second
    exact absurd (textLe_antisymm first second) same

theorem le_trans {left middle right : HumanKey} (first : left.le middle = true)
    (second : middle.le right = true) : left.le right = true := by
  unfold le at first second ⊢
  by_cases same : left.createdAt = middle.createdAt
  · rw [if_pos same] at first
    rw [same]
    split_ifs at second ⊢
    · exact textLe_trans first second
    · exact second
  · rw [if_neg same] at first
    by_cases same' : middle.createdAt = right.createdAt
    · rw [← same', if_neg same]
      exact first
    · rw [if_neg same'] at second
      have between := textLe_trans first second
      rwa [if_neg]
      intro equal
      rw [equal] at first
      exact same' (textLe_antisymm second first)

end HumanKey

instance : LinearOrder HumanKey where
  le left right := left.le right = true
  le_refl key := (HumanKey.le_total key key).elim id id
  le_trans _ _ _ := HumanKey.le_trans
  le_antisymm _ _ := HumanKey.le_antisymm
  le_total := HumanKey.le_total
  toDecidableLE left right := inferInstanceAs (Decidable (left.le right = true))
  toDecidableEq := inferInstance

def HumanRequest.key (request : HumanRequest) : HumanKey := ⟨request.createdAt, request.requestId⟩

/-- Newer requests come first. -/
def newer (left right : HumanRequest) : Prop := right.key ≤ left.key

instance : DecidableRel newer := fun left right =>
  inferInstanceAs (Decidable (right.key ≤ left.key))

/-! ## Pages -/

/-- The `task_runs` part of the configuration. -/
structure PageConfig where
  listPageSize : Int
  listHardLimit : Int
  recoveryPageHardLimit : Nat

structure HumanPage where
  records : List HumanRequest
  nextCursor : Option Text
  deriving DecidableEq

/-- `_validated_task_run_human_pids`. -/
def validatedTaskRunHumanPids (config : PageConfig) (pids : List Text) :
    Except String (List Text) := do
  let selected := (pids.filter (· ≠ [])).eraseDups
  Run.ensure (∀ pid ∈ selected, stripText pid = pid ∧ 0 ∉ pid)
    "TaskRun Human request PID scope is invalid"
  Run.ensure (selected.length ≤ config.recoveryPageHardLimit)
    "TaskRun Human request PID scope exceeds its hard cap"
  .ok selected

/-- `_validated_task_run_human_statuses`. -/
def validatedTaskRunHumanStatuses : Option (List String) →
    Except String (Option (List HumanRequestStatus))
  | none => .ok none
  | some statuses =>
      match statuses.mapM HumanRequestStatus.ofValue with
      | some selected => .ok (some selected.eraseDups)
      | none => .error "TaskRun Human request status is invalid"

/-- `_task_run_page_limit` with the label of Human requests. -/
def taskRunPageLimit (config : PageConfig) (limit : Option Int) : Except String Nat := do
  let selected := limit.getD config.listPageSize
  Run.ensure (0 < selected) "TaskRun Human request list limit must be a positive integer"
  Run.ensure (selected ≤ config.listHardLimit)
    s!"TaskRun Human request list limit exceeds hard cap {config.listHardLimit}"
  .ok selected.toNat

/-- `pids[offset : offset + 400]` for every offset. -/
def pidBatches (pids : List Text) : List (List Text) :=
  (List.range ((pids.length + 399) / 400)).map fun index => (pids.drop (index * 400)).take 400

/-- `_query_task_run_human_batch`. -/
def queryTaskRunHumanBatch (table : List HumanRequest) (pids : List Text)
    (statuses : Option (List HumanRequestStatus)) (after : Option HumanKey) (limit : Nat) :
    List HumanRequest :=
  ((table.filter fun row => decide (row.pid ∈ pids) &&
      (statuses.all fun selected => decide (row.status ∈ selected)) &&
      after.all fun last => decide (row.key < last)).insertionSort newer).take limit

/-- `rows_by_id[row.request_id] = row`. -/
def keepRow (rows : List HumanRequest) (row : HumanRequest) : List HumanRequest :=
  if rows.any fun kept => decide (kept.requestId = row.requestId) then
    rows.map fun kept => if kept.requestId = row.requestId then row else kept
  else rows ++ [row]

/-- `_task_run_human_page`. -/
def taskRunHumanPage (rows : List HumanRequest) (limit : Nat) : HumanPage :=
  let ordered := rows.insertionSort newer
  let records := ordered.take limit
  ⟨records, if limit < ordered.length then
      records.getLast?.map fun last => encodeTaskRunHumanCursor last.key
    else none⟩

def listHumanRequestsForPids (config : PageConfig) (floats : Serde.Floats)
    (table : List HumanRequest) (pids : List Text) (statuses : Option (List String))
    (limit : Option Int) (cursor : HumanCursor) : Except String HumanPage := do
  let selectedPids ← validatedTaskRunHumanPids config pids
  let selectedLimit ← taskRunPageLimit config limit
  let after ← decodeTaskRunHumanCursor floats cursor
  let selectedStatuses ← validatedTaskRunHumanStatuses statuses
  if selectedPids = [] ∨ selectedStatuses = some [] then .ok ⟨[], none⟩
  else
    let rowsById := (pidBatches selectedPids).foldl (fun rowsById batch =>
      (queryTaskRunHumanBatch table batch selectedStatuses after (selectedLimit + 1)).foldl keepRow
        rowsById) []
    .ok (taskRunHumanPage rowsById selectedLimit)

/-- A client that follows `next_cursor`. -/
def followPages (list : HumanCursor → Except String HumanPage) :
    Nat → HumanCursor → Except String (List HumanRequest)
  | 0, _ => .error "unfinished"
  | fuel + 1, cursor => do
      let page ← list cursor
      match page.nextCursor with
      | none => .ok page.records
      | some next => (followPages list fuel (.wire next)).map (page.records ++ ·)

end AgentLibOS.Storage
