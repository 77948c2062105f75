import AgentLibOS.TaskRuns.Records

namespace AgentLibOS.TaskRuns
open Library Library.Run Capability Processes

/-! ## The tables -/

/-- The columns of `processes` that bind a process to a run. -/
structure ProcessBinding where
  taskRunId : Option String
  taskRunEpoch : Option Nat
  revision : Nat
  deriving DecidableEq, Repr

/-- A row of `task_run_payloads`; `plaintext` is whether its text is still there. -/
structure TaskRunPayload where
  runId : String
  role : String
  plaintext : Bool
  deriving DecidableEq, Repr

/-- `runtimeEpoch` and `ledgerSeq` are the `runtime_counters` of task runs. -/
structure TaskRunStore where
  runtimeEpoch : Nat
  ledgerSeq : Nat
  runs : Table String TaskRunRecord
  processes : String → Option ProcessBinding
  payloads : String → Option TaskRunPayload
  resumePoints : String → Option TaskRunResumePoint
  commands : List TaskRunCommand
  ledger : List TaskRunLedgerItem

namespace TaskRunStore

/-! ## Runs -/

/-- The columns of a run and the index on `root_pid` admit the row. -/
def storable (store : TaskRunStore) (run : TaskRunRecord) : Prop :=
  run.checked = true ∧ ∀ other ∈ store.runs.keys, other ≠ run.runId → run.rootPid.isSome = true →
    (store.runs.get other).bind (·.rootPid) ≠ run.rootPid

instance (store : TaskRunStore) (run : TaskRunRecord) : Decidable (store.storable run) :=
  inferInstanceAs (Decidable (_ ∧ ∀ _ ∈ store.runs.keys, _))

def updateTaskRunCas (config : TaskRunConfig) (store : TaskRunStore) (runId : String)
    (expectedRevision : Nat) (updates : List TaskRunUpdate) (expectedRuntimeEpoch : Option Nat)
    (now : String) : Except TaskRunFault (TaskRunStore × TaskRunRecord) := do
  ensure (expectedRuntimeEpoch ≠ some 0) .validation
  ensure (updates.all TaskRunUpdate.allowed) .validation
  match store.runs.get runId with
  | none => .error .revisionConflict
  | some run =>
      let assigned ← updates.foldlM (TaskRunUpdate.assign config.encoder) { run with updatedAt := now }
      ensure (run.revision = expectedRevision ∧ ∀ epoch ∈ expectedRuntimeEpoch,
        run.runtimeEpoch = epoch) .revisionConflict
      let written := { assigned with revision := run.revision + 1 }
      ensure (store.storable written) .integrity
      ensure (written.valid config.encoder) .validation
      .ok ({ store with runs := store.runs.set runId written }, written)

/-- The two claims of a run, for runs of which `admits` holds. -/
def claimRun (config : TaskRunConfig) (admits : TaskRunStatus → Bool) (store : TaskRunStore)
    (runId : String) (expectedRevision selectedEpoch : Nat) (now : String) :
    Except TaskRunFault (TaskRunStore × TaskRunRecord) := do
  ensure (0 < selectedEpoch) .validation
  match store.runs.get runId with
  | none => .error .revisionConflict
  | some run =>
      ensure (run.revision = expectedRevision ∧ run.runtimeEpoch < selectedEpoch ∧
        admits run.status) .revisionConflict
      let written := { run with
        runtimeEpoch := selectedEpoch, revision := run.revision + 1, updatedAt := now }
      ensure (written.valid config.encoder) .validation
      .ok ({ store with
        runs := store.runs.set runId written
        processes := fun pid => (store.processes pid).map fun process =>
          if process.taskRunId = some runId then { process with taskRunEpoch := some selectedEpoch }
          else process }, written)

def claimTaskRunEpoch (config : TaskRunConfig) :=
  claimRun config (fun status => !status.terminal)

/-- `runtimeEpoch` is the epoch that the calling Runtime holds. -/
def claimTerminalTaskRunEpoch (config : TaskRunConfig) (store : TaskRunStore)
    (runtimeEpoch : Option Nat) (runId : String) (expectedRevision selectedEpoch : Nat)
    (now : String) : Except TaskRunFault (TaskRunStore × TaskRunRecord) := do
  ensure (0 < selectedEpoch) .validation
  ensure (runtimeEpoch = some selectedEpoch) .revisionConflict
  claimRun config TaskRunStatus.terminal store runId expectedRevision selectedEpoch now

/-! ## Resume points -/

def hasPayload (store : TaskRunStore) (runId role payloadId : String) : Bool :=
  (store.payloads payloadId).any fun payload =>
    payload.runId == runId && payload.role == role && payload.plaintext

/-- The run, the process and the payloads are the ones that the point names. -/
def fencedPoint (store : TaskRunStore) (point : TaskRunResumePoint) : Bool :=
  (store.runs.get point.runId).any (fun run => run.runtimeEpoch == point.taskRunEpoch) &&
    (store.processes point.pid).any (fun process => process.taskRunId == some point.runId &&
      process.taskRunEpoch == some point.taskRunEpoch &&
      process.revision == point.processRevision) &&
    store.hasPayload point.runId "transcript" point.transcriptPayloadId &&
    point.summaryPayloadId.all (store.hasPayload point.runId "summary") &&
    point.pendingActionPayloadId.all (store.hasPayload point.runId "pending_action")

def putResumePoint (store : TaskRunStore) (point : TaskRunResumePoint) : TaskRunStore :=
  { store with
    resumePoints := fun pid => if pid = point.pid then some point else store.resumePoints pid }

def upsertTaskRunResumePoint (store : TaskRunStore) (point : TaskRunResumePoint) :
    Except TaskRunFault TaskRunStore := do
  ensure (0 < point.taskRunEpoch) .validation
  ensure (store.fencedPoint point) .revisionConflict
  match store.resumePoints point.pid with
  | none => .ok (store.putResumePoint point)
  | some existing =>
      if existing = point then .ok store
      else do
        ensure (existing.runId = point.runId ∧ existing.taskRunEpoch ≤ point.taskRunEpoch ∧
          existing.safePointSeq < point.safePointSeq) .revisionConflict
        -- the conflict clause leaves `created_at` as it is
        .ok (store.putResumePoint { point with createdAt := existing.createdAt })

/-! ## Commands -/

def encodedResult (config : TaskRunConfig) (result : Dict) : Except TaskRunFault Unit :=
  match config.encoder.canonicalLength (.dict result) with
  | none => .error .value
  | some length => ensure (length ≤ config.commandResultMaxBytes) .validation

/-- The no-op update of the counter that a command write starts with. -/
def fenceEpoch (store : TaskRunStore) (expectedRuntimeEpoch : Option Nat) :
    Except TaskRunFault Unit := do
  ensure (∀ epoch ∈ expectedRuntimeEpoch, 0 < epoch ∧ epoch ≤ 2 ^ 63 - 1) .validation
  ensure (∀ epoch ∈ expectedRuntimeEpoch, epoch = store.runtimeEpoch) .revisionConflict

/-- `_row_to_task_run_command`; the texts of a stored command passed its checks before. -/
def rowToTaskRunCommand (config : TaskRunConfig) (row : TaskRunCommand) :
    Except TaskRunFault TaskRunCommand :=
  if config.encoder.readable config.commandResultMaxBytes (.dict row.result) = true then .ok row
  else .error .validation

def insertTaskRunCommand (config : TaskRunConfig) (store : TaskRunStore) (command : TaskRunCommand)
    (expectedRuntimeEpoch : Option Nat) : Except TaskRunFault (TaskRunStore × TaskRunCommand) := do
  encodedResult config command.result
  store.fenceEpoch expectedRuntimeEpoch
  match store.commands.filter (·.sharesKey command) with
  | [] => do
      ensure ((store.runs.get command.runId).isSome) .integrity
      .ok ({ store with commands := store.commands ++ [command] }, command)
  | [row] => do
      let existing ← rowToTaskRunCommand config row
      ensure (existing.sameRequest command) .commandConflict
      .ok (store, existing)
  | _ => .error .commandConflict

def named (runId commandId : String) (command : TaskRunCommand) : Bool :=
  command.runId == runId && command.commandId == commandId

def updateTaskRunCommandResult (config : TaskRunConfig) (store : TaskRunStore)
    (runId commandId : String) (expectedResultRevision : Nat) (result : Dict)
    (resultRevision : Nat) (expectedRuntimeEpoch : Option Nat) :
    Except TaskRunFault (TaskRunStore × TaskRunCommand) := do
  ensure (expectedResultRevision ≤ resultRevision ∧ resultRevision ≤ 2 ^ 63 - 1) .validation
  encodedResult config result
  store.fenceEpoch expectedRuntimeEpoch
  match store.commands.find? (named runId commandId) with
  | none => .error .revisionConflict
  | some row =>
      if row.resultRevision = expectedResultRevision then do
        let persisted ←
          rowToTaskRunCommand config { row with result := result, resultRevision := resultRevision }
        .ok ({ store with
          commands := store.commands.map fun command =>
            if named runId commandId command then
              { command with result := result, resultRevision := resultRevision }
            else command }, persisted)
      else do
        let persisted ← rowToTaskRunCommand config row
        ensure (persisted.resultRevision = resultRevision ∧
          Value.eq (.dict persisted.result) (.dict result) = true) .revisionConflict
        .ok (store, persisted)

/-! ## The ledger -/

def appendTaskRunLedgerItem (config : TaskRunConfig) (store : TaskRunStore)
    (item : TaskRunLedgerItem) : Except TaskRunFault (TaskRunStore × TaskRunLedgerItem) :=
  match store.ledger.find? (·.itemId == item.itemId) with
  | some existing =>
      if existing.sameItem item = true then .ok (store, existing) else .error .validation
  | none => do
      ensure ((config.encoder.canonicalLength (.dict item.metadata)).isSome) .value
      ensure ((store.runs.get item.runId).isSome) .integrity
      let persisted := { item with seq := store.ledgerSeq + 1 }
      .ok ({ store with
        ledgerSeq := store.ledgerSeq + 1, ledger := store.ledger ++ [persisted] }, persisted)

end TaskRunStore

/-! ## Runtimes -/

variable {ρ : Type} [DecidableEq ρ]

/-- The store and the epochs that the Runtimes claimed, newest first. -/
structure World (ρ : Type) where
  store : TaskRunStore
  claims : List (ρ × Nat)

/-- The `runtime_epoch` of a Runtime. -/
def World.held (world : World ρ) (runtime : ρ) : Option Nat := world.claims.lookup runtime

inductive TaskRunCall
  | claimRuntimeEpoch (instanceId : String)
  | claimTaskRunEpoch (runId : String) (expectedRevision : Nat) (runtimeEpoch : Option Nat)
      (now : String)
  | claimTerminalTaskRunEpoch (runId : String) (expectedRevision : Nat)
      (runtimeEpoch : Option Nat) (now : String)
  | updateTaskRunCas (runId : String) (expectedRevision : Nat) (updates : List TaskRunUpdate)
      (expectedRuntimeEpoch : Option Nat) (now : String)
  | insertTaskRunCommand (command : TaskRunCommand) (expectedRuntimeEpoch : Option Nat)
  | updateTaskRunCommandResult (runId commandId : String) (expectedResultRevision : Nat)
      (result : Dict) (resultRevision : Nat) (expectedRuntimeEpoch : Option Nat)
  | upsertTaskRunResumePoint (point : TaskRunResumePoint)
  | appendTaskRunLedgerItem (item : TaskRunLedgerItem)

namespace World
open TaskRunStore

def withStore (world : World ρ) (store : TaskRunStore) : World ρ := ⟨store, world.claims⟩

/-- The increment of the counter, and the epoch that the Runtime holds from then on. -/
def claimRuntimeEpoch (world : World ρ) (runtime : ρ) (instanceId : String) :
    Except TaskRunFault (World ρ) :=
  if instanceId = "" ∨ '\x00' ∈ instanceId.toList then .error .validation
  else .ok
    ⟨{ world.store with runtimeEpoch := world.store.runtimeEpoch + 1 },
      (runtime, world.store.runtimeEpoch + 1) :: world.claims⟩

/-- The epoch that a claim of a run presents; without one, the claim is refused. -/
def selected (world : World ρ) (runtime : ρ) (runtimeEpoch : Option Nat) : Nat :=
  (runtimeEpoch <|> world.held runtime).getD 0

def exec (config : TaskRunConfig) (world : World ρ) :
    ρ × TaskRunCall → Except TaskRunFault (World ρ)
  | (runtime, .claimRuntimeEpoch instanceId) => world.claimRuntimeEpoch runtime instanceId
  | (runtime, .claimTaskRunEpoch runId expectedRevision runtimeEpoch now) =>
      (claimTaskRunEpoch config world.store runId expectedRevision
        (world.selected runtime runtimeEpoch) now).map fun result => world.withStore result.1
  | (runtime, .claimTerminalTaskRunEpoch runId expectedRevision runtimeEpoch now) =>
      (claimTerminalTaskRunEpoch config world.store (world.held runtime) runId expectedRevision
        (world.selected runtime runtimeEpoch) now).map fun result => world.withStore result.1
  | (_, .updateTaskRunCas runId expectedRevision updates expectedRuntimeEpoch now) =>
      (world.store.updateTaskRunCas config runId expectedRevision updates expectedRuntimeEpoch
        now).map fun result => world.withStore result.1
  | (_, .insertTaskRunCommand command expectedRuntimeEpoch) =>
      (insertTaskRunCommand config world.store command expectedRuntimeEpoch).map fun result =>
        world.withStore result.1
  | (_, .updateTaskRunCommandResult runId commandId expectedResultRevision result resultRevision
      expectedRuntimeEpoch) =>
      (updateTaskRunCommandResult config world.store runId commandId expectedResultRevision result
        resultRevision expectedRuntimeEpoch).map fun result => world.withStore result.1
  | (_, .upsertTaskRunResumePoint point) =>
      (world.store.upsertTaskRunResumePoint point).map world.withStore
  | (_, .appendTaskRunLedgerItem item) =>
      (appendTaskRunLedgerItem config world.store item).map fun result => world.withStore result.1

def step (config : TaskRunConfig) : World ρ → ρ × TaskRunCall → World ρ := transact (exec config)

end World
end AgentLibOS.TaskRuns
