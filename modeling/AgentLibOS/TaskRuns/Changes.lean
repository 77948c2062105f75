import AgentLibOS.TaskRuns.Store

namespace AgentLibOS.TaskRuns
open Library Library.Run Capability Processes

variable {config : TaskRunConfig}

/-! ## What each operation does -/

namespace TaskRunStore
variable {store store' : TaskRunStore}

theorem updateTaskRunCas_ok {runId now : String} {expectedRevision : Nat}
    {updates : List TaskRunUpdate} {expected : Option Nat} {written : TaskRunRecord}
    (done : store.updateTaskRunCas config runId expectedRevision updates expected now =
      .ok (store', written)) :
    ∃ run, store.runs.get runId = some run ∧ (∀ epoch ∈ expected, run.runtimeEpoch = epoch) ∧
      written.revision = run.revision + 1 ∧ written.runtimeEpoch = run.runtimeEpoch ∧
      store' = { store with runs := store.runs.set runId written } := by
  simp only [updateTaskRunCas, bind_eq_ok, ensure_ok] at done
  obtain ⟨_, _, _, _, done⟩ := done
  split at done
  · cases done
  · next run stored =>
      simp only [bind_eq_ok, ensure_ok] at done
      obtain ⟨assigned, assigns, _, ⟨_, fenced⟩, _, _, _, _, done⟩ := done
      cases done
      have same := assigns_identity assigns
      simp only [TaskRunRecord.identity, Prod.mk.injEq] at same
      exact ⟨run, stored, fenced, rfl, same.2.2.2, rfl⟩

theorem claimRun_ok {admits : TaskRunStatus → Bool} {runId now : String}
    {expectedRevision epoch : Nat} {written : TaskRunRecord}
    (done : claimRun config admits store runId expectedRevision epoch now = .ok (store', written)) :
    ∃ run, store.runs.get runId = some run ∧ run.runtimeEpoch < epoch ∧
      written.revision = run.revision + 1 ∧ written.runtimeEpoch = epoch ∧
      store' = { store with
        runs := store.runs.set runId written
        processes := fun pid => (store.processes pid).map fun process =>
          if process.taskRunId = some runId then { process with taskRunEpoch := some epoch }
          else process } := by
  simp only [claimRun, bind_eq_ok, ensure_ok] at done
  obtain ⟨_, _, done⟩ := done
  split at done
  · cases done
  · next run stored =>
      simp only [bind_eq_ok, ensure_ok] at done
      obtain ⟨_, ⟨_, later, _⟩, _, _, done⟩ := done
      cases done
      exact ⟨run, stored, later, rfl, rfl, rfl⟩

theorem claimTerminalTaskRunEpoch_ok {held : Option Nat} {runId now : String}
    {expectedRevision epoch : Nat} {result : TaskRunStore × TaskRunRecord}
    (done : claimTerminalTaskRunEpoch config store held runId expectedRevision epoch now =
      .ok result) :
    held = some epoch ∧
      claimRun config TaskRunStatus.terminal store runId expectedRevision epoch now = .ok result := by
  simp only [claimTerminalTaskRunEpoch, bind_eq_ok, ensure_ok] at done
  obtain ⟨_, _, _, current, done⟩ := done
  exact ⟨current, done⟩

theorem upsertTaskRunResumePoint_ok {point : TaskRunResumePoint}
    (done : store.upsertTaskRunResumePoint point = .ok store') :
    store.fencedPoint point = true ∧
      (store' = store ∨ ∃ written, written.safePointSeq = point.safePointSeq ∧
        written.runId = point.runId ∧
        (∀ existing, store.resumePoints point.pid = some existing →
          existing.runId = point.runId ∧ existing.safePointSeq < point.safePointSeq) ∧
        store' = { store with
          resumePoints := fun pid =>
            if pid = point.pid then some written else store.resumePoints pid }) := by
  simp only [upsertTaskRunResumePoint, bind_eq_ok, ensure_ok] at done
  obtain ⟨_, _, _, fenced, done⟩ := done
  refine ⟨fenced, ?_⟩
  cases stored : store.resumePoints point.pid with
  | none =>
      simp only [stored] at done
      cases done
      right
      exact ⟨point, rfl, rfl, by simp, rfl⟩
  | some existing =>
      simp only [stored] at done
      split_ifs at done with same
      · cases done
        exact Or.inl rfl
      · simp only [bind_eq_ok, ensure_ok] at done
        obtain ⟨_, ⟨sameRun, _, later⟩, done⟩ := done
        cases done
        right
        refine ⟨{ point with createdAt := existing.createdAt }, rfl, rfl, ?_, rfl⟩
        intro other found
        cases found
        exact ⟨sameRun, later⟩

theorem encodedResult_ok {result : Dict} {accepted : Unit} :
    encodedResult config result = .ok accepted ↔
      ∃ length, config.encoder.canonicalLength (.dict result) = some length ∧
        length ≤ config.commandResultMaxBytes := by
  unfold encodedResult
  cases config.encoder.canonicalLength (.dict result) with
  | none => simp
  | some length => simp [ensure_ok]

theorem fenceEpoch_ok {expected : Option Nat} {accepted : Unit}
    (done : store.fenceEpoch expected = .ok accepted) : ∀ epoch ∈ expected, epoch = store.runtimeEpoch := by
  simp only [fenceEpoch, bind_eq_ok, ensure_ok] at done
  obtain ⟨_, _, current⟩ := done
  exact current

theorem rowToTaskRunCommand_ok {row command : TaskRunCommand}
    (done : rowToTaskRunCommand config row = .ok command) :
    command = row ∧
      config.encoder.readable config.commandResultMaxBytes (.dict row.result) = true := by
  unfold rowToTaskRunCommand at done
  split_ifs at done with readable
  cases done
  exact ⟨rfl, readable⟩

theorem insertTaskRunCommand_ok {command returned : TaskRunCommand} {expected : Option Nat}
    (done : insertTaskRunCommand config store command expected = .ok (store', returned)) :
    (∀ epoch ∈ expected, epoch = store.runtimeEpoch) ∧
      encodedResult config command.result = .ok () ∧
      (store' = store ∧ returned ∈ store.commands ∧ returned.sharesKey command = true ∧
          returned.sameRequest command = true ∨
        store.commands.filter (·.sharesKey command) = [] ∧ returned = command ∧
          store' = { store with commands := store.commands ++ [command] }) := by
  simp only [insertTaskRunCommand, bind_eq_ok] at done
  obtain ⟨_, encoded, _, fenced, done⟩ := done
  refine ⟨fenceEpoch_ok fenced, encoded, ?_⟩
  split at done
  · next unused =>
      simp only [bind_eq_ok, ensure_ok] at done
      obtain ⟨_, _, done⟩ := done
      cases done
      exact Or.inr ⟨unused, rfl, rfl⟩
  · next row rows =>
      simp only [bind_eq_ok, ensure_ok] at done
      obtain ⟨existing, read, _, same, done⟩ := done
      cases done
      obtain ⟨rfl, _⟩ := rowToTaskRunCommand_ok read
      have listed : returned ∈ store.commands.filter (·.sharesKey command) := by
        rw [rows]
        exact List.mem_singleton_self returned
      obtain ⟨stored, shares⟩ := List.mem_filter.mp listed
      exact Or.inl ⟨rfl, stored, shares, same⟩
  · cases done

theorem updateTaskRunCommandResult_ok {runId commandId : String} {expectedRevision revision : Nat}
    {result : Dict} {expected : Option Nat} {returned : TaskRunCommand}
    (done : updateTaskRunCommandResult config store runId commandId expectedRevision result revision
      expected = .ok (store', returned)) :
    (∀ epoch ∈ expected, epoch = store.runtimeEpoch) ∧
      (store' = store ∨
        encodedResult config result = .ok () ∧
        config.encoder.readable config.commandResultMaxBytes (.dict result) = true ∧
        store' = { store with
          commands := store.commands.map fun command =>
            if named runId commandId command then
              { command with result := result, resultRevision := revision }
            else command }) := by
  simp only [updateTaskRunCommandResult, bind_eq_ok] at done
  obtain ⟨_, _, _, encoded, _, fenced, done⟩ := done
  refine ⟨fenceEpoch_ok fenced, ?_⟩
  split at done
  · cases done
  · next row found =>
      split_ifs at done with current
      · simp only [bind_eq_ok] at done
        obtain ⟨persisted, read, done⟩ := done
        cases done
        exact Or.inr ⟨encoded, (rowToTaskRunCommand_ok read).2, rfl⟩
      · simp only [bind_eq_ok] at done
        obtain ⟨persisted, _, _, _, done⟩ := done
        cases done
        exact Or.inl rfl

theorem appendTaskRunLedgerItem_ok {item returned : TaskRunLedgerItem}
    (done : appendTaskRunLedgerItem config store item = .ok (store', returned)) :
    store' = store ∨ store.ledger.find? (·.itemId == item.itemId) = none ∧
      store' = { store with
        ledgerSeq := store.ledgerSeq + 1
        ledger := store.ledger ++ [{ item with seq := store.ledgerSeq + 1 }] } := by
  unfold appendTaskRunLedgerItem at done
  split at done
  · split_ifs at done
    cases done
    exact Or.inl rfl
  · next unused =>
      simp only [bind_eq_ok, ensure_ok] at done
      obtain ⟨_, _, _, _, done⟩ := done
      cases done
      exact Or.inr ⟨unused, rfl⟩

end TaskRunStore

/-! ## Changes of the world -/

namespace TaskRunCall

/-- The run that the call claims, and the epoch that it presents. -/
def claims : TaskRunCall → Option (String × Option Nat)
  | .claimTaskRunEpoch runId _ runtimeEpoch _ => some (runId, runtimeEpoch)
  | .claimTerminalTaskRunEpoch runId _ runtimeEpoch _ => some (runId, runtimeEpoch)
  | _ => none

/-- The write presents an epoch below the one at which the run was claimed. -/
def Stale (runId : String) (epoch : Nat) : TaskRunCall → Prop
  | .updateTaskRunCas target _ _ (some presented) _ => target = runId ∧ presented < epoch
  | .insertTaskRunCommand _ (some presented) => presented < epoch
  | .updateTaskRunCommandResult _ _ _ _ _ (some presented) => presented < epoch
  | .upsertTaskRunResumePoint point => point.runId = runId ∧ point.taskRunEpoch < epoch
  | _ => False

/-- The command that the call inserts. -/
def inserts : TaskRunCall → Option TaskRunCommand
  | .insertTaskRunCommand command _ => some command
  | _ => none

end TaskRunCall

namespace World
open TaskRunStore

variable {ρ : Type} {world world' : World ρ} {event : ρ × TaskRunCall}

/-- A Runtime that claims a run presents an epoch that it claimed itself. -/
def Presents (world : World ρ) (event : ρ × TaskRunCall) : Prop :=
  ∀ runId epoch, event.2.claims = some (runId, some epoch) → (event.1, epoch) ∈ world.claims

inductive Change (config : TaskRunConfig) (world : World ρ) (event : ρ × TaskRunCall) :
    World ρ → Prop
  | same : Change config world event world
  | epoch (runtime : ρ) : Change config world event
      ⟨{ world.store with runtimeEpoch := world.store.runtimeEpoch + 1 },
        (runtime, world.store.runtimeEpoch + 1) :: world.claims⟩
  | update {runId : String} {run written : TaskRunRecord}
      (stored : world.store.runs.get runId = some run)
      (revision : written.revision = run.revision + 1)
      (sameEpoch : written.runtimeEpoch = run.runtimeEpoch) :
      Change config world event
        (world.withStore { world.store with runs := world.store.runs.set runId written })
  | claim {runId : String} {run written : TaskRunRecord} {epoch : Nat}
      (stored : world.store.runs.get runId = some run) (later : run.runtimeEpoch < epoch)
      (revision : written.revision = run.revision + 1) (claimed : written.runtimeEpoch = epoch)
      (presented : epoch ∈ world.claims.map (·.2)) :
      Change config world event (world.withStore { world.store with
        runs := world.store.runs.set runId written
        processes := fun pid => (world.store.processes pid).map fun process =>
          if process.taskRunId = some runId then { process with taskRunEpoch := some epoch }
          else process })
  | point {pid : String} {written : TaskRunResumePoint}
      (later : ∀ existing, world.store.resumePoints pid = some existing →
        existing.runId = written.runId ∧ existing.safePointSeq < written.safePointSeq) :
      Change config world event (world.withStore { world.store with
        resumePoints := fun pid' =>
          if pid' = pid then some written else world.store.resumePoints pid' })
  | command {command : TaskRunCommand}
      (unused : world.store.commands.filter (·.sharesKey command) = [])
      (encoded : encodedResult config command.result = .ok ())
      (asked : event.2.inserts = some command) :
      Change config world event
        (world.withStore { world.store with commands := world.store.commands ++ [command] })
  | result {runId commandId : String} {result : Dict} {revision : Nat}
      (encoded : encodedResult config result = .ok ())
      (readable : config.encoder.readable config.commandResultMaxBytes (.dict result) = true) :
      Change config world event (world.withStore { world.store with
        commands := world.store.commands.map fun command =>
          if named runId commandId command then
            { command with result := result, resultRevision := revision }
          else command })
  | ledger {item : TaskRunLedgerItem}
      (unused : world.store.ledger.find? (·.itemId == item.itemId) = none) :
      Change config world event (world.withStore { world.store with
        ledgerSeq := world.store.ledgerSeq + 1
        ledger := world.store.ledger ++ [{ item with seq := world.store.ledgerSeq + 1 }] })

theorem claimRun_change {admits : TaskRunStatus → Bool} {runId now : String}
    {expectedRevision epoch : Nat} {result : TaskRunStore × TaskRunRecord}
    (done : claimRun config admits world.store runId expectedRevision epoch now = .ok result)
    (presented : epoch ∈ world.claims.map (·.2)) :
    Change config world event (world.withStore result.1) := by
  obtain ⟨store', written⟩ := result
  obtain ⟨run, stored, later, revision, claimed, rfl⟩ := claimRun_ok done
  exact .claim stored later revision claimed presented

section
variable [DecidableEq ρ]

theorem held_claimed {runtime : ρ} {epoch : Nat} (held : world.held runtime = some epoch) :
    (runtime, epoch) ∈ world.claims := by
  obtain ⟨before, after, split, _⟩ := List.lookup_eq_some_iff.mp held
  rw [split]
  exact List.mem_append_right _ List.mem_cons_self

/-- The epoch that a claim selects is one of those that the Runtime claimed. -/
theorem selected_claimed (presents : Presents world event)
    {runId : String} {presented : Option Nat} (claims : event.2.claims = some (runId, presented))
    (positive : 0 < world.selected event.1 presented) :
    (event.1, world.selected event.1 presented) ∈ world.claims := by
  cases presented with
  | some epoch => exact presents runId epoch claims
  | none =>
      cases held : world.held event.1 with
      | none => simp [World.selected, held] at positive
      | some epoch =>
          have : world.selected event.1 none = epoch := by simp [World.selected, held]
          rw [this]
          exact held_claimed held

theorem claimRun_positive {admits : TaskRunStatus → Bool} {store : TaskRunStore}
    {runId now : String} {expectedRevision epoch : Nat} {result : TaskRunStore × TaskRunRecord}
    (done : claimRun config admits store runId expectedRevision epoch now = .ok result) :
    0 < epoch := by
  obtain ⟨store', written⟩ := result
  obtain ⟨run, _, later, _⟩ := claimRun_ok done
  omega

theorem exec_change (presents : Presents world event)
    (done : exec config world event = .ok world') : Change config world event world' := by
  obtain ⟨runtime, call⟩ := event
  cases call with
  | claimRuntimeEpoch instanceId =>
      simp only [exec, claimRuntimeEpoch] at done
      split_ifs at done
      cases done
      exact .epoch runtime
  | claimTaskRunEpoch runId expectedRevision runtimeEpoch now =>
      obtain ⟨result, claim, rfl⟩ := map_eq_ok.mp done
      have held := selected_claimed presents rfl (claimRun_positive claim)
      exact claimRun_change claim (List.mem_map_of_mem held)
  | claimTerminalTaskRunEpoch runId expectedRevision runtimeEpoch now =>
      obtain ⟨result, claim, rfl⟩ := map_eq_ok.mp done
      have claim := (claimTerminalTaskRunEpoch_ok claim).2
      have held := selected_claimed presents rfl (claimRun_positive claim)
      exact claimRun_change claim (List.mem_map_of_mem held)
  | updateTaskRunCas runId expectedRevision updates expectedRuntimeEpoch now =>
      obtain ⟨⟨store', written⟩, update, rfl⟩ := map_eq_ok.mp done
      obtain ⟨run, stored, _, revision, sameEpoch, rfl⟩ := updateTaskRunCas_ok update
      exact .update stored revision sameEpoch
  | insertTaskRunCommand command expectedRuntimeEpoch =>
      obtain ⟨⟨store', returned⟩, insert, rfl⟩ := map_eq_ok.mp done
      obtain ⟨_, encoded, ⟨rfl, _⟩ | ⟨unused, _, rfl⟩⟩ := insertTaskRunCommand_ok insert
      · exact .same
      · exact .command unused encoded rfl
  | updateTaskRunCommandResult runId commandId expectedResultRevision result resultRevision
      expectedRuntimeEpoch =>
      obtain ⟨⟨store', returned⟩, update, rfl⟩ := map_eq_ok.mp done
      obtain ⟨_, rfl | ⟨encoded, readable, rfl⟩⟩ := updateTaskRunCommandResult_ok update
      · exact .same
      · exact .result encoded readable
  | upsertTaskRunResumePoint point =>
      obtain ⟨store', upsert, rfl⟩ := map_eq_ok.mp done
      obtain ⟨_, rfl | ⟨written, seq, sameRun, later, rfl⟩⟩ := upsertTaskRunResumePoint_ok upsert
      · exact .same
      · refine .point ?_
        rw [seq, sameRun]
        exact later
  | appendTaskRunLedgerItem item =>
      obtain ⟨⟨store', returned⟩, append, rfl⟩ := map_eq_ok.mp done
      obtain rfl | ⟨unused, rfl⟩ := appendTaskRunLedgerItem_ok append
      · exact .same
      · exact .ledger unused

theorem step_change (presents : Presents world event) :
    Change config world event (step config world event) := by
  rcases transact_cases (exec config) world event with done | same
  · exact exec_change presents done
  · rw [step, same]
    exact .same

end
end World
end AgentLibOS.TaskRuns
