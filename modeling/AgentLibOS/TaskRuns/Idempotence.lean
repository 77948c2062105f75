import AgentLibOS.TaskRuns.Fencing

namespace AgentLibOS.TaskRuns
open Library Library.Run Capability Processes TaskRunStore World

variable {ρ : Type} {config : TaskRunConfig} {world : World ρ}

/-! ## Command identities -/

theorem filterMap_injective {α β : Type*} {key : α → Option β} {rows : List α}
    (distinct : (rows.filterMap key).Nodup) {left right : α} (inLeft : left ∈ rows)
    (inRight : right ∈ rows) {value : β} (hasLeft : key left = some value)
    (hasRight : key right = some value) : left = right := by
  induction rows with
  | nil => cases inLeft
  | cons row rows ih =>
      have apart (other : α) (inside : other ∈ rows) (hasRow : key row = some value)
          (hasOther : key other = some value) : False := by
        rw [List.filterMap_cons_some hasRow] at distinct
        exact (List.nodup_cons.mp distinct).1 (List.mem_filterMap.mpr ⟨other, inside, hasOther⟩)
      have rest : (rows.filterMap key).Nodup := by
        cases held : key row with
        | none => rwa [List.filterMap_cons_none held] at distinct
        | some value =>
            rw [List.filterMap_cons_some held] at distinct
            exact (List.nodup_cons.mp distinct).2
      rcases List.mem_cons.mp inLeft with rfl | left'
      · rcases List.mem_cons.mp inRight with same | right'
        · exact same.symm
        · exact (apart right right' hasLeft hasRight).elim
      · rcases List.mem_cons.mp inRight with rfl | right'
        · exact (apart left left' hasRight hasLeft).elim
        · exact ih rest left' right'

theorem sameRequest_sharesKey {stored command : TaskRunCommand}
    (same : stored.sameRequest command = true) : stored.sharesKey command = true := by
  simp only [TaskRunCommand.sameRequest, Bool.and_eq_true] at same
  simp [TaskRunCommand.sharesKey, same.1.1.1.1]

/-- The stored command with the same identity is the only one that shares a key. -/
theorem same_request_rows (consistent : Consistent config world) {stored command : TaskRunCommand}
    (listed : stored ∈ world.store.commands) (same : stored.sameRequest command = true) :
    world.store.commands.filter (·.sharesKey command) = [stored] := by
  have request := sameRequest_iff.mp same
  simp only [TaskRunCommand.request, Prod.mk.injEq] at request
  obtain ⟨sameId, sameKey, _⟩ := request
  have only : ∀ row ∈ world.store.commands.filter (·.sharesKey command), row = stored := by
    intro row inside
    obtain ⟨member, shares⟩ := List.mem_filter.mp inside
    simp only [TaskRunCommand.sharesKey, Bool.or_eq_true, Bool.and_eq_true, beq_iff_eq] at shares
    rcases shares with id | ⟨present, key⟩
    · exact List.inj_on_of_nodup_map consistent.commandIds member listed (id.trans sameId.symm)
    · obtain ⟨value, held⟩ := Option.isSome_iff_exists.mp present
      exact filterMap_injective consistent.clientRequestIds member listed (key.trans held)
        (sameKey.trans held)
  have distinct : (world.store.commands.filter (·.sharesKey command)).Nodup :=
    (List.Nodup.of_map _ consistent.commandIds).filter _
  have member : stored ∈ world.store.commands.filter (·.sharesKey command) :=
    List.mem_filter.mpr ⟨listed, sameRequest_sharesKey same⟩
  have repeated := List.eq_replicate_of_mem only
  rw [repeated, List.nodup_replicate] at distinct
  have nonempty := List.length_pos_of_mem member
  rw [repeated, show (List.filter _ world.store.commands).length = 1 by omega]
  rfl

/-- A different command under a key that is taken is refused. -/
theorem other_request_refused (consistent : Consistent config world)
    {stored command : TaskRunCommand} (listed : stored ∈ world.store.commands)
    (shares : stored.sharesKey command = true) (other : stored.sameRequest command = false)
    (epoch : Option Nat) :
    ∃ fault, insertTaskRunCommand config world.store command epoch = .error fault := by
  cases outcome : insertTaskRunCommand config world.store command epoch with
  | error fault => exact ⟨fault, rfl⟩
  | ok result =>
      exfalso
      obtain ⟨store', returned⟩ := result
      have inside : stored ∈ world.store.commands.filter (·.sharesKey command) :=
        List.mem_filter.mpr ⟨listed, shares⟩
      obtain ⟨_, _, ⟨_, held, _, same⟩ | ⟨unused, _⟩⟩ :=
        insertTaskRunCommand_ok outcome
      · rw [same_request_rows consistent held same, List.mem_singleton] at inside
        subst inside
        rw [same] at other
        cases other
      · rw [unused] at inside
        cases inside

/-! ## Repeated commands -/

/-- Every admissible repetition of the stored command returns it and changes nothing. -/
def Repeats (config : TaskRunConfig) (store : TaskRunStore) (stored : TaskRunCommand) : Prop :=
  ∀ command epoch, stored.sameRequest command = true →
    encodedResult config command.result = .ok () → store.fenceEpoch epoch = .ok () →
      insertTaskRunCommand config store command epoch = .ok (store, stored)

/-- The stored result is one that the store reads back. -/
def ReadsBack (config : TaskRunConfig) (command : TaskRunCommand) : Prop :=
  config.encoder.readable config.commandResultMaxBytes (.dict command.result) = true

theorem insert_repeated (consistent : Consistent config world) {stored command : TaskRunCommand}
    (listed : stored ∈ world.store.commands) (same : stored.sameRequest command = true)
    {epoch : Option Nat} (encoded : encodedResult config command.result = .ok ())
    (fenced : world.store.fenceEpoch epoch = .ok ()) :
    insertTaskRunCommand config world.store command epoch =
      (rowToTaskRunCommand config stored).map fun row => (world.store, row) := by
  unfold insertTaskRunCommand
  rw [encoded, fenced, same_request_rows consistent listed same]
  change (rowToTaskRunCommand config stored >>= _) = _
  cases read : rowToTaskRunCommand config stored with
  | error fault => rfl
  | ok row =>
      obtain ⟨rfl, _⟩ := rowToTaskRunCommand_ok read
      change (ensure (row.sameRequest command = true) _ >>= _) = _
      rw [same]
      rfl

theorem repeats_iff (consistent : Consistent config world) {stored : TaskRunCommand}
    (listed : stored ∈ world.store.commands) :
    Repeats config world.store stored ↔ ReadsBack config stored := by
  constructor
  · intro repeats
    have itself := repeats stored none (sameRequest_iff.mpr rfl)
      (consistent.results stored listed) rfl
    rw [insert_repeated consistent listed (sameRequest_iff.mpr rfl)
      (consistent.results stored listed) rfl, map_eq_ok] at itself
    obtain ⟨row, read, _⟩ := itself
    exact (rowToTaskRunCommand_ok read).2
  · intro reads command epoch same encoded fenced
    rw [insert_repeated consistent listed same encoded fenced, rowToTaskRunCommand,
      if_pos (show _ = true from reads)]
    rfl

theorem World.Change.readsBack {world' : World ρ} {event : ρ × TaskRunCall}
    (change : Change config world event world')
    (inserted : ∀ command ∈ event.2.inserts, ReadsBack config command)
    (reads : ∀ stored ∈ world.store.commands, ReadsBack config stored) :
    ∀ stored ∈ world'.store.commands, ReadsBack config stored := by
  cases change with
  | command unused encoded asked =>
      intro stored listed
      rcases List.mem_append.mp listed with old | new
      · exact reads stored old
      · obtain rfl := List.mem_singleton.mp new
        exact inserted stored asked
  | result encoded readable =>
      intro stored listed
      obtain ⟨command, inside, rfl⟩ := List.mem_map.mp listed
      split
      · exact readable
      · exact reads command inside
  | _ => exact reads

section
variable [DecidableEq ρ]

theorem run_readsBack {calls : List (ρ × TaskRunCall)}
    (presents : Meets (step config) Presents world calls)
    (inserted : ∀ event ∈ calls, ∀ command ∈ event.2.inserts, ReadsBack config command)
    (reads : ∀ stored ∈ world.store.commands, ReadsBack config stored) :
    ∀ stored ∈ (run (step config) world calls).store.commands, ReadsBack config stored := by
  induction calls generalizing world with
  | nil => exact reads
  | cons event calls ih =>
      have here := inserted event List.mem_cons_self
      apply ih presents.2
      · intro later member
        exact inserted later (List.mem_cons_of_mem _ member)
      · exact (step_change presents.1).readsBack here reads

/-! ## Fencing of whole runs -/

/-- A run that was claimed in the run of calls: its processes follow it, and no write with an
older epoch changes anything any more. -/
theorem claimed_run_fenced {start : World ρ} (consistent : Consistent config start)
    {front back : List (ρ × TaskRunCall)} {event : ρ × TaskRunCall}
    (presents : Meets (step config) Presents start (front ++ event :: back))
    (accepted : (exec config (run (step config) start front) event).isOk = true) {runId : String}
    {presented : Option Nat} (claims : event.2.claims = some (runId, presented)) :
    Bound (run (step config) start (front ++ event :: back)) runId ∧
      ∀ write : ρ × TaskRunCall,
        write.2.Stale runId ((run (step config) start front).selected event.1 presented) →
          step config (run (step config) start (front ++ event :: back)) write =
            run (step config) start (front ++ event :: back) := by
  have before := run_consistent consistent presents.append
  obtain ⟨here, later⟩ := presents.later
  rw [run_append, run_cons]
  cases done : exec config (run (step config) start front) event with
  | error fault =>
      rw [done] at accepted
      cases accepted
  | ok world' =>
      obtain ⟨fenced, bound⟩ := claim_fences here before done claims
      have stepped : step config (run (step config) start front) event = world' :=
        transact_of_ok done
      rw [stepped] at later ⊢
      refine ⟨run_bound bound later, ?_⟩
      intro write stale
      exact stale_refused (fenced.advances (run_advances later)) stale

/-- Runs, commands and resume points are fenced by the epochs that the Runtimes claim, over any
interleaving of their calls; a stored command is repeated exactly when its result can be read
back. -/
theorem task_run_fencing (config : TaskRunConfig) (start : World ρ)
    (consistent : Consistent config start) (calls : List (ρ × TaskRunCall))
    (presents : Meets (step config) Presents start calls) :
    let last := run (step config) start calls
    start.Advances last ∧ Consistent config last ∧
      (∀ left right epoch, (left, epoch) ∈ last.claims → (right, epoch) ∈ last.claims →
        left = right) ∧
      (∀ runId, Bound start runId → Bound last runId) ∧
      (∀ front event back runId presented, calls = front ++ event :: back →
        (exec config (run (step config) start front) event).isOk = true →
        event.2.claims = some (runId, presented) →
          Bound last runId ∧ ∀ write : ρ × TaskRunCall,
            write.2.Stale runId ((run (step config) start front).selected event.1 presented) →
              step config last write = last) ∧
      (∀ stored ∈ last.store.commands, ∀ command epoch, stored.sharesKey command = true →
        stored.sameRequest command = false →
          ∃ fault, insertTaskRunCommand config last.store command epoch = .error fault) ∧
      (∀ stored ∈ last.store.commands,
        Repeats config last.store stored ↔ ReadsBack config stored) ∧
      ((∀ stored ∈ start.store.commands, ReadsBack config stored) →
        (∀ event ∈ calls, ∀ command ∈ event.2.inserts, ReadsBack config command) →
          ∀ stored ∈ last.store.commands, Repeats config last.store stored) := by
  intro last
  have sound : Consistent config last := run_consistent consistent presents
  refine ⟨run_advances presents, sound, ?_, ?_, ?_, ?_, ?_, ?_⟩
  · intro left right epoch first second
    have same := List.inj_on_of_nodup_map sound.distinct first second rfl
    exact congrArg Prod.fst same
  · intro runId bound
    exact run_bound bound presents
  · intro front event back runId presented split accepted claims
    subst split
    exact claimed_run_fenced consistent presents accepted claims
  · intro stored listed command epoch shares other
    exact other_request_refused sound listed shares other epoch
  · intro stored listed
    exact repeats_iff sound listed
  · intro reads inserted stored listed
    exact (repeats_iff sound listed).mpr (run_readsBack presents inserted reads stored listed)

end

/-! ## A result that nests too deep -/

/-- `json.dumps` follows a thousand containers. -/
def demoConfig : TaskRunConfig := ⟨⟨fun _ => "0.0", 1000⟩, 262144⟩

def demoRun : TaskRunRecord where
  runId := "run"
  status := .queued
  retention := .permanent
  revision := 0
  runtimeEpoch := 0
  rootPid := none
  activePid := none
  pauseGeneration := 0
  cancelGeneration := 0
  bindingHash := none
  blockers := []
  requirementCount := 0
  satisfiedRequirementCount := 0
  stepCount := 0
  completedStepCount := 0
  resultRef := none
  updatedAt := "t0"
  startedAt := none
  completedAt := none
  finalizedAt := none
  payloadsPurgedAt := none

def demoStart : World Nat where
  store :=
    { runtimeEpoch := 0
      ledgerSeq := 0
      runs := Table.empty.set "run" demoRun
      processes := fun pid => if pid = "root" then some ⟨some "run", some 0, 0⟩ else none
      payloads := fun _ => none
      resumePoints := fun _ => none
      commands := []
      ledger := [] }
  claims := []

theorem demoStart_consistent : Consistent demoConfig demoStart where
  distinct := List.nodup_nil
  claimed := by simp [demoStart]
  runs := by
    intro runId run stored
    simp only [demoStart, Table.set_get, Table.empty_get] at stored
    split_ifs at stored
    cases stored
    exact le_rfl
  commandIds := List.nodup_nil
  clientRequestIds := List.nodup_nil
  results := by simp [demoStart]
  itemIds := List.nodup_nil
  order := List.Pairwise.nil
  newest := by simp [demoStart]

/-- An older Runtime goes on after a newer one has claimed its run. -/
def demoCalls : List (Nat × TaskRunCall) :=
  [(1, .claimRuntimeEpoch "first"), (1, .claimTaskRunEpoch "run" 0 none "t1"),
    (2, .claimRuntimeEpoch "second"), (2, .claimTaskRunEpoch "run" 1 (some 2) "t2")]

theorem demo_stale_write :
    step demoConfig (run (step demoConfig) demoStart demoCalls)
        (1, .updateTaskRunCas "run" 2 [.counter .stepCount 5] (some 1) "t3") =
      run (step demoConfig) demoStart demoCalls := by
  have presents : Meets (step demoConfig) Presents demoStart demoCalls := by
    refine ⟨?_, ?_, ?_, ?_, trivial⟩
    · intro runId epoch claims
      cases claims
    · intro runId epoch claims
      cases claims
    · intro runId epoch claims
      cases claims
    · intro runId epoch claims
      cases claims
      decide
  have claimed := (task_run_fencing demoConfig demoStart demoStart_consistent demoCalls
    presents).2.2.2.2.1 (demoCalls.take 3) _ [] "run" (some 2) rfl (by decide) rfl
  exact claimed.2 _ ⟨rfl, by decide⟩

def nested : Nat → Value
  | 0 => .none
  | depth + 1 => .list [nested depth]

theorem nested_depth (depth : Nat) : jsonDepth (nested depth) = depth := by
  induction depth with
  | zero => rfl
  | succ depth ih => simp [nested, jsonDepth, listDepth, ih, Nat.add_comm]

theorem nested_length (floatText : ℚ → String) (depth : Nat) :
    jsonLength floatText (nested depth) = some (2 * depth + 4) := by
  induction depth with
  | zero => rfl
  | succ depth ih =>
      simp only [nested, jsonLength, listLength, ih]
      simp
      omega

def nestedCommand : TaskRunCommand where
  commandId := "command"
  clientRequestId := none
  runId := "run"
  commandKind := "pause"
  requestHash := ⟨"0000000000000000000000000000000000000000000000000000000000000000", by decide⟩
  result := [("value", nested 300)]
  resultRevision := 0
  createdAt := "t0"

theorem nestedCommand_encoded : encodedResult demoConfig nestedCommand.result = .ok () := by
  apply encodedResult_ok.mpr
  refine ⟨614, ?_, by decide⟩
  have depth : jsonDepth (.dict nestedCommand.result) ≤ demoConfig.encoder.maxDepth := by
    change _ ≤ 1000
    simp [nestedCommand, jsonDepth, dictDepth, nested_depth]
  rw [JsonEncoder.canonicalLength, if_pos depth]
  simp only [nestedCommand, jsonLength, dictLength, nested_length]
  decide

theorem nestedCommand_unreadable : ¬ ReadsBack demoConfig nestedCommand := by
  intro reads
  simp only [ReadsBack, JsonEncoder.readable, Bool.and_eq_true, decide_eq_true_eq] at reads
  have shallow := reads.1.2
  simp [nestedCommand, jsonDepth, dictDepth, nested_depth] at shallow

theorem nestedCommand_inserted :
    insertTaskRunCommand demoConfig demoStart.store nestedCommand none =
      .ok ({ demoStart.store with commands := [nestedCommand] }, nestedCommand) := by
  unfold insertTaskRunCommand
  rw [nestedCommand_encoded]
  rfl

/-- The insertion accepts a result that it cannot read back, so that the same command is refused
when it comes again. -/
theorem nested_result_not_repeated :
    insertTaskRunCommand demoConfig demoStart.store nestedCommand none =
        .ok ({ demoStart.store with commands := [nestedCommand] }, nestedCommand) ∧
      insertTaskRunCommand demoConfig { demoStart.store with commands := [nestedCommand] }
          nestedCommand none = .error .validation := by
  refine ⟨nestedCommand_inserted, ?_⟩
  have inserted : Change demoConfig demoStart (1, .insertTaskRunCommand nestedCommand none)
      (demoStart.withStore { demoStart.store with commands := [nestedCommand] }) :=
    .command rfl nestedCommand_encoded rfl
  have consistent := inserted.consistent demoStart_consistent
  have fenced : fenceEpoch { demoStart.store with commands := [nestedCommand] } none = .ok () := rfl
  have unread : rowToTaskRunCommand demoConfig nestedCommand = .error .validation :=
    if_neg nestedCommand_unreadable
  have refused := insert_repeated consistent (List.mem_singleton_self nestedCommand)
    (sameRequest_iff.mpr rfl) nestedCommand_encoded fenced
  rw [unread] at refused
  exact refused

end AgentLibOS.TaskRuns
