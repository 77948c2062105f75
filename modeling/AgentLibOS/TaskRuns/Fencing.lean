import AgentLibOS.TaskRuns.Changes

namespace AgentLibOS.TaskRuns
open Library Library.Run Capability Processes TaskRunStore

variable {ρ : Type} {config : TaskRunConfig}

/-! ## Progress -/

def TaskRunCommand.request (command : TaskRunCommand) :
    String × Option String × String × String × Digest :=
  (command.commandId, command.clientRequestId, command.runId, command.commandKind,
    command.requestHash)

theorem sameRequest_iff {left right : TaskRunCommand} :
    left.sameRequest right = true ↔ left.request = right.request := by
  simp [TaskRunCommand.sameRequest, TaskRunCommand.request, and_assoc]

/-- The epoch of a run never decreases, and its revision grows with every change. -/
def TaskRunRecord.Advances (before after : TaskRunRecord) : Prop :=
  before.runtimeEpoch ≤ after.runtimeEpoch ∧ (after = before ∨ before.revision < after.revision)

theorem TaskRunRecord.Advances.refl (run : TaskRunRecord) : run.Advances run :=
  ⟨le_rfl, Or.inl rfl⟩

theorem TaskRunRecord.Advances.trans {first middle last : TaskRunRecord}
    (early : first.Advances middle) (late : middle.Advances last) : first.Advances last := by
  refine ⟨early.1.trans late.1, ?_⟩
  rcases late.2 with rfl | later
  · exact early.2
  · rcases early.2 with rfl | earlier
    · exact Or.inr later
    · exact Or.inr (earlier.trans later)

/-- What no call takes back. -/
structure World.Advances (before after : World ρ) : Prop where
  epoch : before.store.runtimeEpoch ≤ after.store.runtimeEpoch
  claims : before.claims <:+ after.claims
  runs : ∀ runId run, before.store.runs.get runId = some run →
    ∃ run', after.store.runs.get runId = some run' ∧ run.Advances run'
  points : ∀ pid point, before.store.resumePoints pid = some point →
    ∃ point', after.store.resumePoints pid = some point' ∧ point'.runId = point.runId ∧
      point.safePointSeq ≤ point'.safePointSeq
  commands : before.store.commands.map (·.request) <+: after.store.commands.map (·.request)
  ledger : before.store.ledger <+: after.store.ledger

namespace World
variable {world world' : World ρ} {event : ρ × TaskRunCall}

theorem Advances.refl (world : World ρ) : world.Advances world where
  epoch := le_rfl
  claims := List.suffix_rfl
  runs := fun _ run stored => ⟨run, stored, .refl run⟩
  points := fun _ point stored => ⟨point, stored, rfl, le_rfl⟩
  commands := List.prefix_rfl
  ledger := List.prefix_rfl

theorem Advances.trans {first middle last : World ρ} (early : first.Advances middle)
    (late : middle.Advances last) : first.Advances last where
  epoch := early.epoch.trans late.epoch
  claims := early.claims.trans late.claims
  runs := by
    intro runId run stored
    obtain ⟨run', stored', advances⟩ := early.runs runId run stored
    obtain ⟨run'', stored'', advances'⟩ := late.runs runId run' stored'
    exact ⟨run'', stored'', advances.trans advances'⟩
  points := by
    intro pid point stored
    obtain ⟨point', stored', same, later⟩ := early.points pid point stored
    obtain ⟨point'', stored'', same', later'⟩ := late.points pid point' stored'
    exact ⟨point'', stored'', same'.trans same, later.trans later'⟩
  commands := early.commands.trans late.commands
  ledger := early.ledger.trans late.ledger

theorem setRun_advances {store : TaskRunStore} {runId : String} {run written : TaskRunRecord}
    (stored : store.runs.get runId = some run) (epoch : run.runtimeEpoch ≤ written.runtimeEpoch)
    (revision : written.revision = run.revision + 1) (target : String) (before : TaskRunRecord)
    (found : store.runs.get target = some before) :
    ∃ after, (store.runs.set runId written).get target = some after ∧ before.Advances after := by
  by_cases same : target = runId
  · subst same
    rw [stored] at found
    cases found
    refine ⟨written, by simp, epoch, Or.inr ?_⟩
    omega
  · exact ⟨before, by simpa [same] using found, .refl before⟩

theorem named_request (runId commandId : String) (result : Dict) (revision : Nat)
    (commands : List TaskRunCommand) :
    (commands.map fun command => if named runId commandId command then
      { command with result := result, resultRevision := revision } else command).map
        (·.request) = commands.map (·.request) := by
  rw [List.map_map]
  apply List.map_congr_left
  intro command _
  change TaskRunCommand.request (if _ then _ else _) = _
  split <;> rfl

theorem Change.advances (change : Change config world event world') : world.Advances world' := by
  have unchanged := Advances.refl world
  cases change with
  | same => exact unchanged
  | epoch runtime =>
      exact { unchanged with
        epoch := Nat.le_succ _
        claims := List.suffix_cons _ _ }
  | update stored revision sameEpoch =>
      exact { unchanged with runs := setRun_advances stored sameEpoch.ge revision }
  | claim stored later revision claimed presented =>
      refine { unchanged with runs := setRun_advances stored ?_ revision }
      omega
  | @point pid written later =>
      refine { unchanged with points := ?_ }
      intro target before found
      by_cases same : target = pid
      · subst same
        obtain ⟨sameRun, advanced⟩ := later before found
        exact ⟨written, if_pos rfl, sameRun.symm, advanced.le⟩
      · exact ⟨before, (if_neg same).trans found, rfl, le_rfl⟩
  | command unused encoded asked =>
      refine { unchanged with commands := ?_ }
      change _ <+: List.map _ (_ ++ _)
      rw [List.map_append]
      exact List.prefix_append _ _
  | result encoded readable =>
      refine { unchanged with commands := ?_ }
      change _ <+: List.map _ (List.map _ _)
      rw [named_request]
  | ledger unused => exact { unchanged with ledger := List.prefix_append _ _ }

/-! ## Consistent worlds -/

structure Consistent (config : TaskRunConfig) (world : World ρ) : Prop where
  distinct : (world.claims.map (·.2)).Nodup
  claimed : ∀ epoch ∈ world.claims.map (·.2), epoch ≤ world.store.runtimeEpoch
  runs : ∀ runId run, world.store.runs.get runId = some run →
    run.runtimeEpoch ≤ world.store.runtimeEpoch
  commandIds : (world.store.commands.map (·.commandId)).Nodup
  clientRequestIds : (world.store.commands.filterMap (·.clientRequestId)).Nodup
  results : ∀ command ∈ world.store.commands, encodedResult config command.result = .ok ()
  itemIds : (world.store.ledger.map (·.itemId)).Nodup
  order : (world.store.ledger.map (·.seq)).Pairwise (· < ·)
  newest : ∀ item ∈ world.store.ledger, item.seq ≤ world.store.ledgerSeq

theorem commandIds_request (commands : List TaskRunCommand) :
    commands.map (·.commandId) = (commands.map (·.request)).map (·.1) := by
  rw [List.map_map]
  rfl

theorem clientRequestIds_request (commands : List TaskRunCommand) :
    commands.filterMap (·.clientRequestId) = (commands.map (·.request)).filterMap (·.2.1) := by
  rw [List.filterMap_map]
  rfl

theorem unused_key {commands : List TaskRunCommand} {command : TaskRunCommand}
    (unused : commands.filter (·.sharesKey command) = []) :
    (∀ stored ∈ commands, stored.commandId ≠ command.commandId) ∧
      ∀ stored ∈ commands, ∀ key, stored.clientRequestId = some key →
        command.clientRequestId ≠ some key := by
  have none : ∀ stored ∈ commands, ¬ stored.sharesKey command = true :=
    List.filter_eq_nil_iff.mp unused
  constructor
  · intro stored listed same
    apply none stored listed
    simp [TaskRunCommand.sharesKey, same]
  · intro stored listed key held same
    apply none stored listed
    simp [TaskRunCommand.sharesKey, held, same]

theorem setRun_le {store : TaskRunStore} {runId : String} {written : TaskRunRecord} {bound : Nat}
    (runs : ∀ runId run, store.runs.get runId = some run → run.runtimeEpoch ≤ bound)
    (fits : written.runtimeEpoch ≤ bound) (target : String) (run : TaskRunRecord)
    (stored : (store.runs.set runId written).get target = some run) : run.runtimeEpoch ≤ bound := by
  rw [Table.set_get] at stored
  split_ifs at stored
  · cases stored
    exact fits
  · exact runs target run stored

theorem Change.consistent (change : Change config world event world')
    (consistent : Consistent config world) : Consistent config world' := by
  cases change with
  | same => exact consistent
  | epoch runtime =>
      refine { consistent with
        distinct := ?_
        claimed := ?_
        runs := fun runId run stored => (consistent.runs runId run stored).trans (Nat.le_succ _) }
      · refine List.nodup_cons.mpr ⟨?_, consistent.distinct⟩
        intro again
        have := consistent.claimed _ again
        exact absurd this (Nat.not_succ_le_self _)
      · intro epoch listed
        rcases List.mem_cons.mp listed with rfl | older
        · exact le_rfl
        · exact (consistent.claimed epoch older).trans (Nat.le_succ _)
  | update stored revision sameEpoch =>
      have fits := consistent.runs _ _ stored
      exact { consistent with runs := setRun_le consistent.runs (sameEpoch.le.trans fits) }
  | claim stored later revision claimed presented =>
      have fits := consistent.claimed _ presented
      exact { consistent with runs := setRun_le consistent.runs (claimed.le.trans fits) }
  | point later => exact { consistent with }
  | @command command unused encoded asked =>
      obtain ⟨newId, newKey⟩ := unused_key unused
      refine { consistent with
        commandIds := ?_
        clientRequestIds := ?_
        results := ?_ }
      · change (List.map _ (_ ++ [command])).Nodup
        rw [List.map_append, List.nodup_append]
        refine ⟨consistent.commandIds, List.nodup_singleton _, ?_⟩
        intro id listed id' new
        obtain ⟨stored, inside, rfl⟩ := List.mem_map.mp listed
        obtain rfl := List.mem_singleton.mp new
        exact newId stored inside
      · change (List.filterMap _ (_ ++ [command])).Nodup
        rw [List.filterMap_append, List.nodup_append]
        refine ⟨consistent.clientRequestIds, ?_, ?_⟩
        · cases key : command.clientRequestId <;> simp [key]
        · intro id listed id' new same
          obtain ⟨stored, inside, held⟩ := List.mem_filterMap.mp listed
          obtain ⟨_, single, held'⟩ := List.mem_filterMap.mp new
          rw [List.mem_singleton.mp single, ← same] at held'
          exact newKey stored inside id held held'
      · intro stored listed
        rcases List.mem_append.mp listed with old | new
        · exact consistent.results stored old
        · obtain rfl := List.mem_singleton.mp new
          exact encoded
  | @result runId commandId result revision encoded readable =>
      have same := named_request runId commandId result revision world.store.commands
      refine { consistent with
        commandIds := ?_
        clientRequestIds := ?_
        results := ?_ }
      · change (List.map _ (List.map _ _)).Nodup
        rw [commandIds_request, same, ← commandIds_request]
        exact consistent.commandIds
      · change (List.filterMap _ (List.map _ _)).Nodup
        rw [clientRequestIds_request, same, ← clientRequestIds_request]
        exact consistent.clientRequestIds
      · intro stored listed
        obtain ⟨command, inside, rfl⟩ := List.mem_map.mp listed
        split
        · exact encoded
        · exact consistent.results command inside
  | @ledger item unused =>
      have fresh : ∀ stored ∈ world.store.ledger, stored.itemId ≠ item.itemId := by
        simpa using unused
      refine { consistent with
        itemIds := ?_
        order := ?_
        newest := ?_ }
      · change (List.map _ (_ ++ [_])).Nodup
        rw [List.map_append, List.nodup_append]
        refine ⟨consistent.itemIds, List.nodup_singleton _, ?_⟩
        intro id listed id' new
        obtain ⟨stored, inside, rfl⟩ := List.mem_map.mp listed
        obtain rfl := List.mem_singleton.mp new
        exact fresh stored inside
      · change (List.map _ (_ ++ [_])).Pairwise _
        rw [List.map_append, List.pairwise_append]
        refine ⟨consistent.order, List.pairwise_singleton _ _, ?_⟩
        intro seq listed seq' new
        obtain ⟨stored, inside, rfl⟩ := List.mem_map.mp listed
        obtain rfl := List.mem_singleton.mp new
        exact Nat.lt_succ_of_le (consistent.newest stored inside)
      · intro stored listed
        rcases List.mem_append.mp listed with old | new
        · exact (consistent.newest stored old).trans (Nat.le_succ _)
        · obtain rfl := List.mem_singleton.mp new
          exact le_rfl

/-! ## Bound processes -/

/-- Every process of the run has the epoch of the run. -/
def Bound (world : World ρ) (runId : String) : Prop :=
  ∀ run, world.store.runs.get runId = some run → ∀ pid process,
    world.store.processes pid = some process → process.taskRunId = some runId →
      process.taskRunEpoch = some run.runtimeEpoch

theorem claimed_bound {store : TaskRunStore} {runId : String} {written : TaskRunRecord}
    {epoch : Nat} (claimed : written.runtimeEpoch = epoch) {pid : String}
    {process : ProcessBinding}
    (listed : ((store.processes pid).map fun process =>
      if process.taskRunId = some runId then { process with taskRunEpoch := some epoch }
      else process) = some process) (member : process.taskRunId = some runId) :
    process.taskRunEpoch = some written.runtimeEpoch := by
  obtain ⟨before, _, rfl⟩ := Option.map_eq_some_iff.mp listed
  split_ifs at member ⊢ with held
  · rw [claimed]
  · exact absurd member held

theorem Change.bound (change : Change config world event world') {runId : String}
    (bound : Bound world runId) : Bound world' runId := by
  cases change with
  | @update target run written stored revision sameEpoch =>
      intro after found pid process listed member
      change (world.store.runs.set target written).get runId = some after at found
      rw [Table.set_get] at found
      split_ifs at found with same
      · cases found
        subst same
        rw [sameEpoch]
        exact bound run stored pid process listed member
      · exact bound after found pid process listed member
  | @claim target run written epoch stored later revision claimed presented =>
      intro after found pid process listed member
      change (world.store.runs.set target written).get runId = some after at found
      rw [Table.set_get] at found
      split_ifs at found with same
      · cases found
        subst same
        exact claimed_bound claimed listed member
      · obtain ⟨before, held, rfl⟩ := Option.map_eq_some_iff.mp listed
        split_ifs at member ⊢ with other
        · exact absurd (Option.some.inj (member.symm.trans other)) same
        · exact bound after found pid before held member
  | _ => exact bound

/-! ## Fences -/

/-- The run and the counter have reached the epoch. -/
def Fenced (world : World ρ) (runId : String) (epoch : Nat) : Prop :=
  (∃ run, world.store.runs.get runId = some run ∧ epoch ≤ run.runtimeEpoch) ∧
    epoch ≤ world.store.runtimeEpoch

theorem Fenced.advances {runId : String} {epoch : Nat} (fenced : Fenced world runId epoch)
    (advances : world.Advances world') : Fenced world' runId epoch := by
  obtain ⟨⟨run, stored, reached⟩, current⟩ := fenced
  obtain ⟨run', stored', later⟩ := advances.runs runId run stored
  exact ⟨⟨run', stored', reached.trans later.1⟩, current.trans advances.epoch⟩

theorem claimRun_fences {admits : TaskRunStatus → Bool} {runId now : String}
    {expectedRevision epoch : Nat} {result : TaskRunStore × TaskRunRecord}
    (done : claimRun config admits world.store runId expectedRevision epoch now = .ok result)
    (current : epoch ≤ world.store.runtimeEpoch) :
    Fenced (world.withStore result.1) runId epoch ∧ Bound (world.withStore result.1) runId := by
  obtain ⟨store', written⟩ := result
  obtain ⟨run, stored, later, revision, claimed, rfl⟩ := claimRun_ok done
  refine ⟨⟨⟨written, by simp [World.withStore], claimed.ge⟩, current⟩, ?_⟩
  intro after found pid process listed member
  change (world.store.runs.set runId written).get runId = some after at found
  rw [Table.set_get, if_pos rfl] at found
  cases found
  exact claimed_bound claimed listed member

section
variable [DecidableEq ρ]

theorem claim_fences (presents : Presents world event)
    (consistent : Consistent config world) (done : exec config world event = .ok world')
    {runId : String} {presented : Option Nat} (claims : event.2.claims = some (runId, presented)) :
    Fenced world' runId (world.selected event.1 presented) ∧ Bound world' runId := by
  obtain ⟨runtime, call⟩ := event
  have current (positive : 0 < world.selected runtime presented) :
      world.selected runtime presented ≤ world.store.runtimeEpoch := by
    have listed := selected_claimed presents claims positive
    exact consistent.claimed _ (List.mem_map_of_mem listed)
  cases call with
  | claimTaskRunEpoch target expectedRevision runtimeEpoch now =>
      cases claims
      obtain ⟨result, claim, rfl⟩ := map_eq_ok.mp done
      exact claimRun_fences claim (current (claimRun_positive claim))
  | claimTerminalTaskRunEpoch target expectedRevision runtimeEpoch now =>
      cases claims
      obtain ⟨result, claim, rfl⟩ := map_eq_ok.mp done
      have claim := (claimTerminalTaskRunEpoch_ok claim).2
      exact claimRun_fences claim (current (claimRun_positive claim))
  | _ => cases claims

theorem stale_refused {runId : String} {epoch : Nat}
    (fenced : Fenced world runId epoch) (stale : event.2.Stale runId epoch) :
    step config world event = world := by
  obtain ⟨⟨run, stored, reached⟩, current⟩ := fenced
  rcases transact_cases (exec config) world event with done | same
  · exfalso
    obtain ⟨runtime, call⟩ := event
    cases call with
    | updateTaskRunCas target expectedRevision updates expected now =>
        obtain ⟨⟨store', written⟩, update, _⟩ := map_eq_ok.mp done
        obtain ⟨run', stored', same, _⟩ := updateTaskRunCas_ok update
        cases expected with
        | none => exact stale
        | some presented =>
            obtain ⟨rfl, below⟩ := stale
            rw [stored] at stored'
            cases stored'
            have := same presented rfl
            omega
    | insertTaskRunCommand command expected =>
        obtain ⟨⟨store', returned⟩, insert, _⟩ := map_eq_ok.mp done
        have same := (insertTaskRunCommand_ok insert).1
        cases expected with
        | none => exact stale
        | some presented =>
            have below : presented < epoch := stale
            have := same presented rfl
            omega
    | updateTaskRunCommandResult target commandId expectedRevision result revision expected =>
        obtain ⟨⟨store', returned⟩, update, _⟩ := map_eq_ok.mp done
        have same := (updateTaskRunCommandResult_ok update).1
        cases expected with
        | none => exact stale
        | some presented =>
            have below : presented < epoch := stale
            have := same presented rfl
            omega
    | upsertTaskRunResumePoint point =>
        obtain ⟨store', upsert, _⟩ := map_eq_ok.mp done
        have point_fenced := (upsertTaskRunResumePoint_ok upsert).1
        obtain ⟨rfl, below⟩ := stale
        simp only [fencedPoint, stored, Option.any_some, Bool.and_eq_true, beq_iff_eq]
          at point_fenced
        have := point_fenced.1.1.1.1
        omega
    | _ => exact stale
  · exact same

/-! ## Runs -/

theorem run_advances {calls : List (ρ × TaskRunCall)}
    (presents : Meets (step config) Presents world calls) :
    world.Advances (run (step config) world calls) :=
  invariant_run (I := fun current => world.Advances current)
    (fun _ _ advances presents => advances.trans (step_change presents).advances) (.refl world)
    presents

theorem run_consistent {calls : List (ρ × TaskRunCall)} (consistent : Consistent config world)
    (presents : Meets (step config) Presents world calls) :
    Consistent config (run (step config) world calls) :=
  invariant_run (fun _ _ holds presents => (step_change presents).consistent holds) consistent
    presents

theorem run_bound {calls : List (ρ × TaskRunCall)} {runId : String} (bound : Bound world runId)
    (presents : Meets (step config) Presents world calls) :
    Bound (run (step config) world calls) runId :=
  invariant_run (I := fun current => Bound current runId)
    (fun _ _ holds presents => (step_change presents).bound holds) bound presents

end

end World
end AgentLibOS.TaskRuns
