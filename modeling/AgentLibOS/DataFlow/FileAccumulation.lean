import AgentLibOS.DataFlow.FileLabels
import AgentLibOS.Library.Run
import Mathlib.Data.List.Nodup

namespace AgentLibOS.DataFlow
open Library.Run

namespace FileLabelRows
variable {rows rows' : FileLabelRows} {path other : String} {binding : FileLabelBinding}

/-! ## One binding more on a path -/

structure WellFormed (rows : FileLabelRows) : Prop where
  ids : (rows.map (·.bindingId)).Nodup
  single : ∀ left ∈ rows, ∀ right ∈ rows, left.active = true → right.active = true →
    left.normalizedPath = right.normalizedPath → left = right
  newest : ∀ row ∈ rows, row.active = true → ∀ old ∈ rows,
    old.normalizedPath = row.normalizedPath → old.generation ≤ row.generation

/-- The rows after a new active binding superseded the one on its path. -/
structure Extends (rows : FileLabelRows) (binding : FileLabelBinding) (rows' : FileLabelRows) :
    Prop where
  active : binding.active = true
  next : binding.generation = rows.generation binding.normalizedPath + 1
  fresh : ∀ row ∈ rows, row.bindingId ≠ binding.bindingId
  shape : rows' = binding :: rows.supersede (·.normalizedPath == binding.normalizedPath)

theorem le_generation {row : FileLabelBinding} (member : row ∈ rows) :
    row.generation ≤ rows.generation row.normalizedPath := by
  unfold generation
  have listed : row.generation ∈
      (rows.filter (·.normalizedPath == row.normalizedPath)).map (·.generation) :=
    List.mem_map_of_mem (List.mem_filter.mpr ⟨member, by simp⟩)
  generalize (rows.filter (·.normalizedPath == row.normalizedPath)).map (·.generation) = values
    at listed
  induction values with
  | nil => cases listed
  | cons value values ih =>
      rw [List.foldr_cons]
      rcases List.mem_cons.mp listed with same | later
      · rw [same]
        exact le_max_left _ _
      · exact (ih later).trans (le_max_right _ _)

theorem generation_le {bound : Nat}
    (all : ∀ row ∈ rows, row.normalizedPath = path → row.generation ≤ bound) :
    rows.generation path ≤ bound := by
  unfold generation
  induction rows with
  | nil => exact Nat.zero_le _
  | cons row rows ih =>
      have later := ih fun row member => all row (List.mem_cons_of_mem _ member)
      by_cases here : row.normalizedPath = path
      · rw [List.filter_cons_of_pos (by simpa using here), List.map_cons, List.foldr_cons]
        exact max_le (all row List.mem_cons_self here) later
      · rw [List.filter_cons_of_neg (by simpa using here)]
        exact later

@[simp] theorem generation_supersede (selects : FileLabelBinding → Bool) :
    (rows.supersede selects).generation path = rows.generation path := by
  unfold generation supersede
  induction rows with
  | nil => rfl
  | cons row rows ih =>
      rw [List.map_cons, List.filter_cons, List.filter_cons]
      split_ifs <;> simp_all

theorem generation_cons (binding : FileLabelBinding) (rows : FileLabelRows) (path : String) :
    generation (binding :: rows) path =
      if binding.normalizedPath = path then max binding.generation (rows.generation path)
      else rows.generation path := by
  unfold generation
  by_cases here : binding.normalizedPath = path <;> simp [here]

theorem mem_supersede {selects : FileLabelBinding → Bool} {row : FileLabelBinding}
    (member : row ∈ rows.supersede selects) :
    ∃ before ∈ rows, row.bindingId = before.bindingId ∧
      row.normalizedPath = before.normalizedPath ∧ row.generation = before.generation ∧
      (row.active = true → row = before ∧ selects before = false) := by
  obtain ⟨before, listed, rfl⟩ := List.mem_map.mp member
  refine ⟨before, listed, ?_⟩
  split_ifs with hit
  · exact ⟨rfl, rfl, rfl, fun active => by cases active⟩
  · refine ⟨rfl, rfl, rfl, fun active => ⟨rfl, ?_⟩⟩
    simpa [active] using hit

theorem ids_supersede (selects : FileLabelBinding → Bool) :
    (rows.supersede selects).map (·.bindingId) = rows.map (·.bindingId) := by
  unfold supersede
  rw [List.map_map]
  apply List.map_congr_left
  intro row _
  simp only [Function.comp_apply]
  split_ifs <;> rfl

theorem Extends.generation_self (extends_ : rows.Extends binding rows') :
    rows'.generation binding.normalizedPath = rows.generation binding.normalizedPath + 1 := by
  rw [extends_.shape, generation_cons, if_pos rfl, generation_supersede, extends_.next]
  exact max_eq_left (Nat.le_succ _)

theorem Extends.generation_other (extends_ : rows.Extends binding rows')
    (apart : binding.normalizedPath ≠ other) :
    rows'.generation other = rows.generation other := by
  rw [extends_.shape, generation_cons, if_neg apart, generation_supersede]

theorem Extends.wellFormed (wf : rows.WellFormed) (extends_ : rows.Extends binding rows') :
    rows'.WellFormed := by
  obtain ⟨active, next, fresh, rfl⟩ := extends_
  constructor
  · rw [List.map_cons, ids_supersede, List.nodup_cons]
    refine ⟨fun listed => ?_, wf.ids⟩
    obtain ⟨row, member, same⟩ := List.mem_map.mp listed
    exact fresh row member same
  · intro left left_in right right_in left_active right_active same
    rcases List.mem_cons.mp left_in with rfl | left_in
    · rcases List.mem_cons.mp right_in with rfl | right_in
      · rfl
      · obtain ⟨before, -, -, path_eq, -, kept⟩ := mem_supersede right_in
        have missed := (kept right_active).2
        rw [← path_eq, ← same, beq_self_eq_true] at missed
        cases missed
    · obtain ⟨before, before_in, -, path_eq, -, kept⟩ := mem_supersede left_in
      obtain ⟨rfl, missed⟩ := kept left_active
      rcases List.mem_cons.mp right_in with rfl | right_in
      · rw [same, beq_self_eq_true] at missed
        cases missed
      · obtain ⟨before', before'_in, -, -, -, kept'⟩ := mem_supersede right_in
        obtain ⟨rfl, -⟩ := kept' right_active
        exact wf.single _ before_in _ before'_in left_active right_active same
  · intro row row_in row_active old old_in same
    rcases List.mem_cons.mp row_in with rfl | row_in
    · rcases List.mem_cons.mp old_in with rfl | old_in
      · exact le_rfl
      · obtain ⟨before, before_in, -, path_eq, gen_eq, -⟩ := mem_supersede old_in
        have bound := le_generation before_in
        rw [← path_eq, same] at bound
        omega
    · obtain ⟨before, before_in, -, -, -, kept⟩ := mem_supersede row_in
      obtain ⟨rfl, missed⟩ := kept row_active
      rcases List.mem_cons.mp old_in with rfl | old_in
      · rw [same, beq_self_eq_true] at missed
        cases missed
      · obtain ⟨before', before'_in, -, path_eq, gen_eq, -⟩ := mem_supersede old_in
        rw [gen_eq]
        exact wf.newest _ before_in row_active _ before'_in (path_eq.symm.trans same)

/-! ## The live binding -/

theorem getFileLabelBinding_some (found : rows.getFileLabelBinding path = some binding) :
    binding ∈ rows ∧ binding.normalizedPath = path ∧ binding.active = true ∧
      binding.tombstoned = false := by
  have hit := List.find?_some found
  simp only [Bool.and_eq_true, beq_iff_eq, Bool.not_eq_true'] at hit
  exact ⟨List.mem_of_find?_eq_some found, hit.1.1, hit.1.2, hit.2⟩

theorem live_supersede_self :
    (rows.supersede (·.normalizedPath == path)).getFileLabelBinding path = none := by
  apply List.find?_eq_none.mpr
  intro row member hit
  simp only [Bool.and_eq_true, beq_iff_eq] at hit
  obtain ⟨before, -, -, path_eq, -, kept⟩ := mem_supersede member
  have missed := (kept hit.1.2).2
  rw [← path_eq, hit.1.1, beq_self_eq_true] at missed
  cases missed

theorem live_supersede_other (apart : path ≠ other) :
    (rows.supersede (·.normalizedPath == path)).getFileLabelBinding other =
      rows.getFileLabelBinding other := by
  unfold supersede getFileLabelBinding
  induction rows with
  | nil => rfl
  | cons row rows ih =>
      rw [List.map_cons, List.find?_cons, List.find?_cons, ih]
      by_cases here : row.normalizedPath = other
      · have missed : ¬ row.normalizedPath = path := fun same => apart (same.symm.trans here)
        simp [missed]
      · have missed : (row.normalizedPath == other) = false := by simpa using here
        split_ifs <;> simp only [missed, Bool.false_and]

theorem Extends.live_self (extends_ : rows.Extends binding rows') :
    rows'.getFileLabelBinding binding.normalizedPath =
      if binding.tombstoned then none else some binding := by
  have below := @live_supersede_self rows binding.normalizedPath
  have hit : (binding.normalizedPath == binding.normalizedPath && binding.active &&
      !binding.tombstoned) = !binding.tombstoned := by simp [extends_.active]
  rw [extends_.shape, getFileLabelBinding, List.find?_cons, hit]
  cases binding.tombstoned
  · rfl
  · exact below

theorem Extends.live_other (extends_ : rows.Extends binding rows')
    (apart : binding.normalizedPath ≠ other) :
    rows'.getFileLabelBinding other = rows.getFileLabelBinding other := by
  have below := @live_supersede_other rows _ other apart
  have missed : (binding.normalizedPath == other) = false := by simpa using apart
  rw [← below, extends_.shape, getFileLabelBinding, List.find?_cons, missed]
  rfl

/-! ## What the store operations write -/

theorem insert_ok (done : rows.insert binding = .ok rows') :
    (∀ row ∈ rows, row.bindingId ≠ binding.bindingId) ∧ rows' = binding :: rows := by
  unfold insert at done
  split_ifs at done with taken _
  refine ⟨fun row member same => taken ?_, (Except.ok.inj done).symm⟩
  exact List.any_eq_true.mpr ⟨row, member, by simpa using same⟩

theorem fresh_of_supersede {selects : FileLabelBinding → Bool} {bindingId : String}
    (fresh : ∀ row ∈ rows.supersede selects, row.bindingId ≠ bindingId) :
    ∀ row ∈ rows, row.bindingId ≠ bindingId := by
  intro row member same
  have listed : row.bindingId ∈ (rows.supersede selects).map (·.bindingId) := by
    rw [ids_supersede]
    exact List.mem_map_of_mem member
  obtain ⟨after, after_in, id_eq⟩ := List.mem_map.mp listed
  exact fresh after after_in (id_eq.trans same)

theorem upsert_ok (live : binding.active = true)
    (done : rows.upsertFileLabelBinding binding = .ok rows') : rows.Extends binding rows' := by
  unfold upsertFileLabelBinding at done
  split_ifs at done with stale
  obtain ⟨fresh, shape⟩ := insert_ok done
  exact ⟨live, not_not.mp stale, fresh_of_supersede fresh, shape⟩

/-- Under the invariant, superseding the live binding by its id supersedes its path. -/
theorem supersede_id (wf : rows.WellFormed) {previous : FileLabelBinding}
    (member : previous ∈ rows) (active : previous.active = true) :
    rows.supersede (·.bindingId == previous.bindingId) =
      rows.supersede (·.normalizedPath == previous.normalizedPath) := by
  apply List.map_congr_left
  intro row row_in
  have same : row.active = true →
      (row.bindingId = previous.bindingId ↔ row.normalizedPath = previous.normalizedPath) := by
    intro row_active
    constructor
    · intro id_eq
      rw [List.inj_on_of_nodup_map wf.ids row_in member id_eq]
    · intro path_eq
      rw [wf.single row row_in previous member row_active active path_eq]
  have agree : (row.bindingId == previous.bindingId && row.active) =
      (row.normalizedPath == previous.normalizedPath && row.active) := by
    cases row_active : row.active with
    | false => rw [Bool.and_false, Bool.and_false]
    | true =>
        rw [Bool.and_true, Bool.and_true, Bool.eq_iff_iff, beq_iff_eq, beq_iff_eq]
        exact same row_active
  rw [agree]

theorem tombstone_ok (wf : rows.WellFormed) {bindingId : String}
    {expectedBindingId : Option String} {expectedGeneration : Option Nat}
    {removed : Option FileLabelBinding}
    (done : rows.tombstoneFileLabelBinding path bindingId expectedBindingId expectedGeneration =
      .ok (rows', removed)) :
    (rows' = rows ∧ removed = none) ∨
    ∃ previous, rows.getFileLabelBinding path = some previous ∧
      (∀ id, expectedBindingId = some id → previous.bindingId = id) ∧
      removed = some (previous.tombstone bindingId) ∧
      rows.Extends (previous.tombstone bindingId) rows' := by
  unfold tombstoneFileLabelBinding at done
  split_ifs at done
  split at done
  · obtain ⟨rfl, rfl⟩ := Prod.mk.inj (Except.ok.inj done)
    exact Or.inl ⟨rfl, rfl⟩
  · rename_i previous found
    split_ifs at done with stale
    · obtain ⟨rfl, rfl⟩ := Prod.mk.inj (Except.ok.inj done)
      exact Or.inl ⟨rfl, rfl⟩
    · right
      obtain ⟨written, inserted, done⟩ := bind_eq_ok.mp done
      obtain ⟨rfl, rfl⟩ := Prod.mk.inj (Except.ok.inj done)
      obtain ⟨member, path_eq, active, -⟩ := getFileLabelBinding_some found
      obtain ⟨fresh, shape⟩ := insert_ok inserted
      refine ⟨previous, found, fun id given => ?_, rfl, rfl, ?_, fresh_of_supersede fresh, ?_⟩
      · rw [given] at stale
        simp only [Option.isSome_some, Bool.true_and, Bool.or_eq_true, not_or] at stale
        simpa using stale.1
      · have newest : rows.generation previous.normalizedPath = previous.generation := by
          apply le_antisymm
          · exact generation_le fun old old_in same => wf.newest _ member active old old_in same
          · exact le_generation member
        change previous.generation + 1 = rows.generation previous.normalizedPath + 1
        rw [newest]
      · rw [shape, supersede_id wf member active]
        rfl

/-- The live binding of the path carries what was bound, and there is none if nothing was. -/
def Carries (rows : FileLabelRows) (path : String) (bound : List DataFlowContext) : Prop :=
  match rows.getFileLabelBinding path with
  | none => bound = []
  | some binding =>
      bound ≠ [] ∧ binding.labels = (DataFlowContext.aggregate bound).labels ∧
        binding.sourceRefs = (DataFlowContext.aggregate bound).sourceRefs

/-- What a writer has read is no newer than the rows, and is the live binding if it is as new. -/
def Current (rows : FileLabelRows) : FileWriter → Prop
  | .idle => True
  | .generationRead write previousGeneration =>
      previousGeneration ≤ rows.generation write.normalizedPath
  | .previousRead write previousGeneration previous =>
      previousGeneration ≤ rows.generation write.normalizedPath ∧
        (previousGeneration = rows.generation write.normalizedPath →
          previous = rows.getFileLabelBinding write.normalizedPath)

theorem Current.extends {writer : FileWriter} (current : rows.Current writer)
    (extends_ : rows.Extends binding rows') : rows'.Current writer := by
  cases writer with
  | idle => trivial
  | generationRead write previousGeneration =>
      change _ ≤ _ at current
      by_cases here : binding.normalizedPath = write.normalizedPath
      · have grown := extends_.generation_self
        rw [here] at grown
        change _ ≤ _
        omega
      · change _ ≤ _
        rw [extends_.generation_other here]
        exact current
  | previousRead write previousGeneration previous =>
      obtain ⟨bound, same⟩ := current
      by_cases here : binding.normalizedPath = write.normalizedPath
      · have grown := extends_.generation_self
        rw [here] at grown
        exact ⟨by omega, fun equal => by omega⟩
      · rw [Current, extends_.generation_other here, extends_.live_other here]
        exact ⟨bound, same⟩

theorem Carries.kept {bound : List DataFlowContext} (carries : rows.Carries other bound)
    (extends_ : rows.Extends binding rows') (apart : binding.normalizedPath ≠ other) :
    rows'.Carries other bound := by
  unfold Carries at *
  rw [extends_.live_other apart]
  exact carries

/-- A write over the live binding carries its context on top of what was bound. -/
theorem Carries.write {sha256 : List UInt8 → String} {write : FileWrite} {bindingId : String}
    {previousGeneration : Nat} {bound : List DataFlowContext}
    (carries : rows.Carries write.normalizedPath bound)
    (extends_ : rows.Extends (write.binding sha256 bindingId previousGeneration
      (rows.getFileLabelBinding write.normalizedPath)) rows') :
    rows'.Carries write.normalizedPath (bound ++ [write.context]) := by
  have live := extends_.live_self
  change rows'.getFileLabelBinding write.normalizedPath = some _ at live
  unfold Carries at *
  rw [live]
  refine ⟨by simp, ?_⟩
  change (selectedContext _ _).labels = _ ∧ normalizeSourceRefs (selectedContext _ _).sourceRefs = _
  split at carries
  · rename_i missing
    rw [missing, carries]
    constructor
    · exact (DataLabels.aggregate_single write.context.labels).symm
    · simp only [selectedContext, DataFlowContext.aggregate, DataFlowContext.of,
        normalizeSourceRefs_idem, List.nil_append, List.flatMap_cons, List.flatMap_nil,
        List.append_nil]
  · rename_i previous found
    obtain ⟨some_, labels, refs⟩ := carries
    rw [found]
    simp only [selectedContext]
    rw [refs, labels]
    constructor
    · have nonempty : bound.map (·.labels) ≠ [] := by simpa using some_
      have appended := DataLabels.aggregate_append nonempty write.context.labels
      simpa [DataFlowContext.aggregate, DataFlowContext.of] using appended
    · rw [aggregate_sourceRefs_append]
      exact normalizeSourceRefs_idem _

end FileLabelRows

/-! ## Runs with the contexts that were bound -/

/-- A state with the contexts bound to each path since its last tombstone. -/
structure FileLabelHistory (κ : Type) where
  state : FileLabelState κ
  bound : String → List DataFlowContext

namespace FileLabelHistory
variable {κ : Type} [DecidableEq κ] (sha256 : List UInt8 → String)

def start : FileLabelHistory κ := ⟨.start, fun _ => []⟩

def rebound (history : FileLabelHistory κ) :
    FileLabelEvent κ → String → List DataFlowContext
  | .upsert writer bindingId =>
      match history.state.writers writer,
        history.state.written sha256 (.upsert writer bindingId) with
      | .previousRead write _ _, .ok _ =>
          Function.update history.bound write.normalizedPath
            (history.bound write.normalizedPath ++ [write.context])
      | _, _ => history.bound
  | .tombstone path bindingId expectedBindingId expectedGeneration =>
      match history.state.rows.tombstoneFileLabelBinding path bindingId expectedBindingId
        expectedGeneration with
      | .ok (_, some _) => Function.update history.bound path []
      | _ => history.bound
  | _ => history.bound

def step (history : FileLabelHistory κ) (event : FileLabelEvent κ) : FileLabelHistory κ where
  state := history.state.step sha256 event
  bound := history.rebound sha256 event

variable {history : FileLabelHistory κ}

/-- Everything an event can write. -/
theorem step_cases (wf : history.state.rows.WellFormed) (event : FileLabelEvent κ) :
    ((history.step sha256 event).state.rows = history.state.rows ∧
      (history.step sha256 event).bound = history.bound) ∨
    (∃ writer bindingId write previousGeneration previous, event = .upsert writer bindingId ∧
      history.state.writers writer = .previousRead write previousGeneration previous ∧
      history.state.rows.Extends (write.binding sha256 bindingId previousGeneration previous)
        (history.step sha256 event).state.rows ∧
      (history.step sha256 event).bound = Function.update history.bound write.normalizedPath
        (history.bound write.normalizedPath ++ [write.context])) ∨
    ∃ path bindingId expectedBindingId expectedGeneration previous,
      event = .tombstone path bindingId expectedBindingId expectedGeneration ∧
      history.state.rows.getFileLabelBinding path = some previous ∧
      (∀ id, expectedBindingId = some id → previous.bindingId = id) ∧
      history.state.rows.Extends (previous.tombstone bindingId)
        (history.step sha256 event).state.rows ∧
      (history.step sha256 event).bound = Function.update history.bound path [] := by
  cases event with
  | begin_ writer write =>
      left
      refine ⟨?_, rfl⟩
      simp only [step, FileLabelState.step, FileLabelState.written]
      split_ifs <;> rfl
  | readPrevious writer => exact Or.inl ⟨rfl, rfl⟩
  | upsert writer bindingId =>
      cases phase : history.state.writers writer with
      | idle =>
          left
          simp [step, FileLabelState.step, FileLabelState.written, rebound, phase]
      | generationRead write previousGeneration =>
          left
          simp [step, FileLabelState.step, FileLabelState.written, rebound, phase]
      | previousRead write previousGeneration previous =>
          cases done : history.state.rows.upsertFileLabelBinding
              (write.binding sha256 bindingId previousGeneration previous) with
          | error err =>
              left
              simp [step, FileLabelState.step, FileLabelState.written, rebound, phase, done]
          | ok written =>
              right; left
              refine ⟨writer, bindingId, write, previousGeneration, previous, rfl, phase, ?_, ?_⟩
              · simpa [step, FileLabelState.step, FileLabelState.written, phase, done]
                  using FileLabelRows.upsert_ok rfl done
              · simp [step, FileLabelState.written, rebound, phase, done]
  | tombstone path bindingId expectedBindingId expectedGeneration =>
      cases done : history.state.rows.tombstoneFileLabelBinding path bindingId expectedBindingId
          expectedGeneration with
      | error err =>
          left
          simp [step, FileLabelState.step, FileLabelState.written, rebound, done, Except.map]
      | ok result =>
          obtain ⟨written, removed⟩ := result
          rcases FileLabelRows.tombstone_ok wf done with ⟨rfl, rfl⟩ |
            ⟨previous, found, expected, rfl, extends_⟩
          · left
            simp [step, FileLabelState.step, FileLabelState.written, rebound, done, Except.map]
          · right; right
            refine ⟨path, bindingId, expectedBindingId, expectedGeneration, previous, rfl, found,
              expected, ?_, ?_⟩
            · simpa [step, FileLabelState.step, FileLabelState.written, done, Except.map]
                using extends_
            · simp [step, rebound, done]

variable {sha256}

/-! ## The invariant -/

structure Accumulates (history : FileLabelHistory κ) : Prop where
  wf : history.state.rows.WellFormed
  current : ∀ writer, history.state.rows.Current (history.state.writers writer)
  carries : ∀ path, history.state.rows.Carries path (history.bound path)

theorem current_update {rows : FileLabelRows} {writers : κ → FileWriter}
    (current : ∀ writer, rows.Current (writers writer)) {writer : κ} {phase : FileWriter}
    (fresh : rows.Current phase) (other : κ) :
    rows.Current (Function.update writers writer phase other) := by
  by_cases same : other = writer
  · rw [same, Function.update_self]
    exact fresh
  · rw [Function.update_of_ne same]
    exact current other

theorem current_advanced (current : ∀ writer, history.state.rows.Current
    (history.state.writers writer)) (event : FileLabelEvent κ) (other : κ) :
    history.state.rows.Current (history.state.advanced event other) := by
  cases event with
  | begin_ writer write =>
      apply current_update current
      split_ifs
      · exact le_rfl
      · trivial
  | readPrevious writer =>
      have known := current writer
      cases phase : history.state.writers writer with
      | idle =>
          simp only [FileLabelState.advanced, phase]
          exact current other
      | generationRead write previousGeneration =>
          rw [phase] at known
          simp only [FileLabelState.advanced, phase]
          apply current_update current
          exact ⟨known, fun _ => rfl⟩
      | previousRead write previousGeneration previous =>
          simp only [FileLabelState.advanced, phase]
          exact current other
  | upsert writer bindingId =>
      apply current_update current
      trivial
  | tombstone path bindingId expectedBindingId expectedGeneration => exact current other

theorem Accumulates.step (accumulates : history.Accumulates) (event : FileLabelEvent κ) :
    (history.step sha256 event).Accumulates := by
  obtain ⟨wf, current, carries⟩ := accumulates
  have advanced := current_advanced current event
  rcases step_cases sha256 wf event with ⟨rows, bound⟩ |
    ⟨writer, bindingId, write, previousGeneration, previous, rfl, phase, extends_, bound⟩ |
    ⟨path, bindingId, expectedBindingId, expectedGeneration, previous, rfl, found, -, extends_,
      bound⟩
  · refine ⟨by rw [rows]; exact wf, fun other => ?_, fun other => ?_⟩
    · rw [rows]
      exact advanced other
    · rw [rows, bound]
      exact carries other
  · refine ⟨extends_.wellFormed wf, fun other => (advanced other).extends extends_,
      fun other => ?_⟩
    have read := current writer
    rw [phase] at read
    obtain rfl := read.2 (by have := extends_.next; exact Nat.succ.inj this)
    rw [bound]
    by_cases same : write.normalizedPath = other
    · rw [← same, Function.update_self]
      exact (carries write.normalizedPath).write extends_
    · rw [Function.update_of_ne (Ne.symm same)]
      exact (carries other).kept extends_ same
  · refine ⟨extends_.wellFormed wf, fun other => (advanced other).extends extends_,
      fun other => ?_⟩
    have path_eq := (FileLabelRows.getFileLabelBinding_some found).2.1
    rw [bound]
    by_cases same : path = other
    · have gone := extends_.live_self
      change FileLabelRows.getFileLabelBinding _ previous.normalizedPath = none at gone
      rw [path_eq, same] at gone
      rw [← same, Function.update_self, FileLabelRows.Carries, same, gone]
    · rw [Function.update_of_ne (Ne.symm same)]
      apply (carries other).kept extends_
      change previous.normalizedPath ≠ other
      rw [path_eq]
      exact same

omit [DecidableEq κ] in
theorem accumulates_start : (start : FileLabelHistory κ).Accumulates :=
  ⟨⟨List.nodup_nil, List.forall_mem_nil _, List.forall_mem_nil _⟩, fun _ => trivial, fun _ => rfl⟩

theorem accumulates_run (events : List (FileLabelEvent κ)) :
    (run (step sha256) (start : FileLabelHistory κ) events).Accumulates :=
  @stable_run _ _ (step sha256) Accumulates (fun _ event accumulates => accumulates.step event) _
    events accumulates_start

/-! ## Generations -/

/-- The event changes nothing, or the bindings of one path, whose generation grows by one. -/
def Grows (before after : FileLabelHistory κ) : Prop :=
  (after.state.rows = before.state.rows ∧ after.bound = before.bound) ∨
  ∃ path, after.state.rows.generation path = before.state.rows.generation path + 1 ∧
    ∀ other, other ≠ path →
      after.state.rows.generation other = before.state.rows.generation other ∧
      after.state.rows.getFileLabelBinding other = before.state.rows.getFileLabelBinding other ∧
      after.bound other = before.bound other

theorem grows_step (wf : history.state.rows.WellFormed) (event : FileLabelEvent κ) :
    Grows history (history.step sha256 event) := by
  rcases step_cases sha256 wf event with same |
    ⟨writer, bindingId, write, previousGeneration, previous, rfl, phase, extends_, bound⟩ |
    ⟨path, bindingId, expectedBindingId, expectedGeneration, previous, rfl, found, -, extends_,
      bound⟩
  · exact Or.inl same
  · refine Or.inr ⟨write.normalizedPath, extends_.generation_self, fun other apart => ?_⟩
    refine ⟨extends_.generation_other (Ne.symm apart), extends_.live_other (Ne.symm apart), ?_⟩
    rw [bound, Function.update_of_ne apart]
  · have path_eq := (FileLabelRows.getFileLabelBinding_some found).2.1
    refine Or.inr ⟨path, ?_, fun other apart => ?_⟩
    · have grown := extends_.generation_self
      change FileLabelRows.generation _ previous.normalizedPath =
        FileLabelRows.generation _ previous.normalizedPath + 1 at grown
      rw [path_eq] at grown
      exact grown
    · have elsewhere : (previous.tombstone bindingId).normalizedPath ≠ other := by
        change previous.normalizedPath ≠ other
        rw [path_eq]
        exact Ne.symm apart
      refine ⟨extends_.generation_other elsewhere, extends_.live_other elsewhere, ?_⟩
      rw [bound, Function.update_of_ne apart]

omit [DecidableEq κ] in
theorem Grows.le {before after : FileLabelHistory κ} (grows : Grows before after) (path : String) :
    before.state.rows.generation path ≤ after.state.rows.generation path := by
  rcases grows with ⟨same, -⟩ | ⟨changed, grown, kept⟩
  · rw [same]
  · by_cases here : path = changed
    · rw [here, grown]
      exact Nat.le_succ _
    · rw [(kept path here).1]

/-! ## A lost race -/

/-- The call of the writer that began before is still between its store accesses. -/
def Midway (writer : κ) : FileLabelEvent κ → Prop
  | .begin_ other _ => other ≠ writer
  | .readPrevious _ => True
  | .upsert other _ => other ≠ writer
  | .tombstone .. => True

/-- The writer has read this generation, or its call has ended. -/
def Began (write : FileWrite) (generation : Nat) : FileWriter → Prop
  | .idle => True
  | .generationRead write' generation' => write' = write ∧ generation' = generation
  | .previousRead write' generation' _ => write' = write ∧ generation' = generation

theorem began_advanced {state : FileLabelState κ} {writer : κ} {write : FileWrite}
    {generation : Nat} (began : Began write generation (state.writers writer))
    {event : FileLabelEvent κ} (midway : Midway writer event) :
    Began write generation (state.advanced event writer) := by
  cases event with
  | begin_ other write' =>
      rw [FileLabelState.advanced, Function.update_of_ne (Ne.symm midway)]
      exact began
  | readPrevious other =>
      cases phase : state.writers other with
      | generationRead write' generation' =>
          simp only [FileLabelState.advanced, phase]
          by_cases same : other = writer
          · rw [same] at phase
            rw [phase] at began
            rw [same, Function.update_self]
            exact began
          · rw [Function.update_of_ne (Ne.symm same)]
            exact began
      | idle =>
          simp only [FileLabelState.advanced, phase]
          exact began
      | previousRead write' generation' previous =>
          simp only [FileLabelState.advanced, phase]
          exact began
  | upsert other bindingId =>
      rw [FileLabelState.advanced, Function.update_of_ne (Ne.symm midway)]
      exact began
  | tombstone path bindingId expectedBindingId expectedGeneration => exact began

theorem began_run {writer : κ} {write : FileWrite} {generation : Nat}
    {between : List (FileLabelEvent κ)} (midway : ∀ event ∈ between, Midway writer event)
    (began : Began write generation (history.state.writers writer)) :
    Began write generation ((run (step sha256) history between).state.writers writer) := by
  induction between generalizing history with
  | nil => exact began
  | cons event between ih =>
      apply ih
      · exact fun other member => midway other (List.mem_cons_of_mem _ member)
      · exact began_advanced began (midway event List.mem_cons_self)

omit [DecidableEq κ] in
theorem upsert_rejected {writer : κ} {write : FileWrite} {generation : Nat}
    (began : Began write generation (history.state.writers writer))
    (stale : history.state.rows.generation write.normalizedPath ≠ generation)
    (bindingId : String) :
    ∃ err, history.state.written sha256 (.upsert writer bindingId) = .error err := by
  cases phase : history.state.writers writer with
  | idle =>
      simp only [FileLabelState.written, phase]
      exact ⟨_, rfl⟩
  | generationRead write' generation' =>
      simp only [FileLabelState.written, phase]
      exact ⟨_, rfl⟩
  | previousRead write' generation' previous =>
      rw [phase] at began
      obtain ⟨rfl, rfl⟩ := began
      simp only [FileLabelState.written, phase]
      refine ⟨.generationConflict, ?_⟩
      apply if_pos
      intro same
      exact stale (Nat.succ.inj same).symm

theorem failed_step {event : FileLabelEvent κ} {err : FileLabelError}
    (failed : history.state.written sha256 event = .error err) :
    (history.step sha256 event).state.rows = history.state.rows ∧
      (history.step sha256 event).bound = history.bound := by
  constructor
  · simp only [step, FileLabelState.step, failed]
  · cases event with
    | begin_ writer write => rfl
    | readPrevious writer => rfl
    | upsert writer bindingId =>
        simp only [step, rebound]
        rw [failed]
        split
        · rename_i done
          cases done
        · rfl
    | tombstone path bindingId expectedBindingId expectedGeneration =>
        simp only [step, rebound]
        split
        · rename_i done
          simp [FileLabelState.written, done, Except.map] at failed
        · rfl

/-! ## Bindings that a snapshot shows -/

/-- The row is stored, active or superseded. -/
def Stored (rows : FileLabelRows) (binding : FileLabelBinding) : Prop :=
  ∃ row ∈ rows, row = binding ∨ row = { binding with active := false }

theorem stored_extends {rows rows' : FileLabelRows} {binding new : FileLabelBinding}
    (stored : Stored rows binding) (extends_ : rows.Extends new rows') : Stored rows' binding := by
  obtain ⟨row, member, shape⟩ := stored
  rw [extends_.shape]
  refine ⟨_, List.mem_cons_of_mem _ (List.mem_map_of_mem member), ?_⟩
  split_ifs
  · right
    rcases shape with rfl | rfl <;> rfl
  · exact shape

theorem stored_step {binding : FileLabelBinding} (wf : history.state.rows.WellFormed)
    (stored : Stored history.state.rows binding) (event : FileLabelEvent κ) :
    Stored (history.step sha256 event).state.rows binding := by
  rcases step_cases sha256 wf event with ⟨rows, -⟩ |
    ⟨_, _, _, _, _, -, -, extends_, -⟩ | ⟨_, _, _, _, _, -, -, -, extends_, -⟩
  · rw [rows]
    exact stored
  · exact stored_extends stored extends_
  · exact stored_extends stored extends_

variable (sha256) in
theorem stored_run {binding : FileLabelBinding} (accumulates : history.Accumulates)
    (stored : Stored history.state.rows binding) (events : List (FileLabelEvent κ)) :
    Stored (run (step sha256) history events).state.rows binding := by
  induction events generalizing history with
  | nil => exact stored
  | cons event events ih =>
      exact ih (accumulates.step event) (stored_step accumulates.wf stored event)

/-- The live binding with the id of a stored binding that was live is that binding. -/
theorem live_of_stored {rows : FileLabelRows} {binding live : FileLabelBinding} {path : String}
    (wf : rows.WellFormed) (stored : Stored rows binding) (active : binding.active = true)
    (found : rows.getFileLabelBinding path = some live) (same : live.bindingId = binding.bindingId) :
    live = binding := by
  obtain ⟨member, -, live_active, -⟩ := FileLabelRows.getFileLabelBinding_some found
  obtain ⟨row, row_in, shape⟩ := stored
  have id_eq : live.bindingId = row.bindingId := by
    rcases shape with rfl | rfl <;> exact same
  obtain rfl := List.inj_on_of_nodup_map wf.ids member row_in id_eq
  rcases shape with rfl | superseded
  · rfl
  · rw [superseded] at live_active
    cases live_active

/-! ## Every interleaving of writers and deleters -/

/-- The labels and sources of a live binding are those of everything bound since a tombstone. -/
def Faithful (history : FileLabelHistory κ) : Prop :=
  ∀ path binding, history.state.rows.getFileLabelBinding path = some binding →
    binding.labels = (DataFlowContext.aggregate (history.bound path)).labels ∧
    binding.sourceRefs = (DataFlowContext.aggregate (history.bound path)).sourceRefs ∧
    ∀ context ∈ history.bound path, context.labels.Conservative binding.labels

omit [DecidableEq κ] in
theorem Accumulates.faithful (accumulates : history.Accumulates) : history.Faithful := by
  intro path binding found
  have carries := accumulates.carries path
  rw [FileLabelRows.Carries, found] at carries
  obtain ⟨-, labels, refs⟩ := carries
  refine ⟨labels, refs, fun context member => ?_⟩
  rw [labels]
  exact DataLabels.aggregate_conservative (List.mem_map_of_mem member)

structure Sound (sha256 : List UInt8 → String) (history : FileLabelHistory κ) : Prop where
  single : ∀ left ∈ history.state.rows, ∀ right ∈ history.state.rows, left.active = true →
    right.active = true → left.normalizedPath = right.normalizedPath → left = right
  faithful : history.Faithful
  grows : ∀ event, Grows history (history.step sha256 event)
  failed : ∀ event err, history.state.written sha256 event = .error err →
    (history.step sha256 event).state.rows = history.state.rows ∧
      (history.step sha256 event).bound = history.bound
  /-- A writer that begins here fails once its path has changed before it writes. -/
  lostRace : ∀ writer write between, (∀ event ∈ between, Midway writer event) →
    let later := run (step sha256) (history.step sha256 (.begin_ writer write)) between
    later.state.rows.generation write.normalizedPath ≠
        history.state.rows.generation write.normalizedPath →
      ∀ bindingId, ∃ err, later.state.written sha256 (.upsert writer bindingId) = .error err
  /-- A tombstone that expects a binding seen here removes that binding or nothing. -/
  snapshot : ∀ path binding between bindingId,
    history.state.rows.getFileLabelBinding path = some binding →
    let later := run (step sha256) history between
    (later.step sha256 (.tombstone path bindingId (some binding.bindingId)
        (some binding.generation))).state.rows = later.state.rows ∨
      later.state.rows.getFileLabelBinding path = some binding

theorem lost_race (writer : κ) (write : FileWrite)
    (between : List (FileLabelEvent κ)) (midway : ∀ event ∈ between, Midway writer event)
    (changed : (run (step sha256)
        (history.step sha256 (.begin_ writer write)) between).state.rows.generation
          write.normalizedPath ≠ history.state.rows.generation write.normalizedPath)
    (bindingId : String) :
    ∃ err, (run (step sha256) (history.step sha256 (.begin_ writer write)) between).state.written
      sha256 (.upsert writer bindingId) = .error err := by
  apply upsert_rejected _ changed
  apply began_run midway
  have first : (history.step sha256 (.begin_ writer write)).state.writers writer =
      if write.accepted then
        .generationRead write (history.state.rows.generation write.normalizedPath)
      else .idle := Function.update_self ..
  rw [first]
  split_ifs
  · exact ⟨rfl, rfl⟩
  · trivial

theorem Accumulates.snapshot (accumulates : history.Accumulates) (path : String)
    (binding : FileLabelBinding) (between : List (FileLabelEvent κ)) (bindingId : String)
    (found : history.state.rows.getFileLabelBinding path = some binding) :
    let later := run (FileLabelHistory.step sha256) history between
    (later.step sha256 (.tombstone path bindingId (some binding.bindingId)
        (some binding.generation))).state.rows = later.state.rows ∨
      later.state.rows.getFileLabelBinding path = some binding := by
  intro later
  obtain ⟨member, -, active, -⟩ := FileLabelRows.getFileLabelBinding_some found
  have stored := stored_run sha256 accumulates ⟨binding, member, Or.inl rfl⟩ between
  have wf : later.state.rows.WellFormed :=
    (@stable_run _ _ (FileLabelHistory.step sha256) Accumulates
      (fun _ event accumulates => accumulates.step event) _ between accumulates).wf
  rcases step_cases sha256 wf (.tombstone path bindingId (some binding.bindingId)
      (some binding.generation)) with ⟨same, -⟩ | ⟨_, _, _, _, _, other, -⟩ |
    ⟨path', _, expectedBindingId, _, live, same, live_found, expected, -⟩
  · exact Or.inl same
  · cases other
  · right
    injection same with path_eq _ id_eq _
    rw [← path_eq] at live_found
    rw [live_found, live_of_stored wf stored active live_found (expected _ id_eq.symm)]

theorem file_labels_accumulate (sha256 : List UInt8 → String) (events : List (FileLabelEvent κ)) :
    (run (step sha256) start events).Sound sha256 := by
  have accumulates : (run (step sha256) (start : FileLabelHistory κ) events).Accumulates :=
    accumulates_run events
  exact ⟨accumulates.wf.single, accumulates.faithful, grows_step accumulates.wf,
    fun _ _ => failed_step, lost_race, accumulates.snapshot⟩

end FileLabelHistory
end AgentLibOS.DataFlow
