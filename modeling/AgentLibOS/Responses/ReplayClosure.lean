import AgentLibOS.Responses.ItemSteps

namespace AgentLibOS.Responses
open Capability Library Library.Run Library.Metered

variable {output : Bool} {provider : Option String}

/-! ## Copies of lists -/

theorem within_zero : (0 : WireCount).Within := ⟨Nat.zero_le _, Nat.zero_le _⟩

theorem items_meets {left : Nat} {wires : List WireValue} {values : List Value}
    (few : wires.length ≤ maxNodes)
    (each : List.Forall₂ (fun wire value =>
      Meets WireCount.Within (copy left wire) value (wireSize left wire)) wires values) :
    Meets WireCount.Within (copy (left + 1) (.items wires)) (.list values)
      (wireSize (left + 1) (.items wires)) :=
  Meets.bind within_down enter_meets
    (Meets.checked few within_down (Meets.map Value.list within_down (Meets.mapM within_down each)))

theorem items_returns {left : Nat} {wires : List WireValue} {value : Value}
    (returns : Returns WireCount.Within (copy (left + 1) (.items wires)) value
      (wireSize (left + 1) (.items wires))) :
    ∃ values, value = .list values ∧ wires.length ≤ maxNodes ∧
      List.Forall₂ (fun wire value =>
        Returns WireCount.Within (copy left wire) value (wireSize left wire)) wires values := by
  obtain ⟨_, c, _, start, last, done⟩ := Regular.bind_returns (.inl ⟨_, enter_meets⟩) returns
  have inside := (copyInside_regular (copy_regular left) left (.items wires)).returns start done
  obtain ⟨few, mapped⟩ := checked_returns inside
  obtain ⟨values, rfl, c', start', done'⟩ :=
    (Regular.mapM within_down fun wire _ => copy_regular left wire).map_returns mapped
  exact ⟨values, rfl, few, mapM_returns (fun wire _ => copy_regular left wire) start' done'⟩

/-- The list is copied to the values. -/
def Copied (wires : List WireValue) (values : List Value) : Prop :=
  ∃ count, copy (maxDepth + 1) (.items wires) 0 = .ok (.list values, count)

theorem copied_each {wires : List WireValue} {values : List Value} (copied : Copied wires values) :
    List.Forall₂ (fun wire value =>
      Returns WireCount.Within (copy maxDepth wire) value (wireSize maxDepth wire)) wires values := by
  obtain ⟨count, done⟩ := copied
  obtain ⟨values', same, _, each⟩ :=
    items_returns ((copy_regular (maxDepth + 1) (.items wires)).returns within_zero done)
  rw [Value.list.inj same]
  exact each

theorem copied_of_meets {wires : List WireValue} {values : List Value}
    (few : wires.length ≤ responseItemsMaxItems)
    (enough : (wireSize (maxDepth + 1) (.items wires)).Within)
    (each : List.Forall₂ (fun wire value =>
      Meets WireCount.Within (copy maxDepth wire) value (wireSize maxDepth wire)) wires values) :
    Copied wires values := by
  have whole := items_meets (few.trans (by decide)) each
  refine ⟨_, whole.result within_zero ?_⟩
  rw [zero_add]
  exact enough

/-! ## Acceptance -/

theorem finished_iff {pairing : Pairing String} : finished pairing = true ↔ pairing.Complete := by
  simp only [finished, Bool.and_eq_true, List.all_eq_true, List.contains_iff_mem, Pairing.Complete]
  exact ⟨fun both id => ⟨both.1 id, both.2 id⟩,
    fun same => ⟨fun id => (same id).mp, fun id => (same id).mpr⟩⟩

theorem validateResponseItems_ok {wireBytes : List Value → Nat} {wires : List WireValue}
    {result : List Value} :
    validateResponseItems wireBytes (.items wires) output provider = .ok result ↔
      (∀ name ∈ provider, (providerItemTypes name).isSome = true) ∧
        wires.length ≤ responseItemsMaxItems ∧
        ∃ selected pairing, Copied wires selected ∧
          validateItems output provider selected .start = .ok (result, pairing) ∧
          (output = true ∨ pairing.Complete) ∧ wireBytes result ≤ responseItemsMaxBytes := by
  constructor
  · intro done
    obtain ⟨_, known, later⟩ := bind_eq_ok.mp done
    obtain ⟨_, few, later⟩ := bind_eq_ok.mp later
    obtain ⟨⟨value, count⟩, copied, later⟩ := bind_eq_ok.mp later
    obtain ⟨selected, rfl, _⟩ :=
      items_returns ((copy_regular (maxDepth + 1) (.items wires)).returns within_zero copied)
    obtain ⟨⟨items, pairing⟩, validated, later⟩ := bind_eq_ok.mp later
    obtain ⟨_, complete, later⟩ := bind_eq_ok.mp later
    obtain ⟨_, bytes, last⟩ := bind_eq_ok.mp later
    obtain rfl := Except.ok.inj last
    exact ⟨ensure_ok.mp known, ensure_ok.mp few, selected, pairing, ⟨count, copied⟩, validated,
      (ensure_ok.mp complete).imp_right finished_iff.mp, ensure_ok.mp bytes⟩
  · rintro ⟨known, few, selected, pairing, ⟨count, copied⟩, validated, complete, bytes⟩
    refine bind_eq_ok.mpr ⟨(), ensure_ok.mpr known, bind_eq_ok.mpr ⟨(), ensure_ok.mpr few, ?_⟩⟩
    refine bind_eq_ok.mpr ⟨_, copied, bind_eq_ok.mpr ⟨_, validated, ?_⟩⟩
    exact bind_eq_ok.mpr ⟨(), ensure_ok.mpr (complete.imp_right finished_iff.mpr),
      bind_eq_ok.mpr ⟨(), ensure_ok.mpr bytes, rfl⟩⟩

/-! ## A turn closes a history -/

/-- The item, node, string and byte bounds of a list and of its validated items. -/
def WithinBounds (wireBytes : List Value → Nat) (wires : List WireValue) (result : List Value) :
    Prop :=
  wires.length ≤ responseItemsMaxItems ∧ (wireSize (maxDepth + 1) (.items wires)).Within ∧
    wireBytes result ≤ responseItemsMaxBytes

/-- The steps of validated items: calls, results and others. -/
def steps (items : List Value) : List (ToolStep String) := items.map toolStep

theorem steps_results {items : List Value} {ids : List String}
    (results : List.Forall₂ TextResult items ids) : steps items = ids.map .result := by
  induction results with
  | nil => rfl
  | cons here _ ih => exact congrArg₂ List.cons here.toolStep_eq ih

theorem meets_of_copied {wires : List WireValue} {values : List Value}
    (copied : Copied wires values) :
    List.Forall₂ (fun wire value =>
      Meets WireCount.Within (copy maxDepth wire) value (wireSize maxDepth wire)) wires values :=
  (copied_each copied).imp fun wire _ returns => (copy_regular maxDepth wire).meets returns

theorem turn_accepted {wireBytes : List Value → Nat} {history turn results : List WireValue}
    {history' turn' results' : List Value} {ids : List String}
    (before : validateResponseItems wireBytes (.items history) false provider = .ok history')
    (after : validateResponseItems wireBytes (.items turn) true provider = .ok turn')
    (fresh : ∀ id, .call id ∈ steps turn' → .call id ∉ steps history')
    (copied : Copied results results') (texts : List.Forall₂ TextResult results' ids)
    (answers : ids.Perm (Pairing.callIds (steps turn')))
    (bounds : WithinBounds wireBytes (history ++ turn ++ results) (history' ++ turn' ++ results')) :
    validateResponseItems wireBytes (.items (history ++ turn ++ results)) false provider =
      .ok (history' ++ turn' ++ results') := by
  obtain ⟨known, _, historyCopy, closed, copiedHistory, validHistory, complete, _⟩ :=
    validateResponseItems_ok.mp before
  obtain ⟨_, _, turnCopy, called, copiedTurn, validTurn, _, _⟩ := validateResponseItems_ok.mp after
  obtain ⟨few, size, bytes⟩ := bounds
  have acceptedHistory := validateItems_accepted validHistory
  obtain ⟨inputTurn, noResult⟩ := validateItems_input validTurn
  have acceptedTurn := validateItems_accepted inputTurn
  have closes : closed.Complete := complete.resolve_left Bool.false_ne_true
  obtain ⟨last, taken, finished⟩ := Pairing.complete_turn acceptedHistory.taken closes
    acceptedTurn.taken noResult fresh answers
  obtain ⟨middle, front, back⟩ := Pairing.run_append.mp taken
  obtain ⟨closed', first, second⟩ := Pairing.run_append.mp front
  obtain rfl := Option.some.inj (first.symm.trans acceptedHistory.taken)
  have filled : ∀ id ∈ ids, id ≠ "" := fun id inside =>
    validateItems_filled validTurn id (Pairing.mem_callIds.mp (answers.mem_iff.mp inside))
  refine validateResponseItems_ok.mpr ⟨known, few, historyCopy ++ turnCopy ++ results', last, ?_,
    ?_, .inr finished, bytes⟩
  · exact copied_of_meets few size (List.rel_append (List.rel_append (meets_of_copied copiedHistory)
      (meets_of_copied copiedTurn)) (meets_of_copied copied))
  · exact validateItems_append (validateItems_append validHistory
      (acceptedTurn.elsewhere closed' middle second)) (validateItems_results texts filled back)

/-- Each call of an accepted history has exactly one result, and that stands behind it; each
result stands behind a call. -/
theorem history_paired {wireBytes : List Value → Nat} {wires : List WireValue}
    {result : List Value}
    (done : validateResponseItems wireBytes (.items wires) false provider = .ok result) (id : String) :
    (∀ i : ℕ, (steps result)[i]? = some (ToolStep.call id) → ∃ j : ℕ, i < j ∧
        (steps result)[j]? = some (ToolStep.result id) ∧
        ∀ k : ℕ, (steps result)[k]? = some (ToolStep.result id) → k = j) ∧
      ∀ j : ℕ, (steps result)[j]? = some (ToolStep.result id) →
        ∃ i : ℕ, i < j ∧ (steps result)[i]? = some (ToolStep.call id) := by
  obtain ⟨_, _, selected, pairing, _, valid, complete, _⟩ := validateResponseItems_ok.mp done
  have taken := (validateItems_accepted valid).taken
  exact ⟨fun i here => Pairing.paired taken (complete.resolve_left Bool.false_ne_true) here,
    fun j here => Pairing.call_before taken here⟩

/-! ## Validation again -/

theorem total_filter_le {α : Type} (cost : α → WireCount) (keeps : α → Bool) (l : List α) :
    (total cost (l.filter keeps)).nodes ≤ (total cost l).nodes ∧
      (total cost (l.filter keeps)).stringBytes ≤ (total cost l).stringBytes := by
  induction l with
  | nil => exact ⟨le_rfl, le_rfl⟩
  | cons a l ih =>
      rw [List.filter_cons]
      split_ifs
      · simp only [total_cons, nodes_add, stringBytes_add]
        omega
      · simp only [total_cons, nodes_add, stringBytes_add]
        omega

/-- A copied item without some entries is copied to itself, and is not larger. -/
theorem filtered_settles {wire : WireValue} {value item : Value}
    (returns : Returns WireCount.Within (copy maxDepth wire) value (wireSize maxDepth wire))
    (filtered : Filtered value item) :
    Meets WireCount.Within (copy maxDepth (plain item)) item (wireSize maxDepth (plain item)) ∧
      (wireSize maxDepth (plain item)).nodes ≤ (wireSize maxDepth wire).nodes ∧
      (wireSize maxDepth (plain item)).stringBytes ≤ (wireSize maxDepth wire).stringBytes := by
  obtain ⟨entries, keeps, rfl, rfl⟩ := filtered
  have sized := (copy_settles maxDepth wire _ returns).2
  have stable : StableEntries (copy 15) (wireSize 15) 15 entries := copied_entries returns
  refine ⟨Meets.bind within_down enter_meets (stable.filter keeps).meets, ?_⟩
  have fewer := total_filter_le (fun entry => entrySize (wireSize 15) (plainEntry entry)) keeps
    entries
  rw [← total_map (entrySize (wireSize 15)) plainEntry,
    ← total_map (entrySize (wireSize 15)) plainEntry entries, ← plainEntries_eq,
    ← plainEntries_eq] at fewer
  rw [← sized]
  constructor
  · exact Nat.add_le_add_left fewer.1 1
  · exact Nat.add_le_add_left fewer.2 0

theorem total_le {α β : Type} {left : α → WireCount} {right : β → WireCount} {l : List α}
    {r : List β} (each : List.Forall₂ (fun a b => (left a).nodes ≤ (right b).nodes ∧
      (left a).stringBytes ≤ (right b).stringBytes) l r) :
    (total left l).nodes ≤ (total right r).nodes ∧
      (total left l).stringBytes ≤ (total right r).stringBytes := by
  induction each with
  | nil => exact ⟨le_rfl, le_rfl⟩
  | cons here _ ih =>
      simp only [total_cons, nodes_add, stringBytes_add]
      omega

theorem validated_again {wireBytes : List Value → Nat} {wires : List WireValue}
    {result : List Value}
    (done : validateResponseItems wireBytes (.items wires) output provider = .ok result) :
    validateResponseItems wireBytes (.items (result.map plain)) output provider = .ok result := by
  obtain ⟨known, few, selected, pairing, copied, valid, complete, bytes⟩ :=
    validateResponseItems_ok.mp done
  have accepted := validateItems_accepted valid
  have settled : List.Forall₂ (fun item wire =>
      Meets WireCount.Within (copy maxDepth (plain item)) item (wireSize maxDepth (plain item)) ∧
        (wireSize maxDepth (plain item)).nodes ≤ (wireSize maxDepth wire).nodes ∧
        (wireSize maxDepth (plain item)).stringBytes ≤ (wireSize maxDepth wire).stringBytes)
      result wires := by
    have returned := copied_each copied
    have filtered := accepted.filtered
    clear * - returned filtered
    induction returned generalizing result with
    | nil =>
        cases filtered
        exact .nil
    | cons here _ ih =>
        cases filtered with
        | cons first rest => exact .cons (filtered_settles here first) (ih rest)
  have same : (result.map plain).length = wires.length := by
    rw [List.length_map, settled.length_eq]
  refine validateResponseItems_ok.mpr ⟨known, same ▸ few, result, pairing, ?_, accepted.again,
    complete, bytes⟩
  refine copied_of_meets (same ▸ few) ?_ ?_
  · have whole : (wireSize (maxDepth + 1) (.items wires)).Within := by
      obtain ⟨count, copying⟩ := copied
      have enough := ((copy_regular (maxDepth + 1) (.items wires)).ok within_zero copying).2
      rw [zero_add] at enough
      exact enough
    have fewer := total_le (settled.imp fun _ _ both => both.2)
    rw [← total_map (wireSize maxDepth) plain] at fewer
    exact ⟨(Nat.add_le_add_left fewer.1 1).trans whole.1,
      (Nat.add_le_add_left fewer.2 0).trans whole.2⟩
  · rw [List.forall₂_map_left_iff, List.forall₂_same]
    exact forall_results (settled.imp fun _ _ both => both.1).flip

/-- Replay histories are closed under completed turns, pair calls with results, and are what
validating them again returns. -/
theorem replay_histories_closed (wireBytes : List Value → Nat) (provider : Option String) :
    (∀ history turn results history' turn' results' ids,
      validateResponseItems wireBytes (.items history) false provider = .ok history' →
      validateResponseItems wireBytes (.items turn) true provider = .ok turn' →
      (∀ id, .call id ∈ steps turn' → .call id ∉ steps history') →
      Copied results results' → List.Forall₂ TextResult results' ids →
      ids.Perm (Pairing.callIds (steps turn')) →
      WithinBounds wireBytes (history ++ turn ++ results) (history' ++ turn' ++ results') →
      validateResponseItems wireBytes (.items (history ++ turn ++ results)) false provider =
        .ok (history' ++ turn' ++ results')) ∧
    (∀ wires result, validateResponseItems wireBytes (.items wires) false provider = .ok result →
      ∀ id, (∀ i : ℕ, (steps result)[i]? = some (ToolStep.call id) → ∃ j : ℕ, i < j ∧
          (steps result)[j]? = some (ToolStep.result id) ∧
          ∀ k : ℕ, (steps result)[k]? = some (ToolStep.result id) → k = j) ∧
        ∀ j : ℕ, (steps result)[j]? = some (ToolStep.result id) →
          ∃ i : ℕ, i < j ∧ (steps result)[i]? = some (ToolStep.call id)) ∧
    ∀ output wire result, validateResponseItems wireBytes wire output provider = .ok result →
      validateResponseItems wireBytes (.items (result.map plain)) output provider = .ok result := by
  refine ⟨fun _ _ _ _ _ _ _ before after fresh copied texts answers bounds =>
    turn_accepted before after fresh copied texts answers bounds,
    fun wires result done id => history_paired done id, fun output wire result done => ?_⟩
  cases wire with
  | items wires => exact validated_again done
  | _ =>
      obtain ⟨_, _, later⟩ := bind_eq_ok.mp done
      cases later

end AgentLibOS.Responses
