import AgentLibOS.Capability.Revocation

namespace AgentLibOS.Capability
open Library.Text Library.Run

/-- `_matching_capabilities` over the listed rows; `selects` stands for its tests other than the
status. -/
def CapabilityStore.matchingCapabilities (store : CapabilityStore) (listed : List String)
    (selects : CapabilityRow → Bool) : List String :=
  listed.filter fun capId => (store.capabilities capId).any fun row => row.active && selects row

/-! ## Runs with their revocations -/

/-- A store with the exec revocations that are staged in it and the rows that were revoked for
good. -/
structure History where
  store : CapabilityStore
  staged : String → String → Prop
  final : String → Prop

namespace History

def start (store : CapabilityStore) : History := ⟨store, fun _ _ => False, fun _ => False⟩

/-- A publication stages every row it asks for that no other publication owns. -/
def stages (store : CapabilityStore) : StoreOp → String → String → Prop
  | .stageExecRevocation capId token, other, owner =>
      other = capId ∧ owner = String.ofList (strip isSpace token.toList) ∧
        ∀ row, store.capabilities capId = some row → row.status = .execRevoked →
          row.rollbackToken = some owner
  | _, _, _ => False

def unstages (store : CapabilityStore) : StoreOp → String → String → Prop
  | .restoreExecRevoked subject token _, capId, owner =>
      owner = token ∧ ∃ row, store.capabilities capId = some row ∧ row.subject = subject
  | _, _, _ => False

/-- The rows an operation revokes for good once it commits. -/
def finalizes (history : History) : StoreOp → String → Prop
  | .revoke capId _, other => other = capId
  | .disable capId, other => other = capId
  | .finalizeExecRevocations subject token, capId =>
      history.staged capId token ∧
        ∃ row, history.store.capabilities capId = some row ∧ row.subject = subject
  | .revokeResource resource, capId =>
      ∃ row, history.store.capabilities capId = some row ∧ row.resource = resource
  | _, _ => False

def record (history : History) (op : StoreOp) : History :=
  match op.exec history.store with
  | .error _ => history
  | .ok store =>
      { store := store
        staged := fun capId owner => stages history.store op capId owner ∨
          history.staged capId owner ∧ ¬ unstages history.store op capId owner
        final := fun capId => history.final capId ∨ history.finalizes op capId }

/-- No row is suspended when it is revoked by resource or staged. -/
def Undisturbed (history : History) : StoreOp → Prop
  | .revokeResource resource => ∀ capId row, history.store.capabilities capId = some row →
      row.resource = resource → ¬ history.store.Suspended capId
  | .stageExecRevocation capId _ => ¬ history.store.Suspended capId
  | _ => True

structure Consistent (history : History) : Prop where
  final : ∀ capId, history.final capId → history.store.Settled capId
  staged : ∀ capId token, history.staged capId token → history.store.Settled capId ∨
    ∃ row, history.store.capabilities capId = some row ∧ row.status = .execRevoked ∧
      row.rollbackToken = some token

end History

namespace CapabilityStore

theorem settled_updateInactive {store : CapabilityStore} {capId : String} {row : CapabilityRow}
    (out : row.status = .disabled ∨ row.status = .revoked) :
    (store.updateInactive capId row).Settled capId := by
  refine ⟨⟨row, by simp [updateInactive, invalidate, setRow], out⟩, ?_⟩
  rintro ⟨-, -, -, -, held⟩
  simp [updateInactive, held_invalidate] at held

theorem settled_revokeWhere {store : CapabilityStore} {selected : CapabilityRow → Bool}
    {capId : String} {row : CapabilityRow} (stored : store.capabilities capId = some row)
    (hit : selected row = true) : (store.revokeWhere selected).Settled capId := by
  refine ⟨⟨row.retire .revoked (by decide), by simp [revokeWhere, invalidate, stored, hit],
    Or.inr rfl⟩, ?_⟩
  rintro ⟨-, -, -, -, held⟩
  rw [revokeWhere, held_invalidate] at held
  simp [stored, hit] at held

/-- A row that is neither active nor staged is settled unless it is suspended. -/
theorem settled_of_out {store : CapabilityStore} {capId : String} {row : CapabilityRow}
    (stored : store.capabilities capId = some row) (inactive : row.status ≠ .active)
    (unstaged : row.status ≠ .execRevoked) (never : ¬ store.Suspended capId) :
    store.Settled capId := by
  refine ⟨⟨row, stored, ?_⟩, never⟩
  cases status : row.status <;> simp_all

end CapabilityStore

namespace History
open CapabilityStore

theorem finalizes_settled {history : History} {op : StoreOp} {store : CapabilityStore}
    (consistent : history.Consistent) (undisturbed : history.Undisturbed op)
    (done : op.exec history.store = .ok store) {capId : String}
    (hit : history.finalizes op capId) : store.Settled capId := by
  cases op with
  | revoke target authority =>
      obtain rfl : capId = target := hit
      obtain ⟨row, reserved, stored, -, shape, fewer⟩ := revoke_ok done
      have settled : (reserved.updateInactive capId (row.retire .revoked (by decide))).Settled capId :=
        settled_updateInactive (Or.inr rfl)
      refine ⟨by rw [shape]; exact settled.1, ?_⟩
      rintro ⟨row', stored', status, finite, held⟩
      exact settled.2 ⟨row', shape ▸ stored', status, finite, fewer _ held⟩
  | disable target =>
      obtain rfl : capId = target := hit
      obtain ⟨row, -, done⟩ := bind_eq_ok.mp done
      cases done
      exact settled_updateInactive (Or.inl rfl)
  | finalizeExecRevocations subject token =>
      obtain ⟨staged, row, stored, owner⟩ := hit
      have steps := steps_exec done
      cases done
      rcases consistent.staged capId token staged with settled | ⟨row', stored', status, mine⟩
      · exact settled.steps steps
      · obtain rfl : row = row' := Option.some.inj (stored.symm.trans stored')
        exact settled_revokeWhere stored (by simp [owner, status, mine])
  | revokeResource resource =>
      obtain ⟨row, stored, same⟩ := hit
      have steps := steps_exec done
      cases done
      by_cases live : row.status = .active ∨ row.status = .execRevoked
      · exact settled_revokeWhere stored (by simpa [same] using live)
      · rw [not_or] at live
        have never := undisturbed capId row stored same
        exact (settled_of_out stored live.1 live.2 never).steps steps
  | _ => cases hit

theorem stages_kept {history : History} {op : StoreOp} {store : CapabilityStore}
    (undisturbed : history.Undisturbed op) (done : op.exec history.store = .ok store)
    {capId token : String} (hit : stages history.store op capId token) :
    store.Settled capId ∨ ∃ row, store.capabilities capId = some row ∧ row.status = .execRevoked ∧
      row.rollbackToken = some token := by
  cases op with
  | stageExecRevocation target token' =>
      obtain ⟨rfl, rfl, mine⟩ := hit
      obtain ⟨row, stored, ⟨live, rfl⟩ | ⟨inactive, rfl⟩⟩ := stage_ok done
      · exact Or.inr ⟨row.stage _ live, by simp [updateInactive, invalidate, setRow], rfl, rfl⟩
      · by_cases status : row.status = .execRevoked
        · exact Or.inr ⟨row, stored, status, mine row stored status⟩
        · refine Or.inl (settled_of_out stored ?_ status undisturbed)
          simpa [CapabilityRow.active] using inactive
  | _ => cases hit

theorem staged_kept {store store' : CapabilityStore} {op : StoreOp}
    (done : op.exec store = .ok store') {capId token : String} {row : CapabilityRow}
    (stored : store.capabilities capId = some row) (status : row.status = .execRevoked)
    (mine : row.rollbackToken = some token) (kept : ¬ unstages store op capId token) :
    store'.Settled capId ∨ ∃ row, store'.capabilities capId = some row ∧
      row.status = .execRevoked ∧ row.rollbackToken = some token := by
  obtain ⟨row', stored', step⟩ := steps_exec done capId row stored
  cases step with
  | kept fewer => exact Or.inr ⟨row, stored', status, mine⟩
  | spent _ live _ => simp [live] at status
  | returned _ was finite other _ => simp [status] at other
  | retired out final none_left =>
      refine Or.inl ⟨⟨_, stored', final.symm⟩, ?_⟩
      rintro ⟨-, -, -, -, held⟩
      exact none_left held
  | staged owner live none_left => simp [CapabilityRow.active, status] at live
  | unstaged old staged fewer back =>
      cases op with
      | restoreExecRevoked subject owner before =>
          have same : token = owner := Option.some.inj (mine.symm.trans back.2)
          exact absurd ⟨same, row, stored, back.1⟩ kept
      | _ => cases back

theorem consistent_record {history : History} {op : StoreOp} (consistent : history.Consistent)
    (undisturbed : history.Undisturbed op) : (history.record op).Consistent := by
  unfold record
  split
  · exact consistent
  · rename_i store done
    have steps := steps_exec done
    constructor
    · rintro capId (final | hit)
      · exact (consistent.final capId final).steps steps
      · exact finalizes_settled consistent undisturbed done hit
    · rintro capId token (hit | ⟨staged, kept⟩)
      · exact stages_kept undisturbed done hit
      · rcases consistent.staged capId token staged with settled | ⟨row, stored, status, mine⟩
        · exact Or.inl (settled.steps steps)
        · exact staged_kept done stored status mine kept

/-- Whatever the interleaving, a row that was revoked for good stays out of use. -/
theorem revocation_final (store : CapabilityStore) (ops : List StoreOp)
    (undisturbed : Meets record Undisturbed (start store) ops) (capId : String)
    (final : (run record (start store) ops).final capId) :
    (∀ row, (run record (start store) ops).store.capabilities capId = some row →
        row.active = false) ∧
      ∀ listed selects,
        capId ∉ (run record (start store) ops).store.matchingCapabilities listed selects := by
  have init : (start store).Consistent := ⟨fun _ h => h.elim, fun _ _ h => h.elim⟩
  have consistent := invariant_run (fun _ _ => consistent_record) init undisturbed
  obtain ⟨⟨row, stored, out⟩, -⟩ := consistent.final capId final
  have inactive : row.active = false := by rcases out with out | out <;> simp [CapabilityRow.active, out]
  refine ⟨fun found stored' => ?_, fun listed selects matched => ?_⟩
  · exact Option.some.inj (stored.symm.trans stored') ▸ inactive
  · have hit := (List.mem_filter.mp matched).2
    simp [stored, inactive] at hit

end History

namespace CapabilityStore

/-! ## What goes wrong otherwise -/

theorem suspended_restored {store : CapabilityStore} {capId : String}
    (suspended : store.Suspended capId) : ∃ reservationId row,
      (store.restore reservationId).capabilities capId = some row ∧ row.active = true := by
  obtain ⟨row, stored, status, finite, id, reservation, placed, rfl, held⟩ := suspended
  obtain ⟨uses, some_uses⟩ := Option.ne_none_iff_exists'.mp finite
  cases given : row.giveBack reservation.count reservation.positive with
  | none => simp [CapabilityRow.giveBack, some_uses, status] at given
  | some updated =>
      refine ⟨id, updated, ?_, ?_⟩
      · simp [restore, placed, held, stored, given, settle, setReservation, setRow]
      · simp only [CapabilityRow.giveBack, some_uses, status, or_true, if_true,
          Option.some.injEq] at given
        simp [← given, CapabilityRow.active]

theorem suspended_revokeResource {store : CapabilityStore} {capId : String} (resource : String)
    (suspended : store.Suspended capId) : (store.revokeResource resource).Suspended capId := by
  obtain ⟨row, stored, status, finite, held⟩ := suspended
  refine ⟨row, ?_, status, finite, ?_⟩
  · simp [revokeResource, revokeWhere, invalidate, stored, status]
  · rw [revokeResource, revokeWhere, held_invalidate]
    exact ⟨held, by simp [stored, status]⟩

/-- `revoke_resource` is final for a row exactly when the row is not suspended. -/
theorem revokeResource_final_iff {store : CapabilityStore} {capId : String} {row : CapabilityRow}
    (stored : store.capabilities capId = some row) :
    (∀ ops row', (run (transact StoreOp.exec) (store.revokeResource row.resource) ops).capabilities
        capId = some row' → row'.active = false) ↔ ¬ store.Suspended capId := by
  constructor
  · intro final suspended
    obtain ⟨id, row', stored', live⟩ :=
      suspended_restored (suspended_revokeResource row.resource suspended)
    have := final [.restore id] row' stored'
    simp [this] at live
  · intro never ops
    have settled : (store.revokeResource row.resource).Settled capId := by
      by_cases live : row.status = .active ∨ row.status = .execRevoked
      · exact settled_revokeWhere stored (by simpa using live)
      · rw [not_or] at live
        exact Settled.steps (settled_of_out stored live.1 live.2 never)
          (@steps_revokeWhere (fun _ => False) store _)
    have after := @stable_run _ _ (transact StoreOp.exec)
      (fun store => store.Settled capId) (fun store op settled => by
        rcases transact_cases StoreOp.exec store op with done | same
        · exact settled.steps (steps_exec done)
        · exact same.symm ▸ settled) _ ops settled
    obtain ⟨⟨found, stored', out⟩, -⟩ := after
    intro row' stored''
    obtain rfl : found = row' := Option.some.inj (stored'.symm.trans stored'')
    rcases out with out | out <;> simp [CapabilityRow.active, out]

end CapabilityStore

/-! ## A resource revocation that does not last -/

namespace History

def oneUse : CapabilityRow where
  subject := "pid_child"
  resource := "object:report"
  revocable := true
  usesRemaining := some 1
  status := .active
  rollbackToken := none
  positive := by simp

def oneUseStore : CapabilityStore where
  capabilities := fun id => if id = "cap_1" then some oneUse else none
  reservations := fun _ => none

/-- The last use is reserved, the resource is revoked, the provider fails and the use returns. -/
theorem revokeResource_not_final :
    ¬ ∀ (store : CapabilityStore) ops capId, (run record (start store) ops).final capId →
      ∀ row, (run record (start store) ops).store.capabilities capId = some row →
        row.active = false := by
  intro final
  let ops : List StoreOp :=
    [.reserve "cap_1" "capres_1" 1, .revokeResource "object:report", .restore "capres_1"]
  have restored : ((run record (start oneUseStore) ops).store.capabilities "cap_1").map (·.active) =
      some true := by rfl
  have revoked : (run record (start oneUseStore) ops).final "cap_1" := Or.inl (Or.inr ⟨_, rfl, rfl⟩)
  obtain ⟨row, stored, live⟩ := Option.map_eq_some_iff.mp restored
  simp [final oneUseStore ops "cap_1" revoked row stored] at live

/-- An explicit revocation of the reserved capability does last. -/
theorem revocation_final_reserved :
    (∀ row, (run record (start oneUseStore) [.reserve "cap_1" "capres_1" 1, .revoke "cap_1" none,
        .restore "capres_1"]).store.capabilities "cap_1" = some row → row.active = false) ∧
      ∀ listed selects, "cap_1" ∉ (run record (start oneUseStore) [.reserve "cap_1" "capres_1" 1,
        .revoke "cap_1" none, .restore "capres_1"]).store.matchingCapabilities listed selects :=
  revocation_final oneUseStore
    [.reserve "cap_1" "capres_1" 1, .revoke "cap_1" none, .restore "capres_1"]
    ⟨trivial, trivial, trivial, trivial⟩ "cap_1" (Or.inl (Or.inr rfl))

end History
end AgentLibOS.Capability
