import AgentLibOS.Library.Run
import AgentLibOS.Storage.PayloadCache

namespace AgentLibOS.Storage
open Library.Undo Library.Run

variable {δ γ ω : Type}

/-! ## The purpose of the cache: a payload column -/

/-- A row that holds its payload itself. -/
structure StoredObject (δ γ : Type) where
  row : ObjectRow γ
  payload : Option δ

structure Contents (δ γ ω : Type) where
  objects : String → Option (StoredObject δ γ)
  links : List (String × String)
  others : ω

namespace Contents

def tables (contents : Contents δ γ ω) : Tables γ ω where
  objects := fun oid => (contents.objects oid).map (·.row)
  links := contents.links
  others := contents.others

/-- The payload column. -/
def payloads (contents : Contents δ γ ω) : String → Option δ :=
  fun oid => (contents.objects oid).bind (·.payload)

def put (contents : Contents δ γ ω) (oid : String) (object : StoredObject δ γ) : Contents δ γ ω :=
  { contents with objects := Function.update contents.objects oid (some object) }

def insert (contents : Contents δ γ ω) (obj : AgentObject δ γ) : Contents δ γ ω :=
  match contents.objects obj.oid with
  | none => contents.put obj.oid ⟨obj.row, some obj.payload⟩
  | some _ => contents

def update (contents : Contents δ γ ω) (obj : AgentObject δ γ) (expected : Expectations) :
    Contents δ γ ω :=
  match contents.tables.selected obj.oid expected with
  | some _ => contents.put obj.oid ⟨obj.row, some obj.payload⟩
  | none => contents

def delete (contents : Contents δ γ ω) (oid : String) (expected : Expectations) (now : String) :
    Contents δ γ ω :=
  match contents.tables.selected oid expected with
  | some row =>
      let released := contents.put oid ⟨row.release now, none⟩
      { released with links := (released.tables.unlink oid).links }
  | none => contents

def statement (contents : Contents δ γ ω) (change : ω → Option ω) : Contents δ γ ω :=
  { contents with others := (change contents.others).getD contents.others }

/-- Exactly the live rows have a payload. -/
def LiveOnly (contents : Contents δ γ ω) : Prop :=
  ∀ oid object, contents.objects oid = some object →
    (object.payload.isSome = true ↔ object.row.lifecycleState = .live)

end Contents

/-- Nested scopes over one database with a payload column: each open scope keeps the contents at
its start, innermost first. -/
structure Snapshots (δ γ ω : Type) where
  committed : Contents δ γ ω
  current : Contents δ γ ω
  saved : List (Contents δ γ ω)

namespace Snapshots

def initial (others : ω) : Snapshots δ γ ω := ⟨⟨fun _ => none, [], others⟩, ⟨fun _ => none, [], others⟩, []⟩

def enter (snapshots : Snapshots δ γ ω) : Snapshots δ γ ω :=
  { snapshots with saved := snapshots.current :: snapshots.saved }

/-- The contents at the start of the innermost scope. -/
def rollback (snapshots : Snapshots δ γ ω) : Snapshots δ γ ω :=
  match snapshots.saved with
  | start :: saved => { snapshots with current := start, saved := saved }
  | [] => snapshots

def commit (snapshots : Snapshots δ γ ω) : Snapshots δ γ ω :=
  match snapshots.saved with
  | [] => snapshots
  | [_] => ⟨snapshots.current, snapshots.current, []⟩
  | _ :: saved => { snapshots with saved := saved }

def leave (snapshots : Snapshots δ γ ω) (raised : Bool) (fate : ScopeFate) : Snapshots δ γ ω :=
  if raised = false ∧ fate.commit = .done then snapshots.commit else snapshots.rollback

/-- A mutation in a scope of its own. -/
def mutate (snapshots : Snapshots δ γ ω) (raised : Bool) (fate : ScopeFate)
    (change : Contents δ γ ω → Contents δ γ ω) : Snapshots δ γ ω :=
  { snapshots.enter with current := change snapshots.current }.leave raised fate

def step (snapshots : Snapshots δ γ ω) : StoreEvent δ γ ω → Snapshots δ γ ω
  | .enter => snapshots.enter
  | .leave raised fate => snapshots.leave raised fate
  | .insert obj fault fate =>
      snapshots.mutate (fault == .copying || fault == .executing ||
        (snapshots.current.objects obj.oid).isSome) fate (·.insert obj)
  | .update obj expected fault fate =>
      snapshots.mutate (fault == .executing || (fault == .copying &&
        (snapshots.current.tables.selected obj.oid expected).isSome)) fate (·.update obj expected)
  | .delete oid expected now fault fate =>
      snapshots.mutate (fault == .executing || (fault == .unlinking &&
        (snapshots.current.tables.selected oid expected).isSome)) fate (·.delete oid expected now)
  | .statement change fate =>
      match snapshots.saved with
      | [] => snapshots.mutate (change snapshots.current.others).isNone fate (·.statement change)
      | _ => { snapshots with current := snapshots.current.statement change }

end Snapshots

/-! ## The tables and the column -/

namespace Contents

@[simp] theorem tables_put (contents : Contents δ γ ω) (oid : String) (object : StoredObject δ γ) :
    (contents.put oid object).tables = contents.tables.put oid object.row := by
  simp only [tables, put, Tables.put, Tables.mk.injEq, and_true]
  funext other
  by_cases here : other = oid
  · subst here
    simp
  · simp [Function.update_of_ne here]

@[simp] theorem payloads_put (contents : Contents δ γ ω) (oid : String) (object : StoredObject δ γ) :
    (contents.put oid object).payloads = Function.update contents.payloads oid object.payload := by
  funext other
  by_cases here : other = oid
  · subst here
    simp [payloads, put]
  · simp [payloads, put, Function.update_of_ne here]

theorem tables_delete {contents : Contents δ γ ω} {oid : String} {expected : Expectations}
    {row : ObjectRow γ} (found : contents.tables.selected oid expected = some row) (now : String) :
    (contents.delete oid expected now).tables =
      (contents.tables.put oid (row.release now)).unlink oid := by
  rw [delete, found, ← tables_put contents oid ⟨row.release now, none⟩]
  rfl

theorem payloads_delete {contents : Contents δ γ ω} {oid : String} {expected : Expectations}
    {row : ObjectRow γ} (found : contents.tables.selected oid expected = some row) (now : String) :
    (contents.delete oid expected now).payloads = Function.update contents.payloads oid none := by
  rw [delete, found]
  exact payloads_put contents oid ⟨row.release now, none⟩

theorem LiveOnly.put {contents : Contents δ γ ω} (live : contents.LiveOnly) {oid : String}
    {object : StoredObject δ γ}
    (here : object.payload.isSome = true ↔ object.row.lifecycleState = .live) :
    (contents.put oid object).LiveOnly := by
  intro other stored found
  by_cases same : other = oid
  · subst same
    simp only [Contents.put, Function.update_self, Option.some.injEq] at found
    rw [← found]
    exact here
  · simp only [Contents.put, Function.update_of_ne same] at found
    exact live other stored found

theorem stored_live (obj : AgentObject δ γ) :
    (some obj.payload).isSome = true ↔ obj.row.lifecycleState = .live := by
  simp [AgentObject.row, obj.lifecycle_live]

theorem LiveOnly.insert {contents : Contents δ γ ω} (live : contents.LiveOnly)
    (obj : AgentObject δ γ) : (contents.insert obj).LiveOnly := by
  unfold Contents.insert
  split
  · exact live.put (stored_live obj)
  · exact live

theorem LiveOnly.update {contents : Contents δ γ ω} (live : contents.LiveOnly)
    (obj : AgentObject δ γ) (expected : Expectations) : (contents.update obj expected).LiveOnly := by
  unfold Contents.update
  split
  · exact live.put (stored_live obj)
  · exact live

theorem LiveOnly.delete {contents : Contents δ γ ω} (live : contents.LiveOnly) (oid : String)
    (expected : Expectations) (now : String) : (contents.delete oid expected now).LiveOnly := by
  unfold Contents.delete
  split
  · rename_i row _
    have released : (contents.put oid ⟨row.release now, none⟩).LiveOnly :=
      live.put (by simp [ObjectRow.release])
    exact released
  · exact live

/-- A payload is cached exactly for the live rows. -/
theorem LiveOnly.payloads {contents : Contents δ γ ω} (live : contents.LiveOnly) (oid : String) :
    (contents.payloads oid).isSome = true ↔
      ∃ row, contents.tables.objects oid = some row ∧ row.lifecycleState = .live := by
  cases found : contents.objects oid with
  | none => simp [Contents.payloads, tables, found]
  | some object =>
      have here := live oid object found
      simp [Contents.payloads, tables, found, here]

end Contents

/-! ## The store follows its snapshots -/

/-- The parts of the store that a scope's end restores. -/
structure Journaled (store : RuntimeStore δ γ ω) (snapshots : Snapshots δ γ ω) : Prop where
  healthy : store.poisoned = false
  committed : store.committed = snapshots.committed.tables
  savepoints : store.savepoints = snapshots.saved.map (·.tables)
  undoes : Undoes store.frames store.objectPayloads (snapshots.saved.map (·.payloads))
  /-- The outermost scope started from the committed contents. -/
  base : ∀ start ∈ snapshots.saved.getLast?, start = snapshots.committed

structure FollowsSnapshots (store : RuntimeStore δ γ ω) (snapshots : Snapshots δ γ ω) : Prop
    extends Journaled store snapshots where
  current : store.current = snapshots.current.tables
  payloads : store.objectPayloads = snapshots.current.payloads
  outside : snapshots.saved = [] → snapshots.current = snapshots.committed

variable {store : RuntimeStore δ γ ω} {snapshots : Snapshots δ γ ω}

theorem Journaled.frames_length (journaled : Journaled store snapshots) :
    store.frames.length = snapshots.saved.length := by
  simpa using journaled.undoes.length

theorem FollowsSnapshots.enter (follows : FollowsSnapshots store snapshots) :
    FollowsSnapshots store.enter snapshots.enter := by
  refine ⟨⟨follows.healthy, follows.committed, ?_, ?_, ?_⟩, follows.current, follows.payloads, ?_⟩
  · simp [RuntimeStore.enter, Snapshots.enter, follows.current, follows.savepoints]
  · have undoes := follows.undoes.enter
    rw [follows.payloads] at undoes
    simpa [RuntimeStore.enter, Snapshots.enter, follows.payloads] using undoes
  · intro start last
    cases saved : snapshots.saved with
    | nil =>
        simp only [Snapshots.enter, saved, List.getLast?_singleton, Option.mem_def,
          Option.some.injEq] at last
        rw [← last]
        exact follows.outside saved
    | cons outer saved' =>
        apply follows.base
        simpa [Snapshots.enter, saved] using last
  · intro impossible
    cases impossible

theorem Journaled.open_ (journaled : Journaled store snapshots) {frame : Frame String δ}
    {frames : List (Frame String δ)} (top : store.frames = frame :: frames) :
    ∃ start saved, snapshots.saved = start :: saved ∧ frames.length = saved.length := by
  have lengths := journaled.frames_length
  rw [top] at lengths
  cases stack : snapshots.saved with
  | nil => simp [stack] at lengths
  | cons start saved => exact ⟨start, saved, rfl, by simpa [stack] using lengths⟩

/-- Undoing the innermost scope gives back the tables and the payloads at its start. -/
theorem Journaled.rollbackScope_eq (journaled : Journaled store snapshots) {frame : Frame String δ}
    {frames : List (Frame String δ)} (top : store.frames = frame :: frames)
    {start : Contents δ γ ω} {saved : List (Contents δ γ ω)}
    (stack : snapshots.saved = start :: saved) :
    store.rollbackScope frame frames true =
      { store with
        current := start.tables
        savepoints := saved.map (·.tables)
        objectPayloads := start.payloads
        frames := frames } := by
  have undoes := journaled.undoes
  rw [top, stack] at undoes
  obtain ⟨image, rest⟩ := undoes
  have length : frames.length = saved.length := by simpa using rest.length
  have points : store.savepoints = start.tables :: saved.map (·.tables) := by
    rw [journaled.savepoints, stack, List.map_cons]
  by_cases outermost : frames.length = 0
  · obtain rfl : saved = [] := List.length_eq_zero_iff.mp (length ▸ outermost)
    have first : start = snapshots.committed := journaled.base start (by simp [stack])
    simp [RuntimeStore.rollbackScope, RuntimeStore.sqlRollback, outermost, image, first,
      journaled.committed]
  · simp [RuntimeStore.rollbackScope, RuntimeStore.sqlRollback, outermost, image, points]

theorem Journaled.rollback (journaled : Journaled store snapshots) {frame : Frame String δ}
    {frames : List (Frame String δ)} (top : store.frames = frame :: frames) :
    FollowsSnapshots (store.rollbackScope frame frames true) snapshots.rollback := by
  obtain ⟨start, saved, stack, -⟩ := journaled.open_ top
  have undoes := journaled.undoes
  rw [top, stack] at undoes
  have base := journaled.base
  rw [stack] at base
  rw [journaled.rollbackScope_eq top stack, Snapshots.rollback, stack]
  refine ⟨⟨journaled.healthy, journaled.committed, rfl, undoes.2, ?_⟩, rfl, rfl, ?_⟩
  · intro first member
    apply base
    cases saved with
    | nil => cases member
    | cons outer saved => simpa using member
  · intro empty
    dsimp only at empty
    rw [empty] at base
    exact base start (by simp)

theorem FollowsSnapshots.commit (follows : FollowsSnapshots store snapshots)
    {frame : Frame String δ} {frames : List (Frame String δ)} (top : store.frames = frame :: frames) :
    FollowsSnapshots { store.sqlCommit frames.length with
      frames := RuntimeStore.mergeIntoParent frame frames } snapshots.commit := by
  obtain ⟨start, saved, stack, length⟩ := follows.open_ top
  have undoes := follows.undoes
  rw [top, stack] at undoes
  have points : store.savepoints = start.tables :: saved.map (·.tables) := by
    rw [follows.savepoints, stack, List.map_cons]
  cases saved with
  | nil =>
      obtain rfl : frames = [] := List.length_eq_zero_iff.mp length
      rw [Snapshots.commit, stack]
      exact ⟨⟨follows.healthy, follows.current, rfl, trivial, by simp⟩, follows.current,
        follows.payloads, fun _ => rfl⟩
  | cons outer saved =>
      cases frames with
      | nil => cases length
      | cons parent frames =>
          have base := follows.base
          rw [stack] at base
          have commits : snapshots.commit = { snapshots with saved := outer :: saved } := by
            rw [Snapshots.commit, stack]
          rw [commits]
          refine ⟨⟨?_, ?_, ?_, undoes.release, ?_⟩, ?_, ?_, fun empty => by cases empty⟩
          · simpa [RuntimeStore.sqlCommit] using follows.healthy
          · simpa [RuntimeStore.sqlCommit] using follows.committed
          · simp [RuntimeStore.sqlCommit, points]
          · intro first member
            exact base first (by simpa using member)
          · simpa [RuntimeStore.sqlCommit] using follows.current
          · simpa [RuntimeStore.sqlCommit] using follows.payloads

/-! ## Bodies of mutations -/

theorem Journaled.journal (journaled : Journaled store snapshots) (oid : String) :
    Journaled (store.journalObjectPayload oid) snapshots := by
  unfold RuntimeStore.journalObjectPayload
  split
  · exact journaled
  · rename_i frame frames top
    have undoes := journaled.undoes
    rw [top] at undoes
    exact ⟨journaled.healthy, journaled.committed, journaled.savepoints, undoes.record oid,
      journaled.base⟩

/-- A cache write inside a scope, of a payload or of its absence. -/
theorem Journaled.cache (journaled : Journaled store snapshots) (inside : store.frames ≠ [])
    (oid : String) (payload : Option δ) :
    Journaled { store.journalObjectPayload oid with
      objectPayloads := Function.update store.objectPayloads oid payload } snapshots := by
  unfold RuntimeStore.journalObjectPayload
  split
  · rename_i outside
    exact absurd outside inside
  · rename_i frame frames top
    have undoes := journaled.undoes
    rw [top] at undoes
    exact ⟨journaled.healthy, journaled.committed, journaled.savepoints, undoes.write oid payload,
      journaled.base⟩

theorem Journaled.tables (journaled : Journaled store snapshots) (current : Tables γ ω) :
    Journaled { store with current := current } snapshots :=
  ⟨journaled.healthy, journaled.committed, journaled.savepoints, journaled.undoes, journaled.base⟩

theorem Journaled.contents (journaled : Journaled store snapshots) (current : Contents δ γ ω) :
    Journaled store { snapshots with current := current } :=
  ⟨journaled.healthy, journaled.committed, journaled.savepoints, journaled.undoes, journaled.base⟩

theorem journalObjectPayload_frames (store : RuntimeStore δ γ ω) (oid : String) (inside : store.frames ≠ []) :
    (store.journalObjectPayload oid).frames ≠ [] := by
  unfold RuntimeStore.journalObjectPayload
  split
  · exact inside
  · exact List.cons_ne_nil _ _

@[simp] theorem journalObjectPayload_current (oid : String) :
    (store.journalObjectPayload oid).current = store.current := by
  unfold RuntimeStore.journalObjectPayload
  split <;> rfl

@[simp] theorem setCachedObjectPayload_current (oid : String) (payload : δ) :
    (store.setCachedObjectPayload oid payload).current = store.current :=
  journalObjectPayload_current oid

@[simp] theorem setCachedObjectPayload_payloads (oid : String) (payload : δ) :
    (store.setCachedObjectPayload oid payload).objectPayloads =
      Function.update store.objectPayloads oid (some payload) := rfl

@[simp] theorem forgetCachedObjectPayload_current (oid : String) :
    (store.forgetCachedObjectPayload oid).current = store.current :=
  journalObjectPayload_current oid

@[simp] theorem forgetCachedObjectPayload_payloads (oid : String) :
    (store.forgetCachedObjectPayload oid).objectPayloads =
      Function.update store.objectPayloads oid none := rfl

/-- The body of a mutation either raises, with the journal intact, or makes the change. -/
structure Makes (result : RuntimeStore δ γ ω × Outcome) (snapshots : Snapshots δ γ ω) (raised : Bool)
    (changed : Contents δ γ ω) : Prop where
  journaled : Journaled result.1 snapshots
  inside : result.1.frames ≠ []
  outcome : raised = true ∧ result.2 = .raised ∨ raised = false ∧
    (∃ value, result.2 = .returned value) ∧ result.1.current = changed.tables ∧
      result.1.objectPayloads = changed.payloads

theorem Makes.raises {result : RuntimeStore δ γ ω × Outcome} {raised : Bool}
    {changed : Contents δ γ ω} (journaled : Journaled result.1 snapshots)
    (inside : result.1.frames ≠ []) (here : raised = true) (outcome : result.2 = .raised) :
    Makes result snapshots raised changed :=
  ⟨journaled, inside, Or.inl ⟨here, outcome⟩⟩

theorem Makes.returns {result : RuntimeStore δ γ ω × Outcome} {raised : Bool}
    {changed : Contents δ γ ω} (journaled : Journaled result.1 snapshots)
    (inside : result.1.frames ≠ []) (here : raised = false) {value : Bool}
    (outcome : result.2 = .returned value) (tables : result.1.current = changed.tables)
    (payloads : result.1.objectPayloads = changed.payloads) :
    Makes result snapshots raised changed :=
  ⟨journaled, inside, Or.inr ⟨here, ⟨value, outcome⟩, tables, payloads⟩⟩

section Bodies
variable (follows : FollowsSnapshots store snapshots) (inside : store.frames ≠ [])
include follows inside

theorem insertBody_makes (obj : AgentObject δ γ) (fault : BodyFault) :
    Makes (store.insertBody obj fault) snapshots (fault == .copying || fault == .executing ||
      (snapshots.current.objects obj.oid).isSome) (snapshots.current.insert obj) := by
  have present : (store.current.objects obj.oid).isSome =
      (snapshots.current.objects obj.oid).isSome := by
    rw [follows.current, Contents.tables, Option.isSome_map]
  have frames := journalObjectPayload_frames store obj.oid inside
  have cached := follows.toJournaled.cache inside obj.oid (some obj.payload)
  unfold RuntimeStore.insertBody
  split
  · rename_i copying
    exact Makes.raises (follows.toJournaled.journal obj.oid) frames (by simp [copying]) rfl
  · rename_i copied
    dsimp only
    split
    · rename_i refused
      rw [present] at refused
      exact Makes.raises cached frames (by rcases refused with here | here <;> simp [here]) rfl
    · rename_i accepted
      rw [present] at accepted
      push Not at accepted
      have absent : snapshots.current.objects obj.oid = none := by simpa using accepted.2
      apply Makes.returns (cached.tables _) frames (by simp [copied, accepted.1, absent]) rfl
      · simp [Contents.insert, absent, follows.current]
      · simp [Contents.insert, absent, follows.payloads]

theorem updateBody_makes (obj : AgentObject δ γ) (expected : Expectations) (fault : BodyFault) :
    Makes (store.updateBody obj expected fault) snapshots (fault == .executing || (fault == .copying &&
      (snapshots.current.tables.selected obj.oid expected).isSome))
      (snapshots.current.update obj expected) := by
  unfold RuntimeStore.updateBody
  rw [follows.current]
  split
  · rename_i executing
    exact Makes.raises follows.toJournaled inside (by simp [executing]) rfl
  · rename_i executed
    split
    · rename_i missing
      exact Makes.returns follows.toJournaled inside (by simp [executed, missing]) rfl
        (by simp [Contents.update, missing, follows.current])
        (by simp [Contents.update, missing, follows.payloads])
    · rename_i row found
      have frames := journalObjectPayload_frames
        { store with current := snapshots.current.tables.put obj.oid obj.row } obj.oid inside
      have updated := follows.toJournaled.tables (snapshots.current.tables.put obj.oid obj.row)
      dsimp only
      split
      · rename_i copying
        exact Makes.raises (updated.journal obj.oid) frames (by simp [copying, found]) rfl
      · rename_i copied
        exact Makes.returns (updated.cache inside obj.oid (some obj.payload)) frames
          (by simp [executed, copied]) rfl (by simp [Contents.update, found])
          (by simp [Contents.update, found, follows.payloads])

theorem deleteBody_makes (oid : String) (expected : Expectations) (now : String)
    (fault : BodyFault) :
    Makes (store.deleteBody oid expected now fault) snapshots
      (fault == .executing || (fault == .unlinking &&
        (snapshots.current.tables.selected oid expected).isSome))
      (snapshots.current.delete oid expected now) := by
  unfold RuntimeStore.deleteBody
  rw [follows.current]
  split
  · rename_i executing
    exact Makes.raises follows.toJournaled inside (by simp [executing]) rfl
  · rename_i executed
    split
    · rename_i missing
      exact Makes.returns follows.toJournaled inside (by simp [executed, missing]) rfl
        (by simp [Contents.delete, missing, follows.current])
        (by simp [Contents.delete, missing, follows.payloads])
    · rename_i row found
      have frames := journalObjectPayload_frames
        { store with current := snapshots.current.tables.put oid (row.release now) } oid inside
      have released := follows.toJournaled.tables
        (snapshots.current.tables.put oid (row.release now))
      have forgotten := released.cache inside oid none
      dsimp only
      split
      · rename_i unlinking
        exact Makes.raises forgotten frames (by simp [unlinking, found]) rfl
      · rename_i unlinked
        exact Makes.returns (forgotten.tables _) frames (by simp [executed, unlinked]) rfl
          (by simp [Contents.tables_delete found])
          (by simp [Contents.payloads_delete found, follows.payloads])

theorem statementBody_makes (change : ω → Option ω) :
    Makes (store.statementBody change) snapshots (change snapshots.current.others).isNone
      (snapshots.current.statement change) := by
  have same : store.current.others = snapshots.current.others := by
    rw [follows.current, Contents.tables]
  unfold RuntimeStore.statementBody
  rw [same]
  split
  · rename_i others changed
    exact Makes.returns (follows.toJournaled.tables _) inside (by simp [changed]) rfl
      (by simp [Contents.statement, changed, follows.current, Contents.tables]) follows.payloads
  · rename_i raised
    exact Makes.raises follows.toJournaled inside (by simp [raised]) rfl

end Bodies

/-! ## Scopes and steps -/

theorem Journaled.rollbackScope (journaled : Journaled store snapshots) {frame : Frame String δ}
    {frames : List (Frame String δ)} (top : store.frames = frame :: frames) {rollsBack : Bool}
    (healthy : (store.rollbackScope frame frames rollsBack).poisoned = false) :
    FollowsSnapshots (store.rollbackScope frame frames rollsBack) snapshots.rollback := by
  cases rollsBack with
  | true => exact journaled.rollback top
  | false =>
      simp [RuntimeStore.rollbackScope] at healthy

theorem Snapshots.leave_done {fate : ScopeFate} (commits : fate.commit = .done) :
    snapshots.leave false fate = snapshots.commit :=
  if_pos ⟨rfl, commits⟩

theorem Snapshots.leave_undone {raised : Bool} {fate : ScopeFate}
    (undone : raised = true ∨ fate.commit ≠ .done) : snapshots.leave raised fate = snapshots.rollback := by
  apply if_neg
  rintro ⟨returned, commits⟩
  rcases undone with raise | other
  · rw [returned] at raise
    cases raise
  · exact other commits

/-- The end of a scope leaves the store in step with the snapshots, unless it is poisoned. -/
theorem Makes.leave {outcome : Outcome} {raised : Bool} {changed : Contents δ γ ω}
    (makes : Makes (store, outcome) snapshots raised changed) {fate : ScopeFate}
    (healthy : (store.leave outcome fate).1.poisoned = false) :
    FollowsSnapshots (store.leave outcome fate).1
      ({ snapshots with current := changed }.leave raised fate) := by
  have journaled : Journaled store { snapshots with current := changed } :=
    makes.journaled.contents changed
  have sane : store.poisoned = false := journaled.healthy
  unfold RuntimeStore.leave at healthy ⊢
  cases top : store.frames with
  | nil => exact absurd top makes.inside
  | cons frame frames =>
      rw [top] at healthy
      simp only [sane, Bool.false_eq_true, if_false] at healthy ⊢
      rcases makes.outcome with ⟨rfl, raise⟩ | ⟨rfl, ⟨value, returned⟩, tables, payloads⟩
      · dsimp only at raise
        subst raise
        rw [Snapshots.leave_undone (Or.inl rfl)]
        exact journaled.rollbackScope top healthy
      · dsimp only at returned
        subst returned
        dsimp only at healthy ⊢
        unfold RuntimeStore.commitScope at healthy ⊢
        cases commits : fate.commit with
        | done =>
            rw [Snapshots.leave_done commits]
            obtain ⟨start, saved, stack, -⟩ := makes.journaled.open_ top
            have follows : FollowsSnapshots store { snapshots with current := changed } :=
              ⟨journaled, tables, payloads, fun empty => by simp [stack] at empty⟩
            exact follows.commit top
        | leftOpen =>
            rw [Snapshots.leave_undone (Or.inr (by simp [commits]))]
            rw [commits] at healthy
            exact journaled.rollbackScope top healthy
        | uncertain =>
            rw [Snapshots.leave_undone (Or.inr (by simp [commits]))]
            rw [commits] at healthy
            dsimp only at healthy ⊢
            split at healthy
            · cases healthy
            · rename_i nested
              rw [if_neg nested]
              exact journaled.rollbackScope top healthy

theorem transaction_follows (change : Contents δ γ ω → Contents δ γ ω)
    {body : RuntimeStore δ γ ω → RuntimeStore δ γ ω × Outcome} {raised : Bool} {fate : ScopeFate}
    (makes : Makes (body store.enter) snapshots.enter raised (change snapshots.current))
    (healthy : (store.transaction body fate).1.poisoned = false) :
    FollowsSnapshots (store.transaction body fate).1 (snapshots.mutate raised fate change) :=
  makes.leave healthy

theorem enter_inside (store : RuntimeStore δ γ ω) : store.enter.frames ≠ [] := List.cons_ne_nil _ _

/-- Inside a transaction a single statement opens no scope: if it raises it has changed nothing. -/
theorem statement_follows (follows : FollowsSnapshots store snapshots) (inside : store.frames ≠ [])
    (change : ω → Option ω) : FollowsSnapshots (store.statementBody change).1
      { snapshots with current := snapshots.current.statement change } := by
  have makes := statementBody_makes follows inside change
  have saved : snapshots.saved ≠ [] := by
    intro outside
    have lengths := follows.frames_length
    rw [outside] at lengths
    exact inside (List.length_eq_zero_iff.mp lengths)
  have same : store.current.others = snapshots.current.others := by
    rw [follows.current, Contents.tables]
  rcases makes.outcome with ⟨raised, -⟩ | ⟨-, -, tables, payloads⟩
  · have none : change snapshots.current.others = none := by simpa using raised
    have unchanged : store.statementBody change = (store, .raised) := by
      simp [RuntimeStore.statementBody, same, none]
    have kept : snapshots.current.statement change = snapshots.current := by
      simp [Contents.statement, none]
    rw [unchanged, kept]
    exact follows
  · exact ⟨makes.journaled.contents _, tables, payloads, fun outside => absurd outside saved⟩

theorem execute_follows (follows : FollowsSnapshots store snapshots) (change : ω → Option ω)
    (fate : ScopeFate) (healthy : (store.execute change fate).1.poisoned = false) :
    FollowsSnapshots (store.execute change fate).1 (snapshots.step (.statement change fate)) := by
  have lengths := follows.frames_length
  cases top : store.frames with
  | nil =>
      have opens : store.execute change fate = store.transaction (·.statementBody change) fate := by
        rw [RuntimeStore.execute, top]
      rw [top] at lengths
      have outside : snapshots.saved = [] := List.length_eq_zero_iff.mp lengths.symm
      rw [opens] at healthy ⊢
      rw [Snapshots.step, outside]
      exact transaction_follows (·.statement change)
        (statementBody_makes follows.enter (enter_inside store) change) healthy
  | cons frame frames =>
      have joins : store.execute change fate = store.statementBody change := by
        rw [RuntimeStore.execute, top]
      obtain ⟨start, saved, stack, -⟩ := follows.open_ top
      have spec : snapshots.step (.statement change fate) =
          { snapshots with current := snapshots.current.statement change } := by
        rw [Snapshots.step, stack]
      rw [joins, spec]
      exact statement_follows follows (by simp [top]) change

theorem FollowsSnapshots.step (follows : FollowsSnapshots store snapshots)
    (event : StoreEvent δ γ ω) (healthy : (store.step event).poisoned = false) :
    FollowsSnapshots (store.step event) (snapshots.step event) := by
  have inside := enter_inside store
  cases event with
  | enter =>
      simp only [RuntimeStore.step, RuntimeStore.whenHealthy, follows.healthy] at healthy ⊢
      exact follows.enter
  | leave raised fate =>
      cases top : store.frames with
      | nil =>
          have lengths := follows.frames_length
          rw [top] at lengths
          have outside : snapshots.saved = [] := List.length_eq_zero_iff.mp lengths.symm
          have same : snapshots.step (.leave raised fate) = snapshots := by
            simp [Snapshots.step, Snapshots.leave, Snapshots.commit, Snapshots.rollback, outside]
          rw [same]
          simpa [RuntimeStore.step, RuntimeStore.leave, top] using follows
      | cons frame frames =>
          have makes : Makes (store, if raised then .raised else .returned true) snapshots raised
              snapshots.current := by
            cases raised with
            | true => exact Makes.raises follows.toJournaled (by simp [top]) rfl rfl
            | false =>
                exact Makes.returns follows.toJournaled (by simp [top]) rfl rfl follows.current
                  follows.payloads
          exact makes.leave healthy
  | insert obj fault fate =>
      simp only [RuntimeStore.step, RuntimeStore.whenHealthy, follows.healthy] at healthy ⊢
      exact transaction_follows (·.insert obj) (insertBody_makes follows.enter inside obj fault) healthy
  | update obj expected fault fate =>
      simp only [RuntimeStore.step, RuntimeStore.whenHealthy, follows.healthy] at healthy ⊢
      exact transaction_follows (·.update obj expected)
        (updateBody_makes follows.enter inside obj expected fault) healthy
  | delete oid expected now fault fate =>
      simp only [RuntimeStore.step, RuntimeStore.whenHealthy, follows.healthy] at healthy ⊢
      exact transaction_follows (·.delete oid expected now)
        (deleteBody_makes follows.enter inside oid expected now fault) healthy
  | statement change fate =>
      simp only [RuntimeStore.step, RuntimeStore.whenHealthy, follows.healthy] at healthy ⊢
      exact execute_follows follows change fate healthy

/-! ## Runs -/

/-- A poisoned store stays poisoned. -/
theorem step_poisoned (poisoned : store.poisoned = true) (event : StoreEvent δ γ ω) :
    (store.step event).poisoned = true := by
  cases event with
  | leave raised fate =>
      simp only [RuntimeStore.step, RuntimeStore.leave]
      split
      · exact poisoned
      · simp [poisoned]
  | enter | insert | update | delete | statement =>
      simp [RuntimeStore.step, RuntimeStore.whenHealthy, poisoned]

theorem run_poisoned (poisoned : store.poisoned = true) (events : List (StoreEvent δ γ ω)) :
    (run RuntimeStore.step store events).poisoned = true :=
  @stable_run _ _ RuntimeStore.step (·.poisoned = true)
    (fun _ event here => step_poisoned here event) _ events poisoned

theorem FollowsSnapshots.run (follows : FollowsSnapshots store snapshots)
    (events : List (StoreEvent δ γ ω))
    (healthy : (run RuntimeStore.step store events).poisoned = false) :
    FollowsSnapshots (run RuntimeStore.step store events) (run Snapshots.step snapshots events) := by
  induction events generalizing store snapshots with
  | nil => exact follows
  | cons event events ih =>
      have here : (store.step event).poisoned = false := by
        by_contra poisoned
        have later := run_poisoned (by simpa using poisoned) events
        rw [show run RuntimeStore.step (store.step event) events =
          run RuntimeStore.step store (event :: events) from rfl, healthy] at later
        cases later
      exact ih (follows.step event here) healthy

theorem initial_follows (others : ω) :
    FollowsSnapshots (RuntimeStore.initial others : RuntimeStore δ γ ω) (Snapshots.initial others) :=
  ⟨⟨rfl, rfl, rfl, trivial, by simp [Snapshots.initial]⟩, rfl, rfl, fun _ => rfl⟩

namespace Snapshots

/-- Every contents that a scope may come back to. -/
structure AllLive (snapshots : Snapshots δ γ ω) : Prop where
  current : snapshots.current.LiveOnly
  saved : ∀ start ∈ snapshots.saved, start.LiveOnly

theorem AllLive.leave (live : snapshots.AllLive) (raised : Bool) (fate : ScopeFate) :
    (snapshots.leave raised fate).AllLive := by
  unfold Snapshots.leave
  split
  · unfold Snapshots.commit
    split
    · exact live
    · exact ⟨live.current, by simp⟩
    · rename_i stack
      refine ⟨live.current, fun start member => live.saved start ?_⟩
      rw [stack]
      exact List.mem_cons_of_mem _ member
  · unfold Snapshots.rollback
    split
    · rename_i stack
      refine ⟨live.saved _ (by simp [stack]), fun start member => live.saved start ?_⟩
      rw [stack]
      exact List.mem_cons_of_mem _ member
    · exact live

theorem AllLive.enter (live : snapshots.AllLive) : snapshots.enter.AllLive := by
  refine ⟨live.current, fun start member => ?_⟩
  rcases List.mem_cons.mp member with rfl | older
  · exact live.current
  · exact live.saved start older

theorem AllLive.mutate (live : snapshots.AllLive) (raised : Bool) (fate : ScopeFate)
    (change : Contents δ γ ω → Contents δ γ ω) (changed : (change snapshots.current).LiveOnly) :
    (snapshots.mutate raised fate change).AllLive := by
  have inner : ({ snapshots.enter with current := change snapshots.current } :
      Snapshots δ γ ω).AllLive := ⟨changed, live.enter.saved⟩
  exact inner.leave raised fate

theorem AllLive.step (live : snapshots.AllLive) (event : StoreEvent δ γ ω) :
    (snapshots.step event).AllLive := by
  cases event with
  | enter => exact live.enter
  | leave raised fate => exact live.leave raised fate
  | insert obj fault fate => exact live.mutate _ fate (·.insert obj) (live.current.insert obj)
  | update obj expected fault fate =>
      exact live.mutate _ fate (·.update obj expected) (live.current.update obj expected)
  | delete oid expected now fault fate =>
      exact live.mutate _ fate (·.delete oid expected now) (live.current.delete oid expected now)
  | statement change fate =>
      simp only [Snapshots.step]
      split
      · exact live.mutate _ fate (·.statement change) live.current
      · exact ⟨live.current, live.saved⟩

theorem initial_live (others : ω) : (Snapshots.initial others : Snapshots δ γ ω).AllLive := by
  constructor
  · intro oid object found
    cases found
  · intro start member
    cases member

end Snapshots

/-! ## Balanced runs -/

def StoreEvent.alone : StoreEvent δ γ ω → Bool
  | .enter | .leave .. => false
  | _ => true

/-- A finite tree of scopes and mutations, in the order in which it runs. -/
inductive Balanced : List (StoreEvent δ γ ω) → Prop
  | nil : Balanced []
  | mutation {event : StoreEvent δ γ ω} {rest : List (StoreEvent δ γ ω)} (alone : event.alone = true)
      (later : Balanced rest) : Balanced (event :: rest)
  | scope {body rest : List (StoreEvent δ γ ω)} (raised : Bool) (fate : ScopeFate)
      (inner : Balanced body) (later : Balanced rest) :
      Balanced (.enter :: (body ++ .leave raised fate :: rest))

namespace Snapshots

/-- The open scopes, and inside one of them the committed contents, are as before. -/
def Keeps (before after : Snapshots δ γ ω) : Prop :=
  after.saved = before.saved ∧ (before.saved ≠ [] → after.committed = before.committed)

theorem leave_keeps {inner : Snapshots δ γ ω} (keeps : Keeps snapshots.enter inner) (raised : Bool)
    (fate : ScopeFate) : Keeps snapshots (inner.leave raised fate) := by
  obtain ⟨saved, committed⟩ := keeps
  have same := committed (by simp [Snapshots.enter])
  have stack : inner.saved = snapshots.current :: snapshots.saved := saved
  unfold Snapshots.leave
  split
  · unfold Snapshots.commit
    rw [stack]
    split
    · rename_i impossible
      cases impossible
    · rename_i outermost
      have empty : snapshots.saved = [] := (List.cons.inj outermost).2
      exact ⟨empty.symm, fun inside => absurd empty inside⟩
    · rename_i here
      exact ⟨(List.cons.inj here).2.symm, fun _ => same⟩
  · unfold Snapshots.rollback
    rw [stack]
    exact ⟨rfl, fun _ => same⟩

theorem step_keeps {event : StoreEvent δ γ ω} (alone : event.alone = true) :
    Keeps snapshots (snapshots.step event) := by
  have mutate (raised : Bool) (fate : ScopeFate) (change : Contents δ γ ω → Contents δ γ ω) :
      Keeps snapshots (snapshots.mutate raised fate change) := by
    have inner : Keeps snapshots.enter
        ({ snapshots.enter with current := change snapshots.current } : Snapshots δ γ ω) :=
      ⟨rfl, fun _ => rfl⟩
    exact leave_keeps inner raised fate
  cases event with
  | enter | leave => cases alone
  | insert | update | delete => exact mutate _ _ _
  | statement change fate =>
      simp only [Snapshots.step]
      split
      · exact mutate _ _ _
      · exact ⟨rfl, fun _ => rfl⟩

theorem Keeps.trans {first second third : Snapshots δ γ ω} (here : Keeps first second)
    (there : Keeps second third) : Keeps first third := by
  refine ⟨there.1.trans here.1, fun inside => ?_⟩
  exact (there.2 (by rw [here.1]; exact inside)).trans (here.2 inside)

theorem balanced_keeps {events : List (StoreEvent δ γ ω)} (balanced : Balanced events) :
    Keeps snapshots (Library.Run.run Snapshots.step snapshots events) := by
  induction balanced generalizing snapshots with
  | nil => exact ⟨rfl, fun _ => rfl⟩
  | mutation alone _ ih => exact (step_keeps alone).trans ih
  | scope raised fate _ _ inner later =>
      have split : ∀ body rest : List (StoreEvent δ γ ω),
          Library.Run.run Snapshots.step snapshots (.enter :: (body ++ .leave raised fate :: rest)) =
            Library.Run.run Snapshots.step
              ((Library.Run.run Snapshots.step snapshots.enter body).leave raised fate) rest := by
        intro body rest
        exact run_append Snapshots.step snapshots.enter body _
      rw [split]
      exact (leave_keeps inner raised fate).trans later

/-- A scope that is rolled back ends where it started. -/
theorem balanced_rollback {body : List (StoreEvent δ γ ω)} (balanced : Balanced body)
    {raised : Bool} {fate : ScopeFate} (undone : raised = true ∨ fate.commit ≠ .done) :
    Library.Run.run Snapshots.step snapshots (.enter :: (body ++ [.leave raised fate])) =
      snapshots := by
  have keeps : Keeps snapshots.enter (Library.Run.run Snapshots.step snapshots.enter body) :=
    balanced_keeps balanced
  have same : (Library.Run.run Snapshots.step snapshots.enter body).committed = snapshots.committed :=
    keeps.2 (by simp [Snapshots.enter])
  have stack : (Library.Run.run Snapshots.step snapshots.enter body).saved =
      snapshots.current :: snapshots.saved := keeps.1
  have ends : Library.Run.run Snapshots.step snapshots (.enter :: (body ++ [.leave raised fate])) =
      (Library.Run.run Snapshots.step snapshots.enter body).leave raised fate :=
    run_append Snapshots.step snapshots.enter body _
  rw [ends, Snapshots.leave_undone undone, Snapshots.rollback, stack]
  dsimp only
  rw [same]

end Snapshots

/-- The contents that the surviving mutations of a run leave, in the current state of its scopes. -/
def survivors (others : ω) (events : List (StoreEvent δ γ ω)) : Contents δ γ ω :=
  (run Snapshots.step (Snapshots.initial others) events).current

/-- While the store is not poisoned, after any events of a tree of scopes its tables and its payload
map are those of a database with a payload column: a payload is cached exactly for the live rows,
the map outside every scope is that of the committed rows, and a scope that is rolled back leaves
rows and map as they were at its start. -/
theorem payload_cache_follows_database (others : ω) (before : List (StoreEvent δ γ ω))
    (healthy : (run RuntimeStore.step (RuntimeStore.initial others) before).poisoned = false) :
    let store := run RuntimeStore.step (RuntimeStore.initial others) before
    (store.current = (survivors others before).tables ∧
      store.objectPayloads = (survivors others before).payloads) ∧
    (∀ oid, (store.objectPayloads oid).isSome = true ↔
      ∃ row, store.current.objects oid = some row ∧ row.lifecycleState = .live) ∧
    (store.frames = [] → store.current = store.committed) ∧
    ∀ (body : List (StoreEvent δ γ ω)) (raised : Bool) (fate : ScopeFate), Balanced body →
      raised = true ∨ fate.commit ≠ .done →
      let after := run RuntimeStore.step store (.enter :: (body ++ [.leave raised fate]))
      after.poisoned = false → after.current = store.current ∧ after.committed = store.committed ∧
        after.objectPayloads = store.objectPayloads := by
  intro store
  have follows : FollowsSnapshots store (run Snapshots.step (Snapshots.initial others) before) :=
    (initial_follows others).run before healthy
  have live : (run Snapshots.step (Snapshots.initial others) before).AllLive :=
    @stable_run _ _ Snapshots.step Snapshots.AllLive (fun _ event here => here.step event) _ before
      (Snapshots.initial_live others)
  refine ⟨⟨follows.current, follows.payloads⟩, ?_, ?_, ?_⟩
  · intro oid
    rw [follows.payloads, follows.current]
    exact live.current.payloads oid
  · intro outside
    have lengths := follows.frames_length
    rw [outside] at lengths
    rw [follows.current, follows.committed,
      follows.outside (List.length_eq_zero_iff.mp lengths.symm)]
  · intro body raised fate balanced undone after sane
    have scope := follows.run (.enter :: (body ++ [.leave raised fate])) sane
    rw [Snapshots.balanced_rollback balanced undone] at scope
    exact ⟨scope.current.trans follows.current.symm, scope.committed.trans follows.committed.symm,
      scope.payloads.trans follows.payloads.symm⟩

section Example

def note (version payload : Nat) : AgentObject Nat Unit where
  oid := "note"
  payload := payload
  version := version
  ownerKind := "process"
  ownerId := some "pid_1"
  lifecycleState := .live
  deletedAt := none
  updatedAt := "t"
  columns := ()
  lifecycle_live := rfl

def committing : ScopeFate := ⟨.done, true⟩

/-- An update in an inner scope, then a delete. -/
def updateThenDelete : List (StoreEvent Nat Unit Unit) :=
  [.enter, .update (note 2 8) ⟨some 1, none, none⟩ .nowhere committing, .leave false committing,
    .delete "note" ⟨none, none, none⟩ "t" .nowhere committing]

theorem payload_restored_after_failed_commit :
    (run RuntimeStore.step (run RuntimeStore.step (RuntimeStore.initial ())
      [.insert (note 1 7) .nowhere committing])
      (.enter :: (updateThenDelete ++ [.leave false ⟨.leftOpen, true⟩]))).objectPayloads "note" =
        some 7 := by
  have balanced : Balanced updateThenDelete :=
    Balanced.scope false committing (Balanced.mutation rfl .nil) (Balanced.mutation rfl .nil)
  have follows := payload_cache_follows_database () [.insert (note 1 7) .nowhere committing] rfl
  have restored := follows.2.2.2 updateThenDelete false ⟨.leftOpen, true⟩ balanced
    (Or.inr (by decide)) rfl
  rw [restored.2.2]
  rfl

end Example

end AgentLibOS.Storage
