import AgentLibOS.Library.Undo

namespace AgentLibOS.Storage
open Library.Undo

/-! ## Tables -/

inductive ObjectLifecycleState
  | live | released
  deriving DecidableEq, Repr

/-- An object to be stored. Its payload is of type `δ`, and `γ` stands for the columns that no
statement below compares. Every caller stores live objects. -/
structure AgentObject (δ γ : Type) where
  oid : String
  payload : δ
  version : Nat
  ownerKind : String
  ownerId : Option String
  lifecycleState : ObjectLifecycleState
  deletedAt : Option String
  updatedAt : String
  columns : γ
  lifecycle_live : lifecycleState = .live

/-- A row of `objects`: its `payload_json` only marks that a payload is present. -/
structure ObjectRow (γ : Type) where
  version : Nat
  ownerKind : String
  ownerId : Option String
  lifecycleState : ObjectLifecycleState
  payloadPresent : Bool
  deletedAt : Option String
  updatedAt : String
  columns : γ

/-- The SQL tables; `ω` stands for the ones that hold no objects. -/
structure Tables (γ ω : Type) where
  objects : String → Option (ObjectRow γ)
  links : List (String × String)
  others : ω

/-- The optional preconditions of an update or a delete. -/
structure Expectations where
  version : Option Nat
  ownerKind : Option String
  ownerId : Option String

namespace Expectations

/-- The `WHERE` clause, once the oid has selected the row. -/
def selects {γ : Type} (expected : Expectations) (row : ObjectRow γ) : Bool :=
  row.lifecycleState == .live && expected.version.all (row.version == ·) &&
    expected.ownerKind.all (row.ownerKind == ·) && expected.ownerId.all (row.ownerId == some ·)

end Expectations

namespace AgentObject
variable {δ γ : Type}

/-- The columns that INSERT and UPDATE write. -/
def row (obj : AgentObject δ γ) : ObjectRow γ where
  version := obj.version
  ownerKind := obj.ownerKind
  ownerId := obj.ownerId
  lifecycleState := obj.lifecycleState
  payloadPresent := true
  deletedAt := obj.deletedAt
  updatedAt := obj.updatedAt
  columns := obj.columns

end AgentObject

namespace ObjectRow
variable {γ : Type}

def release (row : ObjectRow γ) (now : String) : ObjectRow γ :=
  { row with
    payloadPresent := false
    lifecycleState := .released
    deletedAt := some now
    updatedAt := now }

end ObjectRow

namespace Tables
variable {γ ω : Type}

def put (tables : Tables γ ω) (oid : String) (row : ObjectRow γ) : Tables γ ω :=
  { tables with objects := Function.update tables.objects oid (some row) }

/-- The row that an UPDATE with these preconditions changes. -/
def selected (tables : Tables γ ω) (oid : String) (expected : Expectations) : Option (ObjectRow γ) :=
  (tables.objects oid).filter expected.selects

def unlink (tables : Tables γ ω) (oid : String) : Tables γ ω :=
  { tables with links := tables.links.filter fun link => link.1 != oid && link.2 != oid }

end Tables

/-! ## Scopes -/

/-- What the commit of a scope does. An outer commit that fails is uncertain unless the connection
says that its transaction is still open. -/
inductive CommitFate
  | done | leftOpen | uncertain
  deriving DecidableEq, Repr

structure ScopeFate where
  commit : CommitFate
  rollsBack : Bool
  deriving DecidableEq, Repr

/-- Which step of the body of a mutation raises: copying the payload, its statement, or the
statement that removes the links. -/
inductive BodyFault
  | nowhere | copying | executing | unlinking
  deriving DecidableEq, Repr

inductive Outcome
  | raised
  | returned (changed : Bool)
  deriving DecidableEq, Repr

/-- The store inside at most one open transaction. `savepoints` are the tables at the start of each
open scope and `frames` their journals, innermost first; their length is `_transaction_depth`. -/
structure RuntimeStore (δ γ ω : Type) where
  committed : Tables γ ω
  current : Tables γ ω
  savepoints : List (Tables γ ω)
  objectPayloads : String → Option δ
  frames : List (Frame String δ)
  poisoned : Bool

namespace RuntimeStore
variable {δ γ ω : Type}

def initial (others : ω) : RuntimeStore δ γ ω where
  committed := ⟨fun _ => none, [], others⟩
  current := ⟨fun _ => none, [], others⟩
  savepoints := []
  objectPayloads := fun _ => none
  frames := []
  poisoned := false

/-- BEGIN at depth zero, SAVEPOINT below it. -/
def enter (store : RuntimeStore δ γ ω) : RuntimeStore δ γ ω :=
  { store with
    savepoints := store.current :: store.savepoints
    frames := .empty :: store.frames }

/-- ROLLBACK at depth zero, ROLLBACK TO and RELEASE below it. -/
def sqlRollback (store : RuntimeStore δ γ ω) (depth : Nat) : RuntimeStore δ γ ω :=
  if depth = 0 then { store with current := store.committed, savepoints := [] }
  else match store.savepoints with
    | savepoint :: savepoints => { store with current := savepoint, savepoints := savepoints }
    | [] => store

/-- COMMIT at depth zero, RELEASE below it. -/
def sqlCommit (store : RuntimeStore δ γ ω) (depth : Nat) : RuntimeStore δ γ ω :=
  if depth = 0 then { store with committed := store.current, savepoints := [] }
  else { store with savepoints := store.savepoints.tail }

/-- `_rollback_scope`, with the frame popped by the `finally` of `transaction`. -/
def rollbackScope (store : RuntimeStore δ γ ω) (frame : Frame String δ)
    (frames : List (Frame String δ)) (rollsBack : Bool) : RuntimeStore δ γ ω :=
  if rollsBack then
    { store.sqlRollback frames.length with
      objectPayloads := restore frame store.objectPayloads
      frames := frames }
  else { store with poisoned := true, frames := frames }

def mergeIntoParent (frame : Frame String δ) : List (Frame String δ) → List (Frame String δ)
  | [] => []
  | parent :: frames => merge frame parent :: frames

def commitScope (store : RuntimeStore δ γ ω) (frame : Frame String δ)
    (frames : List (Frame String δ)) (fate : ScopeFate) (changed : Bool) :
    RuntimeStore δ γ ω × Outcome :=
  match fate.commit with
  | .done =>
      ({ store.sqlCommit frames.length with frames := mergeIntoParent frame frames },
        .returned changed)
  | .leftOpen => (store.rollbackScope frame frames fate.rollsBack, .raised)
  | .uncertain =>
      if frames.length = 0 then ({ store with poisoned := true, frames := frames }, .raised)
      else (store.rollbackScope frame frames fate.rollsBack, .raised)

/-- The end of the innermost scope. A body that raises inside a poisoned store is not rolled back. -/
def leave (store : RuntimeStore δ γ ω) (body : Outcome) (fate : ScopeFate) :
    RuntimeStore δ γ ω × Outcome :=
  match store.frames with
  | [] => (store, .raised)
  | frame :: frames =>
      if store.poisoned then ({ store with frames := frames }, .raised)
      else match body with
        | .raised => (store.rollbackScope frame frames fate.rollsBack, .raised)
        | .returned changed => store.commitScope frame frames fate changed

/-! ## The payload cache -/

def journalObjectPayload (store : RuntimeStore δ γ ω) (oid : String) : RuntimeStore δ γ ω :=
  match store.frames with
  | [] => store
  | frame :: frames => { store with frames := record frame store.objectPayloads oid :: frames }

def setCachedObjectPayload (store : RuntimeStore δ γ ω) (oid : String) (payload : δ) :
    RuntimeStore δ γ ω :=
  { store.journalObjectPayload oid with
    objectPayloads := Function.update store.objectPayloads oid (some payload) }

def forgetCachedObjectPayload (store : RuntimeStore δ γ ω) (oid : String) : RuntimeStore δ γ ω :=
  { store.journalObjectPayload oid with
    objectPayloads := Function.update store.objectPayloads oid none }

/-! ## Mutations -/

def insertBody (store : RuntimeStore δ γ ω) (obj : AgentObject δ γ) (fault : BodyFault) :
    RuntimeStore δ γ ω × Outcome :=
  if fault = .copying then (store.journalObjectPayload obj.oid, .raised)
  else
    let cached := store.setCachedObjectPayload obj.oid obj.payload
    if fault = .executing ∨ (store.current.objects obj.oid).isSome then (cached, .raised)
    else ({ cached with current := store.current.put obj.oid obj.row }, .returned true)

def updateBody (store : RuntimeStore δ γ ω) (obj : AgentObject δ γ) (expected : Expectations)
    (fault : BodyFault) : RuntimeStore δ γ ω × Outcome :=
  if fault = .executing then (store, .raised)
  else match store.current.selected obj.oid expected with
    | none => (store, .returned false)
    | some _ =>
        let updated := { store with current := store.current.put obj.oid obj.row }
        if fault = .copying then (updated.journalObjectPayload obj.oid, .raised)
        else (updated.setCachedObjectPayload obj.oid obj.payload, .returned true)

def deleteBody (store : RuntimeStore δ γ ω) (oid : String) (expected : Expectations) (now : String)
    (fault : BodyFault) : RuntimeStore δ γ ω × Outcome :=
  if fault = .executing then (store, .raised)
  else match store.current.selected oid expected with
    | none => (store, .returned false)
    | some row =>
        let released := { store with current := store.current.put oid (row.release now) }
        let forgotten := released.forgetCachedObjectPayload oid
        if fault = .unlinking then (forgotten, .raised)
        else ({ forgotten with current := forgotten.current.unlink oid }, .returned true)

/-- A statement on the other tables; `none` is a statement that raises. -/
def statementBody (store : RuntimeStore δ γ ω) (change : ω → Option ω) :
    RuntimeStore δ γ ω × Outcome :=
  match change store.current.others with
  | some others => ({ store with current := { store.current with others := others } }, .returned true)
  | none => (store, .raised)

/-- `with self.transaction(...)` around a body. -/
def transaction (store : RuntimeStore δ γ ω)
    (body : RuntimeStore δ γ ω → RuntimeStore δ γ ω × Outcome) (fate : ScopeFate) :
    RuntimeStore δ γ ω × Outcome :=
  let (ended, outcome) := body store.enter
  ended.leave outcome fate

def insertObject (store : RuntimeStore δ γ ω) (obj : AgentObject δ γ) (fault : BodyFault)
    (fate : ScopeFate) : RuntimeStore δ γ ω × Outcome :=
  store.transaction (·.insertBody obj fault) fate

def updateObject (store : RuntimeStore δ γ ω) (obj : AgentObject δ γ) (expected : Expectations)
    (fault : BodyFault) (fate : ScopeFate) : RuntimeStore δ γ ω × Outcome :=
  store.transaction (·.updateBody obj expected fault) fate

def deleteObject (store : RuntimeStore δ γ ω) (oid : String) (expected : Expectations) (now : String)
    (fault : BodyFault) (fate : ScopeFate) : RuntimeStore δ γ ω × Outcome :=
  store.transaction (·.deleteBody oid expected now fault) fate

/-- `_join_or_begin_transaction`: no scope of its own inside an open transaction. -/
def execute (store : RuntimeStore δ γ ω) (change : ω → Option ω) (fate : ScopeFate) :
    RuntimeStore δ γ ω × Outcome :=
  match store.frames with
  | [] => store.transaction (·.statementBody change) fate
  | _ => store.statementBody change

end RuntimeStore

/-! ## Runs -/

/-- Scopes are opened and closed in a stack, so a run of these events is a tree of scopes, or the
part of one that has been executed. An error that the caller of an inner scope swallows ends that
scope alone; one that it passes on ends the outer scope with a raised body as well. -/
inductive StoreEvent (δ γ ω : Type)
  | enter
  | leave (raised : Bool) (fate : ScopeFate)
  | insert (obj : AgentObject δ γ) (fault : BodyFault) (fate : ScopeFate)
  | update (obj : AgentObject δ γ) (expected : Expectations) (fault : BodyFault) (fate : ScopeFate)
  | delete (oid : String) (expected : Expectations) (now : String) (fault : BodyFault)
      (fate : ScopeFate)
  | statement (change : ω → Option ω) (fate : ScopeFate)

namespace RuntimeStore
variable {δ γ ω : Type}

/-- `_ensure_healthy`: a poisoned store refuses the operation. -/
def whenHealthy (store : RuntimeStore δ γ ω)
    (operation : RuntimeStore δ γ ω → RuntimeStore δ γ ω) : RuntimeStore δ γ ω :=
  if store.poisoned then store else operation store

def step (store : RuntimeStore δ γ ω) : StoreEvent δ γ ω → RuntimeStore δ γ ω
  | .enter => store.whenHealthy enter
  | .leave raised fate => (store.leave (if raised then .raised else .returned true) fate).1
  | .insert obj fault fate => store.whenHealthy fun store => (store.insertObject obj fault fate).1
  | .update obj expected fault fate =>
      store.whenHealthy fun store => (store.updateObject obj expected fault fate).1
  | .delete oid expected now fault fate =>
      store.whenHealthy fun store => (store.deleteObject oid expected now fault fate).1
  | .statement change fate => store.whenHealthy fun store => (store.execute change fate).1

end RuntimeStore

end AgentLibOS.Storage
