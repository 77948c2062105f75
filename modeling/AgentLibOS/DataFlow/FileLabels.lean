import AgentLibOS.DataFlow.Labels
import Mathlib.Logic.Function.Basic

namespace AgentLibOS.DataFlow

inductive FileLabelError
  | generationConflict | compareArguments | integrity | digest | notReading
  deriving DecidableEq, Repr

structure FileLabelBinding where
  bindingId : String
  normalizedPath : String
  contentSha256 : Option String
  labels : DataLabels
  sourceRefs : List DataSourceRef
  generation : Nat
  tombstoned : Bool
  active : Bool
  positive : 1 ≤ generation
  hashed : contentSha256.isSome = !tombstoned

def FileLabelBinding.tombstone (previous : FileLabelBinding) (bindingId : String) :
    FileLabelBinding where
  bindingId := bindingId
  normalizedPath := previous.normalizedPath
  contentSha256 := none
  labels := previous.labels
  sourceRefs := normalizeSourceRefs previous.sourceRefs
  generation := previous.generation + 1
  tombstoned := true
  active := true
  positive := Nat.le_add_left 1 previous.generation
  hashed := rfl

/-! ## The table `file_label_bindings` -/

abbrev FileLabelRows := List FileLabelBinding

namespace FileLabelRows

/-- `MAX(generation)` over the rows of the path, superseded ones and tombstones included. -/
def generation (rows : FileLabelRows) (path : String) : Nat :=
  ((rows.filter (·.normalizedPath == path)).map (·.generation)).foldr max 0

def getFileLabelBinding (rows : FileLabelRows) (path : String) : Option FileLabelBinding :=
  rows.find? fun binding =>
    binding.normalizedPath == path && binding.active && !binding.tombstoned

def getFileLabelBindingById (rows : FileLabelRows) (bindingId : String) :
    Option FileLabelBinding :=
  rows.find? (·.bindingId == bindingId)

/-- `UPDATE … SET active = 0` on the active rows that are selected. -/
def supersede (rows : FileLabelRows) (selects : FileLabelBinding → Bool) : FileLabelRows :=
  rows.map fun binding =>
    if selects binding && binding.active then { binding with active := false } else binding

/-- `INSERT` under the primary key and the two unique indexes. -/
def insert (rows : FileLabelRows) (binding : FileLabelBinding) :
    Except FileLabelError FileLabelRows :=
  if rows.any (·.bindingId == binding.bindingId) then .error .integrity
  else if rows.any fun row => row.normalizedPath == binding.normalizedPath &&
      (row.generation == binding.generation || row.active && binding.active) then
    .error .integrity
  else .ok (binding :: rows)

def upsertFileLabelBinding (rows : FileLabelRows) (binding : FileLabelBinding) :
    Except FileLabelError FileLabelRows :=
  if binding.generation ≠ rows.generation binding.normalizedPath + 1 then
    .error .generationConflict
  else
    (rows.supersede (·.normalizedPath == binding.normalizedPath)).insert binding

/-- The rows and the tombstone that was written, if any. -/
def tombstoneFileLabelBinding (rows : FileLabelRows) (path bindingId : String)
    (expectedBindingId : Option String) (expectedGeneration : Option Nat) :
    Except FileLabelError (FileLabelRows × Option FileLabelBinding) :=
  if expectedBindingId.isNone != expectedGeneration.isNone then .error .compareArguments
  else
    match rows.getFileLabelBinding path with
    | none => .ok (rows, none)
    | some previous =>
        if expectedBindingId.isSome &&
            (some previous.bindingId != expectedBindingId ||
              some previous.generation != expectedGeneration) then .ok (rows, none)
        else do
          let tombstone := previous.tombstone bindingId
          let written ← (rows.supersede (·.bindingId == previous.bindingId)).insert tombstone
          .ok (written, some tombstone)

end FileLabelRows

/-! ## Writers -/

/-- The content is hashed here, or its digest is supplied by a protected Host provider. -/
inductive FileContent
  | content (bytes : List UInt8)
  | digest (sha256 : String)

structure FileWrite where
  normalizedPath : String
  content : FileContent
  context : DataFlowContext

/-- A call of `bind_written_file` or `bind_written_file_digest` between its store accesses. -/
inductive FileWriter
  | idle
  | generationRead (write : FileWrite) (previousGeneration : Nat)
  | previousRead (write : FileWrite) (previousGeneration : Nat)
      (previous : Option FileLabelBinding)

def selectedContext (previous : Option FileLabelBinding) (context : DataFlowContext) :
    DataFlowContext :=
  match previous with
  | some previous => .aggregate [.of previous.labels previous.sourceRefs none, context]
  | none => context

def validDigest (sha256 : String) : Bool :=
  decide (sha256.length = 64) && sha256.toList.all fun c => c ∈ "0123456789abcdef".toList

namespace FileWrite
variable (sha256 : List UInt8 → String)

def accepted (write : FileWrite) : Bool :=
  match write.content with
  | .content _ => true
  | .digest supplied => validDigest supplied

def contentSha256 (write : FileWrite) : String :=
  match write.content with
  | .content bytes => sha256 bytes
  | .digest supplied => supplied

def binding (write : FileWrite) (bindingId : String) (previousGeneration : Nat)
    (previous : Option FileLabelBinding) : FileLabelBinding where
  bindingId := bindingId
  normalizedPath := write.normalizedPath
  contentSha256 := some (write.contentSha256 sha256)
  labels := (selectedContext previous write.context).labels
  sourceRefs := normalizeSourceRefs (selectedContext previous write.context).sourceRefs
  generation := previousGeneration + 1
  tombstoned := false
  active := true
  positive := Nat.le_add_left 1 previousGeneration
  hashed := rfl

end FileWrite

/-! ## Interleaved writers and deleters -/

variable {κ : Type} [DecidableEq κ]

structure FileLabelState (κ : Type) where
  rows : FileLabelRows
  writers : κ → FileWriter

inductive FileLabelEvent (κ : Type)
  | begin_ (writer : κ) (write : FileWrite)
  | readPrevious (writer : κ)
  | upsert (writer : κ) (bindingId : String)
  | tombstone (path bindingId : String) (expectedBindingId : Option String)
      (expectedGeneration : Option Nat)

namespace FileLabelState
variable (sha256 : List UInt8 → String)

def start : FileLabelState κ := ⟨[], fun _ => .idle⟩

/-- What the event writes. -/
def written (state : FileLabelState κ) :
    FileLabelEvent κ → Except FileLabelError FileLabelRows
  | .begin_ _ write => if write.accepted then .ok state.rows else .error .digest
  | .readPrevious _ => .ok state.rows
  | .upsert writer bindingId =>
      match state.writers writer with
      | .previousRead write previousGeneration previous =>
          state.rows.upsertFileLabelBinding
            (write.binding sha256 bindingId previousGeneration previous)
      | _ => .error .notReading
  | .tombstone path bindingId expectedBindingId expectedGeneration =>
      (state.rows.tombstoneFileLabelBinding path bindingId expectedBindingId
        expectedGeneration).map (·.1)

/-- Where the event leaves the writers. -/
def advanced (state : FileLabelState κ) : FileLabelEvent κ → κ → FileWriter
  | .begin_ writer write =>
      Function.update state.writers writer
        (if write.accepted then
          .generationRead write (state.rows.generation write.normalizedPath)
        else .idle)
  | .readPrevious writer =>
      match state.writers writer with
      | .generationRead write previousGeneration =>
          Function.update state.writers writer (.previousRead write previousGeneration
            (state.rows.getFileLabelBinding write.normalizedPath))
      | _ => state.writers
  | .upsert writer _ => Function.update state.writers writer .idle
  | .tombstone .. => state.writers

def step (state : FileLabelState κ) (event : FileLabelEvent κ) : FileLabelState κ where
  rows :=
    match state.written sha256 event with
    | .ok rows => rows
    | .error _ => state.rows
  writers := state.advanced event

end FileLabelState
end AgentLibOS.DataFlow
