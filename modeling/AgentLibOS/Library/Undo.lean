import Mathlib.Logic.Function.Basic

namespace AgentLibOS.Library.Undo

variable {κ ν : Type*}

/-- The before-images that one scope recorded; an absent value is an image too. -/
abbrev Frame (κ ν : Type*) := κ → Option (Option ν)

def Frame.empty : Frame κ ν := fun _ => none

def restore (frame : Frame κ ν) (values : κ → Option ν) : κ → Option ν :=
  fun key => (frame key).getD (values key)

/-- The images of a committed inner scope count where the outer one has none. -/
def merge (inner outer : Frame κ ν) : Frame κ ν := fun key => (outer key).or (inner key)

/-- The frames, innermost first, lead back to the values at the start of each scope. -/
def Undoes : List (Frame κ ν) → (κ → Option ν) → List (κ → Option ν) → Prop
  | [], _, [] => True
  | frame :: frames, values, start :: starts =>
      restore frame values = start ∧ Undoes frames start starts
  | _, _, _ => False

theorem restore_empty (values : κ → Option ν) : restore .empty values = values := rfl

theorem restore_merge (inner outer : Frame κ ν) (values : κ → Option ν) :
    restore (merge inner outer) values = restore outer (restore inner values) := by
  funext key
  cases image : outer key with
  | none => simp [restore, merge, image]
  | some value => simp [restore, merge, image]

theorem Undoes.enter {frames : List (Frame κ ν)} {values : κ → Option ν}
    {starts : List (κ → Option ν)} (undoes : Undoes frames values starts) :
    Undoes (.empty :: frames) values (values :: starts) :=
  ⟨restore_empty values, undoes⟩

theorem Undoes.release {inner outer : Frame κ ν} {frames : List (Frame κ ν)}
    {values start start' : κ → Option ν} {starts : List (κ → Option ν)}
    (undoes : Undoes (inner :: outer :: frames) values (start :: start' :: starts)) :
    Undoes (merge inner outer :: frames) values (start' :: starts) := by
  obtain ⟨rfl, here, rest⟩ := undoes
  exact ⟨(restore_merge inner outer values).trans here, rest⟩

theorem Undoes.length {frames : List (Frame κ ν)} {values : κ → Option ν}
    {starts : List (κ → Option ν)} (undoes : Undoes frames values starts) :
    frames.length = starts.length := by
  induction frames generalizing values starts with
  | nil =>
      cases starts with
      | nil => rfl
      | cons start starts => exact undoes.elim
  | cons frame frames ih =>
      cases starts with
      | nil => exact undoes.elim
      | cons start starts => simp [ih undoes.2]

variable [DecidableEq κ]

/-- Record the value of the key, unless the scope has an image of it. -/
def record (frame : Frame κ ν) (values : κ → Option ν) (key : κ) : Frame κ ν :=
  if (frame key).isSome then frame else Function.update frame key (some (values key))

theorem restore_record (frame : Frame κ ν) (values : κ → Option ν) (key : κ) (value : Option ν) :
    restore (record frame values key) (Function.update values key value) = restore frame values := by
  funext other
  by_cases here : other = key
  · subst here
    cases image : frame other with
    | none => simp [restore, record, image]
    | some before => simp [restore, record, image]
  · by_cases seen : (frame key).isSome = true
    · simp [restore, record, seen, Function.update_of_ne here]
    · simp [restore, record, seen, Function.update_of_ne here]

theorem Undoes.write {frame : Frame κ ν} {frames : List (Frame κ ν)} {values : κ → Option ν}
    {starts : List (κ → Option ν)} (undoes : Undoes (frame :: frames) values starts) (key : κ)
    (value : Option ν) :
    Undoes (record frame values key :: frames) (Function.update values key value) starts := by
  cases starts with
  | nil => exact undoes.elim
  | cons start starts => exact ⟨(restore_record frame values key value).trans undoes.1, undoes.2⟩

/-- Recording alone changes nothing that is restored. -/
theorem Undoes.record {frame : Frame κ ν} {frames : List (Frame κ ν)} {values : κ → Option ν}
    {starts : List (κ → Option ν)} (undoes : Undoes (frame :: frames) values starts) (key : κ) :
    Undoes (Undo.record frame values key :: frames) values starts := by
  have written := undoes.write key (values key)
  rwa [Function.update_eq_self] at written

end AgentLibOS.Library.Undo
