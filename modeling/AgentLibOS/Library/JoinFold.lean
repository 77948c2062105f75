import Mathlib.Order.Lattice
import Mathlib.Order.Defs.LinearOrder
import Mathlib.Data.List.Perm.Basic

namespace AgentLibOS.Library.JoinFold

/-! ## Joining a batch -/

section Join
variable {α : Type*} [SemilatticeSup α]

def joinAll (start : α) (inputs : List α) : α := inputs.foldl (· ⊔ ·) start

@[simp] theorem joinAll_nil (start : α) : joinAll start [] = start := rfl

@[simp] theorem joinAll_cons (start a : α) (inputs : List α) :
    joinAll start (a :: inputs) = joinAll (start ⊔ a) inputs := rfl

theorem joinAll_le_iff {start bound : α} {inputs : List α} :
    joinAll start inputs ≤ bound ↔ start ≤ bound ∧ ∀ a ∈ inputs, a ≤ bound := by
  induction inputs generalizing start with
  | nil => simp
  | cons a inputs ih => simp [ih, and_assoc]

theorem le_joinAll {start a : α} {inputs : List α} (member : a ∈ start :: inputs) :
    a ≤ joinAll start inputs := by
  have bounds := joinAll_le_iff.mp (le_refl (joinAll start inputs))
  rcases List.mem_cons.mp member with rfl | inside
  · exact bounds.1
  · exact bounds.2 a inside

theorem joinAll_perm {start : α} {left right : List α} (perm : left.Perm right) :
    joinAll start left = joinAll start right := by
  refine perm.foldl_eq' (fun a _ b _ acc => ?_) start
  exact sup_right_comm acc a b

theorem joinAll_sup (start a : α) (inputs : List α) :
    joinAll (start ⊔ a) inputs = joinAll start inputs ⊔ a := by
  induction inputs generalizing start with
  | nil => rfl
  | cons b inputs ih => rw [joinAll_cons, joinAll_cons, sup_right_comm, ih]

theorem joinAll_pair {γ : Type*} [SemilatticeSup γ] (left : α) (right : γ)
    (inputs : List (α × γ)) : joinAll (left, right) inputs =
      (joinAll left (inputs.map Prod.fst), joinAll right (inputs.map Prod.snd)) := by
  induction inputs generalizing left right with
  | nil => rfl
  | cons a inputs ih => exact ih _ _

theorem le_joinAll_iff {γ : Type*} [LinearOrder γ] {start bound : γ} {inputs : List γ} :
    bound ≤ joinAll start inputs ↔ bound ≤ start ∨ ∃ a ∈ inputs, bound ≤ a := by
  induction inputs generalizing start with
  | nil => simp
  | cons a inputs ih => simp [ih, le_sup_iff, or_assoc]

/-- A merge of batches that some observation turns into joins. -/
def Joins {β : Type*} (observe : β → α) (merge : β → List β → β) : Prop :=
  ∀ start inputs, observe (merge start inputs) = joinAll (observe start) (inputs.map observe)

variable {β : Type*} {observe : β → α} {merge : β → List β → β}

theorem Joins.grouped (joins : Joins observe merge) (start : β) (groups : List (List β)) :
    observe (groups.foldl merge start) =
      joinAll (observe start) (groups.flatten.map observe) := by
  induction groups generalizing start with
  | nil => rfl
  | cons group groups ih =>
      rw [List.foldl_cons, ih, joins, List.flatten_cons, List.map_append, joinAll, joinAll, joinAll,
        List.foldl_append]

/-- What is observed of a merge depends neither on the order nor on the grouping of its inputs. -/
theorem Joins.grouping_irrelevant (joins : Joins observe merge) {start : β} {inputs : List β}
    {groups : List (List β)} (perm : groups.flatten.Perm inputs) :
    observe (groups.foldl merge start) = observe (merge start inputs) := by
  rw [joins.grouped, joins, joinAll_perm (perm.map observe)]

theorem Joins.le (joins : Joins observe merge) {start a : β} {inputs : List β}
    (member : a ∈ start :: inputs) : observe a ≤ observe (merge start inputs) := by
  rw [joins]
  exact le_joinAll (List.mem_map_of_mem (f := observe) member)

end Join

/-! ## Flat lattices -/

/-- The values of `α` made pairwise incomparable between a bottom and a top. -/
inductive Flat (α : Type*)
  | bot
  | single (a : α)
  | top
  deriving DecidableEq

namespace Flat
variable {α : Type*}

protected def le : Flat α → Flat α → Prop
  | .bot, _ => True
  | _, .top => True
  | .single a, .single b => a = b
  | _, _ => False

instance : PartialOrder (Flat α) where
  le := Flat.le
  le_refl a := by cases a <;> simp [Flat.le]
  le_trans a b c := by
    cases a <;> cases b <;> cases c <;> simp +contextual [Flat.le]
  le_antisymm a b := by
    cases a <;> cases b <;> simp +contextual [Flat.le]

@[simp] theorem bot_le (a : Flat α) : Flat.bot ≤ a := by cases a <;> exact trivial
@[simp] theorem le_top (a : Flat α) : a ≤ Flat.top := by cases a <;> exact trivial
@[simp] theorem single_le_single {a b : α} : Flat.single a ≤ Flat.single b ↔ a = b := Iff.rfl
@[simp] theorem not_single_le_bot {a : α} : ¬ Flat.single a ≤ Flat.bot := id
@[simp] theorem not_top_le_single {a : α} : ¬ Flat.top ≤ Flat.single a := id
@[simp] theorem not_top_le_bot : ¬ (Flat.top : Flat α) ≤ Flat.bot := id

variable [DecidableEq α]

protected def sup : Flat α → Flat α → Flat α
  | .bot, b => b
  | a, .bot => a
  | .single a, .single b => if a = b then .single a else .top
  | _, _ => .top

instance : SemilatticeSup (Flat α) where
  sup := Flat.sup
  le_sup_left a b := by
    cases a <;> cases b <;> simp only [Flat.sup, bot_le, le_top, le_refl]
    split_ifs <;> simp
  le_sup_right a b := by
    cases a <;> cases b <;> simp only [Flat.sup, bot_le, le_top, le_refl]
    split_ifs with same <;> simp [same]
  sup_le a b c := by
    cases a <;> cases b <;> cases c <;> simp +contextual [Flat.sup]

end Flat
end AgentLibOS.Library.JoinFold
