import AgentLibOS.Library.Assoc
import Mathlib.Algebra.BigOperators.Group.List.Basic
import Mathlib.Algebra.GroupWithZero.Nat

namespace AgentLibOS.Library.Counter
open Assoc

variable {κ : Type*} [DecidableEq κ]

/-- `counts.get(key, 0)`. -/
def countOf (counts : List (κ × Nat)) (key : κ) : Nat := (get counts key).getD 0

/-- `counts[key] = counts.get(key, 0) + amount`. -/
def addCount (counts : List (κ × Nat)) (key : κ) (amount : Nat) : List (κ × Nat) :=
  put counts key (countOf counts key + amount)

def total (counts : List (κ × Nat)) : Nat := (counts.map Prod.snd).sum

theorem countOf_nil (key : κ) : countOf [] key = 0 := rfl

theorem countOf_addCount (counts : List (κ × Nat)) (key other : κ) (amount : Nat) :
    countOf (addCount counts key amount) other =
      countOf counts other + if key = other then amount else 0 := by
  rw [countOf, addCount, get_put]
  split_ifs with same
  · rw [same]
    rfl
  · rfl

theorem total_addCount (counts : List (κ × Nat)) (key : κ) (amount : Nat) :
    total (addCount counts key amount) = total counts + amount := by
  have grown (counts : List (κ × Nat)) : total (put counts key (countOf counts key + amount)) =
      total counts + amount := by
    induction counts with
    | nil => simp [put, total, countOf, Assoc.get]
    | cons entry counts ih =>
        unfold total at ih ⊢
        rw [put, countOf, get_cons]
        by_cases here : entry.1 = key
        · simp only [if_pos here, List.map_cons, List.sum_cons, Option.getD_some]
          omega
        · rw [if_neg here, if_neg here]
          change (entry.2 :: (put counts key (countOf counts key + amount)).map Prod.snd).sum = _
          rw [List.sum_cons, ih, List.map_cons, List.sum_cons]
          omega
  exact grown counts

theorem addCount_distinct {counts : List (κ × Nat)} (distinct : (keys counts).Nodup) (key : κ)
    (amount : Nat) : (keys (addCount counts key amount)).Nodup := put_distinct distinct _ _

theorem countOf_perm {counts counts' : List (κ × Nat)} (same : counts.Perm counts')
    (distinct : (keys counts).Nodup) (key : κ) : countOf counts key = countOf counts' key := by
  rw [countOf, countOf, get_perm same distinct]

omit [DecidableEq κ] in
theorem total_perm {counts counts' : List (κ × Nat)} (same : counts.Perm counts') :
    total counts = total counts' := (same.map Prod.snd).sum_eq

/-- Counting items one by one. -/
theorem countOf_tally {α : Type*} (name : α → κ) (items : List α) (counts : List (κ × Nat)) (key : κ) :
    countOf (items.foldl (fun counts item => addCount counts (name item) 1) counts) key =
      countOf counts key + items.countP (name · = key) := by
  induction items generalizing counts with
  | nil => rfl
  | cons item items ih =>
      rw [List.foldl_cons, ih, countOf_addCount, List.countP_cons]
      simp only [decide_eq_true_eq]
      omega

theorem tally_distinct {α : Type*} (name : α → κ) (items : List α) {counts : List (κ × Nat)}
    (distinct : (keys counts).Nodup) :
    (keys (items.foldl (fun counts item => addCount counts (name item) 1) counts)).Nodup := by
  induction items generalizing counts with
  | nil => exact distinct
  | cons item items ih => exact ih (addCount_distinct distinct _ _)

end AgentLibOS.Library.Counter
