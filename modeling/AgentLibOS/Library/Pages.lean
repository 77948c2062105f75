import Mathlib.Data.List.Sort
import Mathlib.Order.Defs.LinearOrder

namespace AgentLibOS.Library.Pages

variable {ρ κ : Type*} [LinearOrder κ]

/-- The key comes after the last one that was read, if any was. -/
def beyond (after : Option κ) (k : κ) : Bool := after.all fun last => decide (last < k)

/-- Pages that each begin after the last row of the page before, until one is not full. -/
def collect (key : ρ → κ) (query : Option κ → List ρ) (limit : Nat) :
    Nat → Option κ → Option (List ρ)
  | 0, _ => none
  | fuel + 1, after =>
      let page := query after
      if page.length < limit then some page
      else
        match page.getLast? with
        | some last => (collect key query limit fuel (some (key last))).map (page ++ ·)
        | none => some page

section
variable {key : ρ → κ} {rows : List ρ}

theorem beyond_trans {after : Option κ} {middle last : κ} (first : beyond after middle = true)
    (second : middle < last) : beyond after last = true := by
  cases after with
  | none => rfl
  | some start => exact decide_eq_true ((of_decide_eq_true first).trans second)

/-- What comes after the last row of a page is the rest behind the page. -/
theorem filter_beyond_last (sorted : rows.Pairwise fun left right => key left < key right)
    {after : Option κ} {limit : Nat} {last : ρ}
    (found : ((rows.filter fun row => beyond after (key row)).take limit).getLast? = some last) :
    (rows.filter fun row => beyond (some (key last)) (key row)) =
      (rows.filter fun row => beyond after (key row)).drop limit := by
  have ordered := sorted.filter fun row => beyond after (key row)
  obtain ⟨front, shape⟩ := List.getLast?_eq_some_iff.mp found
  generalize remaining : rows.filter (fun row => beyond after (key row)) = left at ordered shape ⊢
  have whole := List.take_append_drop limit left
  rw [shape] at whole
  rw [← whole, List.pairwise_append] at ordered
  have inside : last ∈ rows.filter fun row => beyond after (key row) := by
    rw [remaining, ← whole]
    simp
  have start := (List.mem_filter.mp inside).2
  have narrower : (rows.filter fun row => beyond (some (key last)) (key row)) =
      left.filter fun row => beyond (some (key last)) (key row) := by
    rw [← remaining, List.filter_filter]
    refine List.filter_congr fun row _ => ?_
    cases further : beyond (some (key last)) (key row) with
    | false => rfl
    | true => rw [Bool.true_and, beyond_trans start (of_decide_eq_true further)]
  have early : ∀ row ∈ front ++ [last], ¬ beyond (some (key last)) (key row) = true := by
    intro row listed further
    have later : key last < key row := of_decide_eq_true further
    rcases List.mem_append.mp listed with before | here
    · have sooner := (List.pairwise_append.mp ordered.1).2.2 row before last
        (List.mem_singleton_self last)
      exact lt_asymm later sooner
    · rw [List.mem_singleton.mp here] at later
      exact lt_irrefl _ later
  have late : ∀ row ∈ left.drop limit, beyond (some (key last)) (key row) = true :=
    fun row listed => decide_eq_true
      (ordered.2.2 last (List.mem_append_right front (List.mem_singleton_self last)) row listed)
  rw [narrower]
  conv_lhs => rw [← whole]
  rw [List.filter_append, List.filter_eq_nil_iff.mpr early, List.nil_append,
    List.filter_eq_self.mpr late]

/-- The pages of a query on sorted rows are all the rows. -/
theorem collect_eq (sorted : rows.Pairwise fun left right => key left < key right)
    {query : Option κ → List ρ} {limit : Nat} (positive : 0 < limit)
    (pages : ∀ after, query after = (rows.filter fun row => beyond after (key row)).take limit)
    {fuel : Nat} {after : Option κ}
    (enough : (rows.filter fun row => beyond after (key row)).length < fuel) :
    collect key query limit fuel after = some (rows.filter fun row => beyond after (key row)) := by
  induction fuel generalizing after with
  | zero => omega
  | succ fuel ih =>
      rw [collect]
      simp only [pages]
      split
      · rename_i short
        rw [List.length_take] at short
        rw [List.take_of_length_le (by omega)]
      · rename_i full
        rw [List.length_take] at full
        cases found : ((rows.filter fun row => beyond after (key row)).take limit).getLast? with
        | none =>
            have empty := congrArg List.length (List.getLast?_eq_none_iff.mp found)
            rw [List.length_take, List.length_nil] at empty
            omega
        | some last =>
            have rest := filter_beyond_last sorted found
            simp only []
            rw [ih (by rw [rest, List.length_drop]; omega), rest, Option.map_some,
              List.take_append_drop]

/-- Strictly sorted rows are determined by what they hold. -/
theorem sorted_unique {left right : List ρ} (sorted : left.Pairwise fun a b => key a < key b)
    (sorted' : right.Pairwise fun a b => key a < key b) (same : ∀ row, row ∈ left ↔ row ∈ right) :
    left = right := by
  have distinct {rows : List ρ} (sorted : rows.Pairwise fun a b => key a < key b) : rows.Nodup :=
    sorted.imp fun less equal => absurd (equal ▸ less) (lt_irrefl _)
  refine List.Perm.eq_of_pairwise (fun a b _ _ less more => absurd (less.trans more) (lt_irrefl _))
    sorted sorted' ?_
  exact (List.perm_ext_iff_of_nodup (distinct sorted) (distinct sorted')).mpr same

/-- The first rows of parts that cover the rows hold the first rows of all. -/
theorem merged_take (sorted : rows.Pairwise fun left right => key left < key right)
    {parts : List (ρ → Bool)} (cover : ∀ row ∈ rows, ∃ part ∈ parts, part row = true) {count : Nat}
    {merged : List ρ} (sorted' : merged.Pairwise fun left right => key left < key right)
    (inside : ∀ row, row ∈ merged ↔ ∃ part ∈ parts, row ∈ (rows.filter part).take count) :
    merged.take count = rows.take count := by
  classical
  have front : ∀ row ∈ rows.take count, row ∈ merged := by
    intro row early
    obtain ⟨part, listed, holds⟩ := cover row (List.mem_of_mem_take early)
    refine (inside row).mpr ⟨part, listed, ?_⟩
    have whole := congrArg (List.filter part) (List.take_append_drop count rows)
    rw [List.filter_append] at whole
    have short : ((rows.take count).filter part).length ≤ count :=
      (List.length_filter_le _ _).trans (List.length_take_le count rows)
    rw [← whole, List.take_append, List.take_of_length_le short]
    exact List.mem_append_left _ (List.mem_filter.mpr ⟨early, holds⟩)
  have kept : merged = rows.filter fun row => decide (row ∈ merged) := by
    refine sorted_unique sorted' (sorted.filter _) fun row => ?_
    rw [List.mem_filter, decide_eq_true_iff]
    refine ⟨fun listed => ⟨?_, listed⟩, And.right⟩
    obtain ⟨part, -, taken⟩ := (inside row).mp listed
    exact (List.mem_filter.mp (List.mem_of_mem_take taken)).1
  have whole := congrArg (List.filter fun row => decide (row ∈ merged))
    (List.take_append_drop count rows)
  rw [List.filter_append, ← kept,
    List.filter_eq_self.mpr fun row early => decide_eq_true (front row early)] at whole
  rcases Nat.lt_or_ge rows.length count with short | long
  · have none : rows.drop count = [] := List.drop_eq_nil_of_le short.le
    rw [none, List.filter_nil, List.append_nil] at whole
    rw [← whole, List.take_take, Nat.min_self]
  · have full : (rows.take count).length = count := List.length_take_of_le long
    rw [← whole, List.take_append, full, Nat.sub_self, List.take_zero, List.append_nil,
      List.take_take, Nat.min_self]

end

end AgentLibOS.Library.Pages
