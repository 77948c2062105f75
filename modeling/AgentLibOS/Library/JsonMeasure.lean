import AgentLibOS.Library.JsonOrder
import Mathlib.Algebra.BigOperators.Group.List.Basic
import Mathlib.Tactic.Ring

namespace AgentLibOS.Library.Json

/-! ## Counting in written values -/

section
variable {φ : Type} (repr : φ → Text) (style : Style) (p : Nat → Bool)

theorem countP_intercalate (separator : Text) (parts : List Text) :
    (List.intercalate separator parts).countP p =
      (parts.map (List.countP p)).sum + (parts.length - 1) * separator.countP p := by
  induction parts with
  | nil => simp [List.intercalate]
  | cons first parts ih =>
      cases parts with
      | nil => simp
      | cons second parts =>
          rw [intercalate_cons, List.countP_append, List.countP_append, ih]
          simp only [List.map_cons, List.sum_cons, List.length_cons, Nat.add_sub_cancel]
          ring

/-- The parts of an enclosed list add their weights to it. -/
theorem countP_enclose (level open_ close count : Nat) :
    ∃ frame, ∀ parts : List Text, parts.length = count →
      (style.enclose level open_ close parts).countP p =
        frame + (parts.map (List.countP p)).sum := by
  cases count with
  | zero =>
      refine ⟨[open_, close].countP p, fun parts none => ?_⟩
      rw [List.length_eq_zero_iff.mp none]
      rfl
  | succ count =>
      refine ⟨([open_] ++ style.newline (level + 1) ++ style.newline level ++ [close]).countP p +
        count * (style.separator (level + 1)).countP p, fun parts some => ?_⟩
      have nonempty : parts ≠ [] := List.length_pos_iff.mp (some ▸ Nat.succ_pos count)
      rw [Style.enclose, if_neg nonempty]
      simp only [List.countP_cons, List.countP_append, countP_intercalate, some,
        Nat.add_sub_cancel, List.countP_nil]
      ring

def writeEntry (level : Nat) (entry : Text × JsonTree (Scalar φ)) : Text :=
  writeString style.ascii entry.1 ++ colon :: (List.replicate style.keySpaces 32 ++
    write repr style level entry.2)

theorem writeEntries_eq (level : Nat) (entries : List (Text × JsonTree (Scalar φ))) :
    writeEntries repr style level entries = entries.map (writeEntry repr style level) := by
  induction entries with
  | nil => rfl
  | cons entry entries ih => rw [writeEntries, ih, List.map_cons, writeEntry]

/-- The weight of an entry of a written object. -/
def entryWeight (entry : Text × JsonTree (Scalar φ)) : Nat :=
  (writeEntry repr style 1 (JsonTree.sortEntry entry)).countP p

/-- The sum of the weights of a sorted object's entries. -/
theorem sum_sorted (entries : List (Text × JsonTree (Scalar φ))) :
    ((writeEntries repr style 1 ((JsonTree.sortedEntries entries).insertionSort keyLe)).map
      (List.countP p)).sum = (entries.map (entryWeight repr style p)).sum := by
  rw [writeEntries_eq, List.map_map]
  have same := ((JsonTree.sorted_perm entries).map (List.countP p ∘ writeEntry repr style 1)).sum_eq
  rw [same, List.map_map]
  rfl

/-- Entries at an object's end add their weights to its text. -/
theorem countP_dumps_append (front : List (Text × JsonTree (Scalar φ))) (count : Nat) :
    ∃ base, ∀ last, last.length = count →
      (dumps repr style (.dict (front ++ last))).countP p =
        base + (last.map (entryWeight repr style p)).sum := by
  obtain ⟨frame, weighs⟩ := countP_enclose style p 0 openBrace closeBrace (front.length + count)
  refine ⟨frame + (front.map (entryWeight repr style p)).sum, fun last sized => ?_⟩
  have length : (writeEntries repr style 1
      ((JsonTree.sortedEntries (front ++ last)).insertionSort keyLe)).length =
        front.length + count := by
    rw [writeEntries_eq, List.length_map, (JsonTree.sorted_perm _).length_eq, List.length_map,
      List.length_append, sized]
  rw [dumps, JsonTree.sorted, write, weighs _ length, sum_sorted, List.map_append, List.sum_append,
    Nat.add_assoc]

end

/-! ## The digits of a number -/

theorem intText_natCast (value : Nat) : intText (value : Int) = natText value := by
  rw [intText, if_neg (by omega), Int.natAbs_natCast]

theorem natText_length (value : Nat) :
    (natText value).length = max 1 (Nat.digits 10 value).length := by
  rw [natText]
  split_ifs with none
  · simp [none]
  · have some : 0 < (Nat.digits 10 value).length :=
      List.length_pos_iff.mpr (Nat.digits_ne_nil_iff_ne_zero.mpr none)
    rw [List.length_map, List.length_reverse, max_eq_right some]

theorem natText_length_mono {value value' : Nat} (le : value ≤ value') :
    (natText value).length ≤ (natText value').length := by
  rw [natText_length, natText_length]
  exact max_le_max_left 1 (Nat.le_length_digits_le 10 value value' le)

theorem natText_length_le (value : Nat) : (natText value).length ≤ value + 1 := by
  have short : (Nat.digits 10 value).length ≤ value :=
    (Nat.digits_length_le_iff (by decide) value).mpr (Nat.lt_pow_self (by decide))
  rw [natText_length]
  omega

/-! ## The last character -/

/-- The text ends in a character that is no blank. -/
def Solid (text : Text) : Prop := ∃ c, text.getLast? = some c ∧ isSpacePoint c = false

theorem Solid.append {text : Text} (solid : Solid text) (front : Text) : Solid (front ++ text) := by
  obtain ⟨c, last, plain⟩ := solid
  exact ⟨c, by rw [List.getLast?_append, last]; rfl, plain⟩

theorem Solid.stripped {text : Text} (solid : Solid text) : text.rdropWhile isSpacePoint = text := by
  obtain ⟨c, last, plain⟩ := solid
  rw [List.rdropWhile_eq_self_iff]
  intro nonempty
  rw [List.getLast?_eq_some_getLast nonempty, Option.some.injEq] at last
  rw [last, plain]
  exact Bool.false_ne_true

theorem digits_solid (value : Nat) : Solid (natText value) := by
  obtain ⟨c, digits, shape, -, -⟩ := natText_head value
  have nonempty : natText value ≠ [] := by simp [shape]
  refine ⟨_, List.getLast?_eq_some_getLast nonempty, ?_⟩
  have digit := natText_digits value _ (List.getLast_mem nonempty)
  simp only [isDigit, Bool.and_eq_true, decide_eq_true_iff] at digit
  have range : ∀ c < 58, 48 ≤ c → isSpacePoint c = false := by decide
  exact range _ (by omega) digit.1

theorem write_solid {φ : Type} {repr : φ → Text} (style : Style) (solid : ∀ value, Solid (repr value))
    (level : Nat) (tree : JsonTree (Scalar φ)) : Solid (write repr style level tree) := by
  have closed (open_ close : Nat) (plain : isSpacePoint close = false) (parts : List Text) :
      Solid (style.enclose level open_ close parts) := by
    have last : Solid [close] := ⟨close, rfl, plain⟩
    rw [Style.enclose]
    split_ifs
    · exact last.append [open_]
    · exact (((last.append _).append _).append _).append [open_]
  cases tree with
  | leaf value =>
      cases value with
      | null => exact ⟨108, rfl, rfl⟩
      | bool value => cases value <;> exact ⟨101, rfl, rfl⟩
      | int value =>
          rw [write, writeScalar, intText]
          split_ifs
          · exact (digits_solid _).append [minus]
          · exact digits_solid _
      | float value => exact solid value
      | str text =>
          have last : Solid [quote] := ⟨quote, rfl, rfl⟩
          exact (last.append _).append [quote]
  | list items => exact closed _ _ rfl _
  | dict entries => exact closed _ _ rfl _

end AgentLibOS.Library.Json
