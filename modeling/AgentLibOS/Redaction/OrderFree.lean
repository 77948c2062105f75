import AgentLibOS.Library.Marks
import AgentLibOS.Redaction.SensitiveText

namespace AgentLibOS.Redaction
open Library.Masking

/-- One replacement of the exact values. -/
def replaceSecret (text secret : List Char) : List Char := replacePart secret redactedMask text

/-- The values of every length are steady in the text that the longer ones leave. -/
def SteadyValues (sensitiveValues : List String) (value : String) : Prop :=
  ∀ size, Steady redactedMask ((exactValues sensitiveValues).filter fun secret => secret.length = size)
    (((exactValues sensitiveValues).filter fun secret => size < secret.length).foldl replaceSecret
      value.toList)

theorem redactSensitiveText_eq (word : Char → Bool) (sensitiveValues : List String) (value : String) :
    redactSensitiveText word sensitiveValues value = String.ofList (patterns.foldl
      (fun selected pattern => pattern.sub word selected)
      ((exactValues sensitiveValues).foldl replaceSecret value.toList)) := rfl

theorem exactValues_nodup (sensitiveValues : List String) : (exactValues sensitiveValues).Nodup :=
  (List.perm_insertionSort _ _).nodup_iff.mpr (List.nodup_dedup _)

theorem exactValues_nonempty {sensitiveValues : List String} {secret : List Char}
    (inside : secret ∈ exactValues sensitiveValues) : secret ≠ [] := by
  rw [exactValues, List.mem_insertionSort, List.mem_dedup, List.mem_filter] at inside
  exact of_decide_eq_true inside.2

theorem exactValues_perm {left right : List String} (same : ∀ secret, secret ∈ left ↔ secret ∈ right) :
    (exactValues left).Perm (exactValues right) := by
  refine (List.perm_ext_iff_of_nodup (exactValues_nodup left) (exactValues_nodup right)).mpr ?_
  intro secret
  simp only [exactValues, List.mem_insertionSort, List.mem_dedup, List.mem_filter, List.mem_map, same]

theorem exactValues_sorted (sensitiveValues : List String) :
    (exactValues sensitiveValues).Pairwise fun left right => right.length ≤ left.length := by
  have : Std.Total fun left right : List Char => right.length ≤ left.length :=
    ⟨fun left right => Nat.le_total right.length left.length⟩
  have : IsTrans (List Char) fun left right => right.length ≤ left.length :=
    ⟨fun _ _ _ longer longest => longest.trans longer⟩
  exact List.pairwise_insertionSort _ _

/-- Longest first: the longer values stand before those of one length. -/
theorem exactValues_split (sensitiveValues : List String) (size : Nat) :
    ((exactValues sensitiveValues).filter fun secret => size ≤ secret.length) =
      ((exactValues sensitiveValues).filter fun secret => size < secret.length) ++
        (exactValues sensitiveValues).filter fun secret => secret.length = size := by
  have sorted := exactValues_sorted sensitiveValues
  generalize exactValues sensitiveValues = values at sorted ⊢
  induction values with
  | nil => rfl
  | cons first values ih =>
      rw [List.pairwise_cons] at sorted
      have later := ih sorted.2
      rcases Nat.lt_trichotomy first.length size with short | level | long
      · simp [Nat.not_le.mpr short, Nat.not_lt.mpr short.le, short.ne, later]
      · have none : (values.filter fun secret => size < secret.length) = [] := by
          refine List.filter_eq_nil_iff.mpr fun secret inside longer => ?_
          have bound := sorted.1 secret inside
          have := of_decide_eq_true longer
          omega
        rw [none] at later
        simp [level, later, none]
      · simp [long.le, long, long.ne', later]

theorem exactValues_bounded (sensitiveValues : List String) :
    ∃ bound, ∀ secret ∈ exactValues sensitiveValues, secret.length < bound := by
  induction exactValues sensitiveValues with
  | nil => exact ⟨0, fun _ inside => absurd inside List.not_mem_nil⟩
  | cons first values ih =>
      obtain ⟨bound, short⟩ := ih
      refine ⟨max bound (first.length + 1), fun secret inside => ?_⟩
      rcases List.mem_cons.mp inside with rfl | inside
      · exact Nat.lt_of_lt_of_le (Nat.lt_succ_self _) (Nat.le_max_right _ _)
      · exact Nat.lt_of_lt_of_le (short secret inside) (Nat.le_max_left _ _)

/-- The values of at least one length. -/
def longValues (sensitiveValues : List String) (size : Nat) : List (List Char) :=
  (exactValues sensitiveValues).filter fun secret => size ≤ secret.length

/-- Where the longer values leave one text in both orders, those of one more length do. -/
theorem longValues_step {sensitiveValues order : List String} {value : String} {size : Nat}
    (steady : SteadyValues sensitiveValues value)
    (same : ∀ secret, secret ∈ order ↔ secret ∈ sensitiveValues)
    (longer : (longValues order (size + 1)).foldl replaceSecret value.toList =
      (longValues sensitiveValues (size + 1)).foldl replaceSecret value.toList) :
    (longValues order size).foldl replaceSecret value.toList =
      (longValues sensitiveValues size).foldl replaceSecret value.toList := by
  rw [longValues, longValues, exactValues_split, exactValues_split, List.foldl_append,
    List.foldl_append]
  change ((exactValues order).filter _).foldl replaceSecret
    ((longValues order (size + 1)).foldl replaceSecret value.toList) = _
  rw [longer]
  have nonempty : ∀ secret ∈ (exactValues sensitiveValues).filter fun secret => secret.length = size,
      secret ≠ [] := fun secret inside => exactValues_nonempty (List.mem_filter.mp inside).1
  have level : ∀ secret ∈ (exactValues sensitiveValues).filter fun secret => secret.length = size,
      secret.length = size := fun secret inside => of_decide_eq_true (List.mem_filter.mp inside).2
  exact replace_perm (steady size) nonempty ((exactValues_nodup sensitiveValues).filter _) level
    ((exactValues_perm same).filter _)

theorem exact_order {sensitiveValues order : List String} {value : String}
    (steady : SteadyValues sensitiveValues value)
    (same : ∀ secret, secret ∈ order ↔ secret ∈ sensitiveValues) :
    (exactValues order).foldl replaceSecret value.toList =
      (exactValues sensitiveValues).foldl replaceSecret value.toList := by
  obtain ⟨bound, short⟩ := exactValues_bounded sensitiveValues
  have none : longValues sensitiveValues bound = [] := by
    refine List.filter_eq_nil_iff.mpr fun secret inside long => ?_
    exact (short secret inside).not_ge (of_decide_eq_true long)
  have none' : longValues order bound = [] := by
    have related := (exactValues_perm same).filter fun secret => bound ≤ secret.length
    rw [longValues] at none ⊢
    exact List.Perm.eq_nil (none ▸ related)
  -- From the longest values down.
  have whole : (longValues order 0).foldl replaceSecret value.toList =
      (longValues sensitiveValues 0).foldl replaceSecret value.toList := by
    refine Nat.decreasingInduction' (fun _ _ _ longer => longValues_step steady same longer)
      (Nat.zero_le bound) ?_
    rw [none, none']
  simpa only [longValues, Nat.zero_le, decide_true, List.filter_true] using whole

/-- The order of the set does not matter where its values are steady. -/
theorem redactSensitiveText_order (word : Char → Bool) {sensitiveValues : List String}
    {value : String} (steady : SteadyValues sensitiveValues value) {order order' : List String}
    (same : ∀ secret, secret ∈ order ↔ secret ∈ sensitiveValues)
    (same' : ∀ secret, secret ∈ order' ↔ secret ∈ sensitiveValues) :
    redactSensitiveText word order value = redactSensitiveText word order' value := by
  rw [redactSensitiveText_eq, redactSensitiveText_eq, exact_order steady same,
    exact_order steady same']

theorem redactSensitiveText_order_apart :
    redactSensitiveText Char.isAlphanum ["ab", "cd"] "abcd" =
      redactSensitiveText Char.isAlphanum ["cd", "ab"] "abcd" := by
  have steady : SteadyValues ["ab", "cd"] "abcd" := by
    intro size
    have values : exactValues ["ab", "cd"] = ["ab".toList, "cd".toList] := by decide
    by_cases level : size = 2
    · subst level
      rw [values]
      decide +kernel
    · have none : ["ab".toList, "cd".toList].filter (fun secret => secret.length = size) = [] := by
        simp [Ne.symm level]
      rw [values, none]
      exact steady_nil _ _
  exact redactSensitiveText_order _ steady (by simp) (by simp [or_comm])

theorem redactSensitiveText_order_matters :
    ¬ ∀ (word : Char → Bool) (value : String) (order order' : List String),
      (∀ secret, secret ∈ order ↔ secret ∈ order') →
        redactSensitiveText word order value = redactSensitiveText word order' value := by
  intro stable
  have equal := stable Char.isAlphanum "abc" ["ab", "bc"] ["bc", "ab"] (by simp [or_comm])
  revert equal
  decide +kernel

end AgentLibOS.Redaction
