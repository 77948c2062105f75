import Mathlib.Order.Monotone.Basic

namespace AgentLibOS.Library.Climb
variable {ε : Type*}

/-- A measure taken of its own last result, from a start until it repeats. -/
def climb (measure : Nat → Except ε Nat) (stuck : ε) : Nat → Nat → Except ε Nat
  | 0, _ => .error stuck
  | fuel + 1, current => do
      let measured ← measure current
      if measured = current then .ok measured else climb measure stuck fuel measured

/-- The least fixed point, which is also below everything that the function does not raise. -/
structure Least (f : Nat → Nat) (found : Nat) : Prop where
  settled : f found = found
  least : ∀ other, f other ≤ other → found ≤ other

theorem Least.mono {f g : Nat → Nat} (below : ∀ current, f current ≤ g current) {found found' : Nat}
    (here : Least f found) (there : Least g found') : found ≤ found' :=
  here.least found' ((below found').trans there.settled.le)

theorem Least.unique {f : Nat → Nat} {found found' : Nat} (here : Least f found)
    (there : Least f found') : found = found' :=
  Nat.le_antisymm (here.mono (fun _ => Nat.le_refl _) there) (there.mono (fun _ => Nat.le_refl _) here)

section
variable {measure : Nat → Except ε Nat} {stuck : ε} {f : Nat → Nat}
  (total : ∀ current, measure current = .ok (f current)) (rising : Monotone f)
include total rising

theorem climb_from {bound : Nat} (bounded : f bound ≤ bound) (fuel start : Nat)
    (raised : start ≤ f start) (inside : start ≤ bound) (room : bound - start < fuel) :
    ∃ found, climb measure stuck fuel start = .ok found ∧ f found = found ∧
      ∀ other, start ≤ other → f other ≤ other → found ≤ other := by
  induction fuel generalizing start with
  | zero => exact absurd room (Nat.not_lt_zero _)
  | succ fuel ih =>
      have step : climb measure stuck (fuel + 1) start =
          if f start = start then .ok (f start) else climb measure stuck fuel (f start) := by
        rw [climb, total]
        rfl
      rw [step]
      split_ifs with settled
      · exact ⟨f start, rfl, congrArg f settled, fun other above _ => settled.le.trans above⟩
      · have higher : start < f start := Nat.lt_of_le_of_ne raised (Ne.symm settled)
        have inside' : f start ≤ bound := (rising inside).trans bounded
        obtain ⟨found, ran, fixed, least⟩ :=
          ih (f start) (rising raised) inside' (by omega)
        refine ⟨found, ran, fixed, fun other above below => least other ?_ below⟩
        exact (rising above).trans below

/-- From zero, a bounded measure that rises with what it is taken of reaches its least fixed
point. -/
theorem climb_least {bound : Nat} (bounded : f bound ≤ bound) :
    ∃ found, Least f found ∧ ∀ fuel > bound, climb measure stuck fuel 0 = .ok found := by
  have run (fuel : Nat) (enough : bound < fuel) : ∃ found, climb measure stuck fuel 0 = .ok found ∧
      f found = found ∧ ∀ other, 0 ≤ other → f other ≤ other → found ≤ other :=
    climb_from total rising bounded fuel 0 (Nat.zero_le _) (Nat.zero_le _) enough
  obtain ⟨found, -, fixed, least⟩ := run (bound + 1) (Nat.lt_succ_self bound)
  have lowest : Least f found := ⟨fixed, fun other => least other (Nat.zero_le other)⟩
  refine ⟨found, lowest, fun fuel enough => ?_⟩
  obtain ⟨found', ran, fixed', least'⟩ := run fuel enough
  have same : found' = found :=
    Least.unique ⟨fixed', fun other => least' other (Nat.zero_le other)⟩ lowest
  rw [ran, same]

end

end AgentLibOS.Library.Climb
