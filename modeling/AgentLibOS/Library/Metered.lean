import AgentLibOS.Library.Run
import Mathlib.Algebra.Group.Defs

namespace AgentLibOS.Library.Metered
open Run

universe u

section
variable {M : Type u} {ε : Type*} {α β : Type u} {f : StateT M (Except ε) α}
  {g : α → StateT M (Except ε) β} {c : M}

theorem bind_ok {r : β × M} :
    (f >>= g) c = .ok r ↔ ∃ a c', f c = .ok (a, c') ∧ g a c' = .ok r := by
  change (f c >>= fun p => g p.1 p.2) = .ok r ↔ _
  rw [bind_eq_ok, Prod.exists]

def Fails (within : M → Prop) (f : StateT M (Except ε) α) : Prop :=
  ∀ c, within c → ∀ r, f c ≠ .ok r

variable {within : M → Prop}

theorem Fails.bind (fails : Fails within f) : Fails within (f >>= g) := by
  intro c start r done
  obtain ⟨a, c', first, _⟩ := bind_ok.mp done
  exact fails c start _ first

theorem Fails.error (fault : ε) :
    Fails within (fun _ => .error fault : StateT M (Except ε) α) :=
  fun _ _ _ done => by cases done

/-- A check that does not look at the meter. -/
def check (condition : Prop) [Decidable condition] (fault : ε) : StateT M (Except ε) PUnit :=
  fun c => if condition then .ok (⟨⟩, c) else .error fault

theorem check_fails {condition : Prop} [Decidable condition] (fails : ¬ condition) (fault : ε) :
    Fails within (check condition fault) := by
  intro c _ r done
  rw [check, if_neg fails] at done
  cases done

end

variable {M : Type u} {ε : Type*} [AddMonoid M] (within : M → Prop)

/-- Where the meter stays within its bound, the computation returns the result at this cost, and
elsewhere it fails. -/
def Meets {β : Type u} (f : StateT M (Except ε) β) (result : β) (cost : M) : Prop :=
  ∀ c, within c → ∀ r, f c = .ok r ↔ within (c + cost) ∧ r = (result, c + cost)

/-- The computation has a result that does not depend on the meter, or none. -/
def Regular {β : Type u} (f : StateT M (Except ε) β) (cost : M) : Prop :=
  (∃ result, Meets within f result cost) ∨ Fails within f

def total {α : Type*} (cost : α → M) : List α → M
  | [] => 0
  | a :: rest => cost a + total cost rest

@[simp] theorem total_nil {α : Type*} (cost : α → M) : total cost [] = 0 := rfl

@[simp] theorem total_cons {α : Type*} (cost : α → M) (a : α) (rest : List α) :
    total cost (a :: rest) = cost a + total cost rest := rfl

theorem total_append {α : Type*} (cost : α → M) (front back : List α) :
    total cost (front ++ back) = total cost front + total cost back := by
  induction front with
  | nil => rw [List.nil_append, total_nil, zero_add]
  | cons a front ih => rw [List.cons_append, total_cons, total_cons, ih, add_assoc]

theorem total_map {α β : Type*} (cost : β → M) (f : α → β) (l : List α) :
    total cost (l.map f) = total (fun a => cost (f a)) l := by
  induction l with
  | nil => rfl
  | cons a l ih => rw [List.map_cons, total_cons, total_cons, ih]

variable {within} {α β : Type u} {f : StateT M (Except ε) α} {g : α → StateT M (Except ε) β}
  {a : α} {b : β} {cost further c : M}

theorem Meets.result (meets : Meets within f a cost) (start : within c)
    (enough : within (c + cost)) : f c = .ok (a, c + cost) :=
  (meets c start _).mpr ⟨enough, rfl⟩

theorem Regular.ok (regular : Regular within f cost) (start : within c) {r : α × M}
    (done : f c = .ok r) : r.2 = c + cost ∧ within (c + cost) := by
  rcases regular with ⟨result, meets⟩ | fails
  · obtain ⟨enough, same⟩ := (meets c start r).mp done
    rw [same]
    exact ⟨rfl, enough⟩
  · exact absurd done (fails c start r)

/-- The computation has the result somewhere. -/
def Returns (within : M → Prop) (f : StateT M (Except ε) α) (a : α) (cost : M) : Prop :=
  ∃ c, within c ∧ f c = .ok (a, c + cost)

theorem Regular.meets (regular : Regular within f cost) (returns : Returns within f a cost) :
    Meets within f a cost := by
  obtain ⟨c, start, done⟩ := returns
  rcases regular with ⟨result, meets⟩ | fails
  · obtain ⟨_, same⟩ := (meets c start _).mp done
    rw [(Prod.mk.inj same).1]
    exact meets
  · exact absurd done (fails c start _)

/-- A sequence that returns has been through its first part. -/
theorem Regular.bind_returns (regular : Regular within f cost) {all : M}
    (returns : Returns within (f >>= g) b all) :
    ∃ a c, Returns within f a cost ∧ within c ∧ ∃ last, g a c = .ok (b, last) := by
  obtain ⟨c, start, done⟩ := returns
  obtain ⟨a, middle, first, second⟩ := bind_ok.mp done
  obtain ⟨moved, enough⟩ := regular.ok start first
  obtain rfl : middle = c + cost := moved
  exact ⟨a, c + cost, ⟨c, start, first⟩, enough, _, second⟩

theorem Regular.returns (regular : Regular within f cost) {c last : M} (start : within c)
    (done : f c = .ok (a, last)) : Returns within f a cost :=
  ⟨c, start, (regular.ok start done).1 ▸ done⟩

/-! ## Rules -/

theorem Meets.pure (a : α) : Meets within (Pure.pure a : StateT M (Except ε) α) a 0 := by
  intro c start r
  rw [add_zero]
  constructor
  · rintro same
    exact ⟨start, (Except.ok.inj same).symm⟩
  · rintro ⟨_, rfl⟩
    rfl

theorem Meets.bind (down : ∀ x y, within (x + y) → within x) (first : Meets within f a cost)
    (second : Meets within (g a) b further) : Meets within (f >>= g) b (cost + further) := by
  intro c start r
  rw [bind_ok, ← add_assoc]
  constructor
  · rintro ⟨a', c', done, later⟩
    obtain ⟨enough, same⟩ := (first c start _).mp done
    obtain ⟨rfl, rfl⟩ := Prod.mk.inj same
    exact (second _ enough r).mp later
  · rintro ⟨enough, rfl⟩
    have middle := down _ _ enough
    exact ⟨a, c + cost, first.result start middle, second.result middle enough⟩

theorem Meets.bind_fails (first : Meets within f a cost) (second : Fails within (g a)) :
    Fails within (f >>= g) := by
  intro c start r done
  obtain ⟨a', c', earlier, later⟩ := bind_ok.mp done
  obtain ⟨enough, same⟩ := (first c start _).mp earlier
  obtain ⟨rfl, rfl⟩ := Prod.mk.inj same
  exact second _ enough r later

theorem Regular.pure (a : α) : Regular within (Pure.pure a : StateT M (Except ε) α) 0 :=
  .inl ⟨a, .pure a⟩

theorem Regular.bind (down : ∀ x y, within (x + y) → within x) (first : Regular within f cost)
    (second : ∀ a, Regular within (g a) further) : Regular within (f >>= g) (cost + further) := by
  rcases first with ⟨a, meets⟩ | fails
  · rcases second a with ⟨b, meets'⟩ | fails'
    · exact .inl ⟨b, meets.bind down meets'⟩
    · exact .inr (meets.bind_fails fails')
  · exact .inr fails.bind

theorem check_meets {condition : Prop} [Decidable condition] (holds : condition) (fault : ε) :
    Meets within (check condition fault) ⟨⟩ 0 := by
  intro c start r
  rw [check, if_pos holds, add_zero]
  exact ⟨fun same => ⟨start, (Except.ok.inj same).symm⟩, fun same => by rw [same.2]⟩

theorem Meets.checked {condition : Prop} [Decidable condition] (holds : condition) {fault : ε}
    (down : ∀ x y, within (x + y) → within x) (meets : Meets within f a cost) :
    Meets within (check condition fault >>= fun _ => f) a cost := by
  have whole := (check_meets holds fault).bind down (g := fun _ => f) meets
  rw [zero_add] at whole
  exact whole

theorem Regular.checked (condition : Prop) [Decidable condition] (fault : ε)
    (down : ∀ x y, within (x + y) → within x) (regular : Regular within f cost) :
    Regular within (check condition fault >>= fun _ => f) cost := by
  by_cases holds : condition
  · rcases regular with ⟨a, meets⟩ | fails
    · exact .inl ⟨a, meets.checked holds down⟩
    · exact .inr ((check_meets holds fault).bind_fails fails)
  · exact .inr (check_fails holds fault).bind

theorem Meets.map (h : α → β) (down : ∀ x y, within (x + y) → within x)
    (meets : Meets within f a cost) :
    Meets within (f >>= fun a => Pure.pure (h a)) (h a) cost := by
  have whole := meets.bind down (g := fun a => Pure.pure (h a)) (.pure (h a))
  rw [add_zero] at whole
  exact whole

theorem Regular.map (h : α → β) (down : ∀ x y, within (x + y) → within x)
    (regular : Regular within f cost) :
    Regular within (f >>= fun a => Pure.pure (h a)) cost := by
  rcases regular with ⟨a, meets⟩ | fails
  · exact .inl ⟨h a, meets.map h down⟩
  · exact .inr fails.bind

theorem checked_returns {condition : Prop} [Decidable condition] {fault : ε}
    (returns : Returns within (check condition fault >>= fun _ => f) a cost) :
    condition ∧ Returns within f a cost := by
  obtain ⟨c, start, done⟩ := returns
  obtain ⟨_, middle, first, second⟩ := bind_ok.mp done
  rw [check] at first
  split_ifs at first with holds
  obtain ⟨_, rfl⟩ := Prod.mk.inj (Except.ok.inj first)
  exact ⟨holds, c, start, second⟩

theorem Regular.map_returns (regular : Regular within f cost) {h : α → β} {all : M}
    (returns : Returns within (f >>= fun a => Pure.pure (h a)) b all) :
    ∃ a, b = h a ∧ Returns within f a cost := by
  obtain ⟨a, c, first, _, last, done⟩ := regular.bind_returns returns
  exact ⟨a, (congrArg Prod.fst (Except.ok.inj done)).symm, first⟩

/-! ## Lists -/

section
variable {γ : Type*} {f : γ → StateT M (Except ε) β} {cost : γ → M}

theorem Meets.mapM (down : ∀ x y, within (x + y) → within x) {inputs : List γ} {results : List β}
    (each : List.Forall₂ (fun x b => Meets within (f x) b (cost x)) inputs results) :
    Meets within (inputs.mapM f) results (total cost inputs) := by
  induction each with
  | nil =>
      rw [List.mapM_nil]
      exact .pure []
  | @cons x b inputs results here _ ih =>
      rw [List.mapM_cons, total_cons]
      exact here.bind down (ih.map (b :: ·) down)

theorem Regular.mapM (down : ∀ x y, within (x + y) → within x) {inputs : List γ}
    (each : ∀ x ∈ inputs, Regular within (f x) (cost x)) :
    Regular within (inputs.mapM f) (total cost inputs) := by
  induction inputs with
  | nil =>
      rw [List.mapM_nil]
      exact .pure []
  | cons x inputs ih =>
      rw [List.mapM_cons, total_cons]
      exact (each x (.head _)).bind down fun b =>
        (ih fun y inside => each y (.tail _ inside)).map (b :: ·) down

/-- The results of a batch that is done. -/
theorem mapM_returns {inputs : List γ} (each : ∀ x ∈ inputs, Regular within (f x) (cost x)) {c : M}
    (start : within c) {results : List β} {last : M} (done : inputs.mapM f c = .ok (results, last)) :
    List.Forall₂ (fun x b => Returns within (f x) b (cost x)) inputs results := by
  induction inputs generalizing c results last with
  | nil =>
      rw [List.mapM_nil] at done
      obtain ⟨rfl, _⟩ := Prod.mk.inj (Except.ok.inj done)
      exact .nil
  | cons x inputs ih =>
      rw [List.mapM_cons] at done
      obtain ⟨b, middle, first, later⟩ := bind_ok.mp done
      obtain ⟨bs, end_, rest, same⟩ := bind_ok.mp later
      obtain ⟨rfl, _⟩ := Prod.mk.inj (Except.ok.inj same)
      obtain ⟨moved, enough⟩ := (each x (.head _)).ok start first
      obtain rfl : middle = c + cost x := moved
      exact .cons ⟨c, start, first⟩ (ih (fun y inside => each y (.tail _ inside)) enough rest)

theorem forall_results {δ : Type*} {holds : δ → Prop} {inputs : List γ} {results : List δ}
    (pairs : List.Forall₂ (fun _ b => holds b) inputs results) : ∀ b ∈ results, holds b := by
  induction pairs with
  | nil => exact fun _ inside => absurd inside List.not_mem_nil
  | cons here _ ih => exact List.forall_mem_cons.mpr ⟨here, ih⟩

theorem total_congr {δ : Type*} {left : γ → M} {right : δ → M} {inputs : List γ} {outputs : List δ}
    (same : List.Forall₂ (fun x y => left x = right y) inputs outputs) :
    total left inputs = total right outputs := by
  induction same with
  | nil => rfl
  | cons here _ ih => rw [total_cons, total_cons, here, ih]

end

end AgentLibOS.Library.Metered
