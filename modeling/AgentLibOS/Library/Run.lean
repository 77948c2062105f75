import Mathlib.Data.List.Basic
import Mathlib.Data.List.Perm.Basic

namespace AgentLibOS.Library.Run

universe u

variable {σ : Type u} {α ε : Type*}

/-- The intermediate value of a computation that returns. -/
theorem bind_eq_ok {β : Type u} {first : Except ε σ} {next : σ → Except ε β} {result : β} :
    (first >>= next) = .ok result ↔ ∃ value, first = .ok value ∧ next value = .ok result := by
  cases first with
  | ok value =>
      change next value = .ok result ↔ _
      simp
  | error err =>
      refine iff_of_false (fun h => ?_) (by simp)
      cases h

theorem map_eq_ok {β : Type u} {γ : Type*} {f : β → γ} {computation : Except ε β} {result : γ} :
    computation.map f = .ok result ↔ ∃ value, computation = .ok value ∧ f value = result := by
  cases computation with
  | ok value => simp [Except.map]
  | error err => simp [Except.map]

def ensure (condition : Prop) [Decidable condition] (fault : ε) : Except ε Unit :=
  if condition then .ok () else .error fault

theorem ensure_ok {condition : Prop} [Decidable condition] {fault : ε} {result : Unit} :
    ensure condition fault = .ok result ↔ condition := by
  unfold ensure
  split_ifs with holds <;> simp [holds]

theorem ensure_congr {left right : Prop} [Decidable left] [Decidable right] (fault : ε)
    (same : left ↔ right) : ensure left fault = ensure right fault := by
  unfold ensure
  exact if_congr same rfl rfl

/-- A check of a value that may be absent. -/
def optionally {β : Type u} (check : α → Except ε β) : Option α → Except ε (Option β)
  | none => .ok none
  | some value => (check value).map some

theorem optionally_again {check : α → Except ε α}
    (again : ∀ {value result}, check value = .ok result → check result = .ok result)
    {value result : Option α} (done : optionally check value = .ok result) :
    optionally check result = .ok result := by
  cases value with
  | none =>
      cases done
      rfl
  | some value =>
      obtain ⟨checked, here, rfl⟩ := map_eq_ok.mp done
      exact map_eq_ok.mpr ⟨checked, again here, rfl⟩

theorem mapM_eq_ok {β : Type u} {f : α → Except ε β} {inputs : List α} {results : List β} :
    inputs.mapM f = .ok results ↔ List.Forall₂ (fun a b => f a = .ok b) inputs results := by
  induction inputs generalizing results with
  | nil =>
      rw [List.mapM_nil, List.forall₂_nil_left_iff]
      exact ⟨fun h => (Except.ok.inj h).symm, fun h => congrArg Except.ok h.symm⟩
  | cons a inputs ih =>
      rw [List.mapM_cons, bind_eq_ok, List.forall₂_cons_left_iff]
      constructor
      · rintro ⟨b, here, later⟩
        obtain ⟨rest, there, done⟩ := bind_eq_ok.mp later
        exact ⟨b, rest, here, ih.mp there, (Except.ok.inj done).symm⟩
      · rintro ⟨b, rest, here, there, rfl⟩
        exact ⟨b, here, bind_eq_ok.mpr ⟨rest, ih.mpr there, rfl⟩⟩

theorem mapM_result {β : Type u} {f : α → Except ε β} {inputs : List α} {results : List β}
    (done : inputs.mapM f = .ok results) {b : β} (member : b ∈ results) :
    ∃ a ∈ inputs, f a = .ok b := by
  have pairs := mapM_eq_ok.mp done
  clear done
  induction pairs with
  | nil => cases member
  | @cons a _ inputs _ here _ ih =>
      rcases List.mem_cons.mp member with rfl | inside
      · exact ⟨a, List.mem_cons_self, here⟩
      · obtain ⟨a', listed, made⟩ := ih inside
        exact ⟨a', List.mem_cons_of_mem _ listed, made⟩

theorem mapM_of_all {β : Type u} {f : α → Except ε β} {inputs : List α}
    (all : ∀ a ∈ inputs, ∃ b, f a = .ok b) : ∃ results, inputs.mapM f = .ok results := by
  induction inputs with
  | nil => exact ⟨[], rfl⟩
  | cons a inputs ih =>
      obtain ⟨b, here⟩ := all a List.mem_cons_self
      obtain ⟨rest, there⟩ := ih fun a' inside => all a' (List.mem_cons_of_mem _ inside)
      exact ⟨b :: rest, mapM_eq_ok.mpr (.cons here (mapM_eq_ok.mp there))⟩

theorem mapM_input {β : Type u} {f : α → Except ε β} {inputs : List α} {results : List β}
    (done : inputs.mapM f = .ok results) {a : α} (member : a ∈ inputs) :
    ∃ b ∈ results, f a = .ok b := by
  have pairs := mapM_eq_ok.mp done
  clear done
  induction pairs with
  | nil => cases member
  | @cons _ b _ results here _ ih =>
      rcases List.mem_cons.mp member with rfl | inside
      · exact ⟨b, List.mem_cons_self, here⟩
      · obtain ⟨b', listed, made⟩ := ih inside
        exact ⟨b', List.mem_cons_of_mem _ listed, made⟩

theorem forM_eq_ok {check : α → Except ε Unit} {items : List α} :
    items.forM check = .ok () ↔ ∀ item ∈ items, check item = .ok () := by
  induction items with
  | nil => exact iff_of_true rfl (by simp)
  | cons item items ih =>
      change (check item >>= fun _ => items.forM check) = .ok () ↔ _
      rw [bind_eq_ok, List.forall_mem_cons, ← ih]
      constructor
      · rintro ⟨⟨⟩, here, rest⟩
        exact ⟨here, rest⟩
      · rintro ⟨here, rest⟩
        exact ⟨(), here, rest⟩

theorem foldlM_keeps {f : σ → α → Except ε σ} {I : σ → Prop}
    (keeps : ∀ {state op state'}, f state op = .ok state' → I state → I state') {ops : List α}
    {start last : σ} (done : ops.foldlM f start = .ok last) (init : I start) : I last := by
  induction ops generalizing start with
  | nil =>
      cases done
      exact init
  | cons op ops ih =>
      rw [List.foldlM_cons, bind_eq_ok] at done
      obtain ⟨next, here, later⟩ := done
      exact ih later (keeps here init)

/-- A batch succeeds in every order or in none, with the same results. -/
theorem mapM_perm {β : Type u} {f : α → Except ε β} {left right : List α} (perm : left.Perm right)
    {results : List β} (done : left.mapM f = .ok results) :
    ∃ results', right.mapM f = .ok results' ∧ results'.Perm results := by
  obtain ⟨results', same, reordered⟩ :=
    List.perm_comp_forall₂ perm.symm (mapM_eq_ok.mp done)
  exact ⟨results', mapM_eq_ok.mpr same, reordered⟩

/-- A fallible operation that runs in a transaction: a failure leaves the state as it was. -/
def transact (exec : σ → α → Except ε σ) (state : σ) (op : α) : σ :=
  match exec state op with
  | .ok state' => state'
  | .error _ => state

theorem transact_cases (exec : σ → α → Except ε σ) (state : σ) (op : α) :
    exec state op = .ok (transact exec state op) ∨ transact exec state op = state := by
  unfold transact
  cases exec state op with
  | ok state' => exact Or.inl rfl
  | error _ => exact Or.inr rfl

theorem transact_of_ok {exec : σ → α → Except ε σ} {state state' : σ} {op : α}
    (done : exec state op = .ok state') : transact exec state op = state' := by
  rw [transact, done]

variable (step : σ → α → σ)

def run (start : σ) (ops : List α) : σ := ops.foldl step start

@[simp] theorem run_nil (start : σ) : run step start [] = start := rfl

@[simp] theorem run_cons (start : σ) (op : α) (ops : List α) :
    run step start (op :: ops) = run step (step start op) ops := rfl

theorem run_append (start : σ) (front back : List α) :
    run step start (front ++ back) = run step (run step start front) back := List.foldl_append ..

/-- Every operation of the run meets `side` in the state it is applied to. -/
def Meets (side : σ → α → Prop) : σ → List α → Prop
  | _, [] => True
  | state, op :: ops => side state op ∧ Meets side (step state op) ops

instance Meets.decidable {side : σ → α → Prop} [each : ∀ state op, Decidable (side state op)] :
    (start : σ) → (ops : List α) → Decidable (Meets step side start ops)
  | _, [] => .isTrue trivial
  | start, op :: ops => @instDecidableAnd _ _ (each start op) (Meets.decidable (step start op) ops)

theorem Meets.append {side : σ → α → Prop} {start : σ} {front back : List α}
    (meets : Meets step side start (front ++ back)) : Meets step side start front := by
  induction front generalizing start with
  | nil => trivial
  | cons op front ih => exact ⟨meets.1, ih meets.2⟩

theorem Meets.later {side : σ → α → Prop} {start : σ} {front back : List α}
    (meets : Meets step side start (front ++ back)) :
    Meets step side (run step start front) back := by
  induction front generalizing start with
  | nil => exact meets
  | cons op front ih => exact ih meets.2

variable {step}

/-- What every operation under the side condition preserves holds after the whole run. -/
theorem invariant_run {side : σ → α → Prop} {I : σ → Prop}
    (preserved : ∀ state op, I state → side state op → I (step state op)) {start : σ}
    {ops : List α} (init : I start) (meets : Meets step side start ops) :
    I (run step start ops) := by
  induction ops generalizing start with
  | nil => exact init
  | cons op ops ih => exact ih (preserved start op init meets.1) meets.2

theorem stable_run {I : σ → Prop} (preserved : ∀ state op, I state → I (step state op))
    {start : σ} (ops : List α) (init : I start) : I (run step start ops) := by
  induction ops generalizing start with
  | nil => exact init
  | cons op ops ih => exact ih (preserved start op init)

end AgentLibOS.Library.Run
