import Mathlib.Logic.Basic

namespace AgentLibOS.Library

/-- Programs over a shared state. A step changes the state at once, a question is answered by the
environment, and the result is a value or a raised error. -/
inductive Program (σ ε ι ρ : Type) (α : Type)
  | done (result : Except ε α)
  | step (act : σ → σ) (next : σ → Program σ ε ι ρ α)
  | ask (question : ι) (next : ρ → Program σ ε ι ρ α)

namespace Program
variable {σ ε ι ρ α β : Type}

/-- Go on with the result of a program, whatever it is. -/
def resume : Program σ ε ι ρ α → (Except ε α → Program σ ε ι ρ β) → Program σ ε ι ρ β
  | done result, k => k result
  | step act next, k => step act fun s => (next s).resume k
  | ask question next, k => ask question fun reply => (next reply).resume k

def afterValue (k : α → Program σ ε ι ρ β) : Except ε α → Program σ ε ι ρ β
  | .ok value => k value
  | .error err => done (.error err)

def afterError (handler : ε → Program σ ε ι ρ α) : Except ε α → Program σ ε ι ρ α
  | .ok value => done (.ok value)
  | .error err => handler err

instance : Monad (Program σ ε ι ρ) where
  pure value := done (.ok value)
  bind program k := program.resume (afterValue k)

instance : MonadExceptOf ε (Program σ ε ι ρ) where
  throw err := done (.error err)
  tryCatch program handler := program.resume (afterError handler)

/-- The result as a value. -/
def attempt (program : Program σ ε ι ρ α) : Program σ ε ι ρ (Except ε α) :=
  program.resume fun result => done (.ok result)

def act (change : σ → σ) : Program σ ε ι ρ Unit := step change fun _ => done (.ok ())

def read (get : σ → α) : Program σ ε ι ρ α := step id fun s => done (.ok (get s))

def request (question : ι) : Program σ ε ι ρ ρ := ask question fun reply => done (.ok reply)

/-- A transaction: its body succeeds as a whole or changes nothing. -/
def transaction (body : σ → Except ε (σ × α)) : Program σ ε ι ρ α :=
  step (fun s => match body s with
      | .ok (s', _) => s'
      | .error _ => s)
    fun s => done ((body s).map Prod.snd)

/-- One scheduling step; the reply matters at a question only. -/
def advance : Program σ ε ι ρ α → ρ → σ → Program σ ε ι ρ α × σ
  | done result, _, s => (done result, s)
  | step act next, _, s => (next s, act s)
  | ask _ next, reply, s => (next reply, s)

/-! ## Rely and guarantee -/

/-- What a program may count on and what it keeps: `rely` relates the states before and after what
others do, `allowed` restricts the replies, `inv` holds in every state. -/
structure Discipline (σ ι ρ : Type) where
  rely : σ → σ → Prop
  inv : σ → Prop
  allowed : σ → ι → ρ → Prop
  refl : ∀ s, rely s s
  trans : ∀ {s t u}, rely s t → rely t u → rely s u
  kept : ∀ {s t}, rely s t → inv s → inv t

variable {d : Discipline σ ι ρ}

/-- Every step of the program keeps the invariant, and `post` holds of its result. -/
def Safe (d : Discipline σ ι ρ) (post : Except ε α → σ → Prop) :
    Program σ ε ι ρ α → σ → Prop
  | done result, s => post result s
  | step act next, s => ∀ t, d.rely s t → d.inv (act t) ∧ Safe d post (next t) (act t)
  | ask question next, s => ∀ t, d.rely s t → ∀ reply, d.allowed t question reply →
      Safe d post (next reply) t

theorem Safe.resume {program : Program σ ε ι ρ α} {k : Except ε α → Program σ ε ι ρ β}
    {post : Except ε β → σ → Prop} {s : σ}
    (safe : Safe d (fun result s => Safe d post (k result) s) program s) :
    Safe d post (program.resume k) s := by
  induction program generalizing s with
  | done result => exact safe
  | step act next ih => exact fun t relied => ⟨(safe t relied).1, ih t (safe t relied).2⟩
  | ask question next ih => exact fun t relied reply allowed => ih reply (safe t relied reply allowed)

theorem Safe.mono {program : Program σ ε ι ρ α} {post post' : Except ε α → σ → Prop} {s : σ}
    (weaker : ∀ result s, post result s → post' result s) (safe : Safe d post program s) :
    Safe d post' program s := by
  induction program generalizing s with
  | done result => exact weaker result s safe
  | step act next ih => exact fun t relied => ⟨(safe t relied).1, ih t (safe t relied).2⟩
  | ask question next ih => exact fun t relied reply allowed => ih reply (safe t relied reply allowed)

/-- What others do leaves a program safe. -/
theorem Safe.relied {program : Program σ ε ι ρ α} {s t : σ}
    (safe : Safe d (fun _ _ => True) program s) (moved : d.rely s t) :
    Safe d (fun _ _ => True) program t := by
  cases program with
  | done result => trivial
  | step act next => exact fun u relied => safe u (d.trans moved relied)
  | ask question next => exact fun u relied => safe u (d.trans moved relied)

/-- The side condition of one scheduling step. -/
def Permits (d : Discipline σ ι ρ) : Program σ ε ι ρ α → ρ → σ → Prop
  | ask question _, reply, s => d.allowed s question reply
  | _, _, _ => True

theorem Safe.advance {program : Program σ ε ι ρ α} {s : σ} {reply : ρ}
    (safe : Safe d (fun _ _ => True) program s) (inv : d.inv s)
    (permitted : Permits d program reply s) :
    d.inv (program.advance reply s).2 ∧
      Safe d (fun _ _ => True) (program.advance reply s).1 (program.advance reply s).2 := by
  cases program with
  | done result => exact ⟨inv, trivial⟩
  | step act next => exact safe s (d.refl s)
  | ask question next => exact ⟨inv, safe s (d.refl s) reply permitted⟩

/-! ## Triples -/

/-- The assertion for a value and the one for an error. -/
def Outcome (returned : α → σ → Prop) (raised : σ → Prop) : Except ε α → σ → Prop
  | .ok value => returned value
  | .error _ => raised

def Triple (d : Discipline σ ι ρ) (pre : σ → Prop) (program : Program σ ε ι ρ α)
    (returned : α → σ → Prop) (raised : σ → Prop) : Prop :=
  ∀ s, pre s → Safe d (Outcome returned raised) program s

/-- Others do not falsify the assertion. -/
def Stable (d : Discipline σ ι ρ) (assertion : σ → Prop) : Prop :=
  ∀ s t, d.rely s t → assertion s → assertion t

section Rules
variable {P : σ → Prop} {Q : α → σ → Prop} {R : σ → Prop}

theorem Triple.consequence {A : σ → Prop} {B : α → σ → Prop} {C : σ → Prop}
    {program : Program σ ε ι ρ α} (triple : Triple d P program Q R)
    (stronger : ∀ s, A s → P s) (value : ∀ a s, Q a s → B a s)
    (error : ∀ s, R s → C s) : Triple d A program B C := by
  refine fun s holds => (triple s (stronger s holds)).mono fun result t reached => ?_
  cases result with
  | ok a => exact value a t reached
  | error _ => exact error t reached

theorem Triple.strengthen {A : σ → Prop} {program : Program σ ε ι ρ α}
    (triple : Triple d P program Q R) (stronger : ∀ s, A s → P s) :
    Triple d A program Q R :=
  triple.consequence stronger (fun _ _ => id) fun _ => id

theorem Triple.value {value : α} (holds : ∀ s, P s → Q value s) :
    Triple d P (Pure.pure value : Program σ ε ι ρ α) Q R := holds

theorem Triple.throw {err : ε} (holds : ∀ s, P s → R s) :
    Triple d P (MonadExcept.throw err : Program σ ε ι ρ α) Q R := holds

theorem Triple.bind {program : Program σ ε ι ρ α} {k : α → Program σ ε ι ρ β}
    {F : β → σ → Prop} (first : Triple d P program Q R)
    (rest : ∀ value, Triple d (Q value) (k value) F R) :
    Triple d P (program >>= k) F R := by
  refine fun s holds => Safe.resume ((first s holds).mono fun result t reached => ?_)
  cases result with
  | ok value => exact rest value t reached
  | error err => exact reached

theorem Triple.tryCatch {program : Program σ ε ι ρ α} {handler : ε → Program σ ε ι ρ α}
    {E : σ → Prop} (first : Triple d P program Q E)
    (handled : ∀ err, Triple d E (handler err) Q R) :
    Triple d P (MonadExcept.tryCatch program handler) Q R := by
  refine fun s holds => Safe.resume ((first s holds).mono fun result t reached => ?_)
  cases result with
  | ok value => exact reached
  | error err => exact handled err t reached

theorem Triple.attempt {program : Program σ ε ι ρ α} {E : σ → Prop}
    (triple : Triple d P program Q E) :
    Triple d P program.attempt (Outcome Q E) R :=
  fun s holds => Safe.resume ((triple s holds).mono fun _ _ reached => reached)

theorem Triple.act {change : σ → σ} {F : Unit → σ → Prop} (stable : Stable d P)
    (holds : ∀ s, P s → d.inv (change s) ∧ F () (change s)) :
    Triple d P (act change : Program σ ε ι ρ Unit) F R :=
  fun s start t relied => holds t (stable s t relied start)

theorem Triple.read {get : σ → α} (stable : Stable d P) (inv : ∀ s, P s → d.inv s)
    (holds : ∀ s, P s → Q (get s) s) :
    Triple d P (read get : Program σ ε ι ρ α) Q R :=
  fun s start t relied => ⟨inv t (stable s t relied start), holds t (stable s t relied start)⟩

theorem Triple.request {question : ι} {F : ρ → σ → Prop} (stable : Stable d P)
    (holds : ∀ s reply, P s → d.allowed s question reply → F reply s) :
    Triple d P (request question : Program σ ε ι ρ ρ) F R :=
  fun s start t relied reply allowed => holds t reply (stable s t relied start) allowed

theorem Triple.transaction {body : σ → Except ε (σ × α)} (stable : Stable d P)
    (inv : ∀ s, P s → d.inv s)
    (committed : ∀ s t value, P s → body s = .ok (t, value) → d.inv t ∧ Q value t)
    (aborted : ∀ s err, P s → body s = .error err → R s) :
    Triple d P (transaction body : Program σ ε ι ρ α) Q R := by
  intro s start t relied
  have here := stable s t relied start
  cases ran : body t with
  | ok outcome =>
      obtain ⟨u, value⟩ := outcome
      simpa [Safe, Outcome, ran, Except.map] using committed t u value here ran
  | error err =>
      simpa [Safe, Outcome, ran, Except.map] using ⟨inv t here, aborted t err here ran⟩

theorem Triple.ite {condition : Prop} [Decidable condition] {yes no : Program σ ε ι ρ α}
    (left : condition → Triple d P yes Q R)
    (right : ¬condition → Triple d P no Q R) :
    Triple d P (if condition then yes else no) Q R := by
  by_cases holds : condition
  · rw [if_pos holds]
    exact left holds
  · rw [if_neg holds]
    exact right holds

end Rules
end Program
end AgentLibOS.Library
