import Dayjaview.Core.Error

/-!
# Programs of operations

A program performs operations one after the other, each chosen from the results
of the earlier ones, and ends with a result or an error. It runs to its end in one
go, or operation by operation, with others in between. What every operation keeps,
a program keeps.
-/

namespace Dayjaview

/-- A program over some operations, each with the type of its result. -/
inductive Program (Op : Type → Type) (α : Type) : Type 1 where
  | done (result : Except Error α)
  | perform {β : Type} (op : Op β) (next : β → Program Op α)

/-- What an operation does to a state. -/
abbrev Handler (Op : Type → Type) (σ : Type) := ∀ {β : Type}, Op β → σ → β × σ

namespace Program

variable {Op : Type → Type} {α β σ : Type}

/-- One program after another; an error ends them both. -/
def andThen : Program Op α → (α → Program Op β) → Program Op β
  | .done (.ok a), f => f a
  | .done (.error e), _ => .done (.error e)
  | .perform op next, f => .perform op fun b => (next b).andThen f

instance : Monad (Program Op) where
  pure a := .done (.ok a)
  bind := andThen

/-- The program of one operation. -/
def call (op : Op α) : Program Op α := .perform op fun a => .done (.ok a)

def raise (e : Error) : Program Op α := .done (.error e)

/-- Go on with a result or raise its error. -/
def ofExcept (x : Except Error α) : Program Op α := .done x

def finish (handler : Handler Op σ) : Program Op α → σ → Except Error α × σ
  | .done result, s => (result, s)
  | .perform op next, s => finish handler (next (handler op s).1) (handler op s).2

/-- Perform the next operation of a program. -/
def advance (handler : Handler Op σ) : Program Op α → σ → Program Op α × σ
  | .done result, s => (.done result, s)
  | .perform op next, s => (next (handler op s).1, (handler op s).2)

variable (handler : Handler Op σ)

@[simp] theorem finish_pure (a : α) (s : σ) :
    (pure a : Program Op α).finish handler s = (.ok a, s) := rfl

@[simp] theorem finish_raise (e : Error) (s : σ) :
    (raise e : Program Op α).finish handler s = (.error e, s) := rfl

@[simp] theorem finish_ofExcept (x : Except Error α) (s : σ) :
    (ofExcept x : Program Op α).finish handler s = (x, s) := rfl

@[simp] theorem finish_call (op : Op α) (s : σ) :
    (call op).finish handler s = (.ok (handler op s).1, (handler op s).2) := rfl

theorem finish_bind (p : Program Op α) (f : α → Program Op β) (s : σ) :
    (p >>= f).finish handler s =
      match p.finish handler s with
      | (.ok a, t) => (f a).finish handler t
      | (.error e, t) => (.error e, t) := by
  show (p.andThen f).finish handler s = _
  induction p generalizing s with
  | done result =>
    cases result with
    | ok a => rfl
    | error e => rfl
  | perform op next ih => exact ih _ _

@[simp] theorem ofExcept_ok_bind (a : α) (f : α → Program Op β) :
    ofExcept (.ok a) >>= f = f a := rfl

@[simp] theorem ofExcept_error_bind (e : Error) (f : α → Program Op β) :
    ofExcept (.error e) >>= f = raise e := rfl

@[simp] theorem finish_call_bind (op : Op α) (f : α → Program Op β) (s : σ) :
    (call op >>= f).finish handler s = (f (handler op s).1).finish handler (handler op s).2 := by
  rw [finish_bind, finish_call]

theorem finish_bind_pure (p : Program Op α) (g : α → β) (s : σ) :
    (p >>= fun a => pure (g a)).finish handler s =
      ((p.finish handler s).1.map g, (p.finish handler s).2) := by
  rw [finish_bind]
  rcases p.finish handler s with ⟨e | a, t⟩ <;> rfl

theorem finish_bind_eq_ok {p : Program Op α} {f : α → Program Op β} {s u : σ} {b : β}
    (h : (p >>= f).finish handler s = (.ok b, u)) :
    ∃ a t, p.finish handler s = (.ok a, t) ∧ (f a).finish handler t = (.ok b, u) := by
  rw [finish_bind] at h
  rcases hrun : p.finish handler s with ⟨e | a, t⟩
  · rw [hrun] at h
    cases h
  · rw [hrun] at h
    exact ⟨a, t, rfl, h⟩

variable {handler}

/-- What every operation keeps is kept by a run. -/
theorem finish_keeps {P : σ → Prop}
    (hop : ∀ {γ : Type} (op : Op γ) (s : σ), P s → P (handler op s).2)
    (p : Program Op α) {s : σ} (hs : P s) : P (p.finish handler s).2 := by
  induction p generalizing s with
  | done result => exact hs
  | perform op next ih => exact ih _ (hop op s hs)

/-- A program leaves a property of the state as it is. -/
def Keeps (handler : Handler Op σ) (P : σ → Prop) (p : Program Op α) : Prop :=
  ∀ s, P s → P (p.finish handler s).2

variable {P : σ → Prop}

theorem keeps_pure (a : α) : (pure a : Program Op α).Keeps handler P := fun _ hs => hs

theorem keeps_raise (e : Error) : (raise e : Program Op α).Keeps handler P := fun _ hs => hs

theorem keeps_ofExcept (x : Except Error α) : (ofExcept x : Program Op α).Keeps handler P :=
  fun _ hs => hs

/-- A sequence keeps what both of its parts keep. -/
theorem Keeps.bind {p : Program Op α} {f : α → Program Op β} (hp : p.Keeps handler P)
    (hf : ∀ a, (f a).Keeps handler P) : (p >>= f).Keeps handler P := by
  intro s hs
  have hafter := hp s hs
  rw [finish_bind]
  rcases hrun : p.finish handler s with ⟨a | e, t⟩
  · rw [hrun] at hafter
    exact hafter
  · rw [hrun] at hafter
    exact hf _ t hafter

/-- What a program ends with has a property. -/
def Ends (handler : Handler Op σ) (Q : Except Error α → σ → Prop) (p : Program Op α) (s : σ) :
    Prop :=
  Q (p.finish handler s).1 (p.finish handler s).2

theorem Keeps.ends_bind {p : Program Op α} {f : α → Program Op β} {Q : Except Error β → σ → Prop}
    {s : σ} (hp : p.Keeps handler P) (hs : P s) (herror : ∀ e t, P t → Q (.error e) t)
    (hf : ∀ a t, P t → (f a).Ends handler Q t) : (p >>= f).Ends handler Q s := by
  have hafter := hp s hs
  unfold Ends
  rw [finish_bind]
  rcases hrun : p.finish handler s with ⟨e | a, t⟩
  · rw [hrun] at hafter
    exact herror e t hafter
  · rw [hrun] at hafter
    exact hf a t hafter

/-- All operations that a program may perform are allowed. -/
def Only (allowed : ∀ {β : Type}, Op β → Prop) : Program Op α → Prop
  | .done _ => True
  | .perform op next => allowed op ∧ ∀ b, Only allowed (next b)

section Only

variable {allowed : ∀ {β : Type}, Op β → Prop}

theorem only_pure (a : α) : (pure a : Program Op α).Only allowed := trivial

theorem only_raise (e : Error) : (raise e : Program Op α).Only allowed := trivial

theorem only_ofExcept (x : Except Error α) : (ofExcept x : Program Op α).Only allowed := trivial

theorem only_call {op : Op α} (h : allowed op) : (call op).Only allowed := ⟨h, fun _ => trivial⟩

/-- A sequence does what is allowed if both of its parts do. -/
theorem Only.bind {p : Program Op α} {f : α → Program Op β} (hp : p.Only allowed)
    (hf : ∀ a, (f a).Only allowed) : (p >>= f).Only allowed := by
  show (p.andThen f).Only allowed
  induction p with
  | done result =>
    cases result with
    | ok a => exact hf a
    | error e => trivial
  | perform op next ih => exact ⟨hp.1, fun b => ih b (hp.2 b)⟩

/-- What is allowed stays allowed under a weaker condition. -/
theorem Only.mono {allowed' : ∀ {β : Type}, Op β → Prop} {p : Program Op α} (hp : p.Only allowed)
    (hmono : ∀ {γ : Type} (op : Op γ), allowed op → allowed' op) : p.Only allowed' := by
  induction p with
  | done result => trivial
  | perform op next ih => exact ⟨hmono op hp.1, fun b => ih b (hp.2 b)⟩

/-- What the allowed operations keep is kept. -/
theorem Only.keeps {p : Program Op α} (hp : p.Only allowed)
    (hop : ∀ {γ : Type} (op : Op γ) (s : σ), allowed op → P s → P (handler op s).2) :
    p.Keeps handler P := by
  induction p with
  | done result => exact fun s hs => hs
  | perform op next ih => exact fun s hs => ih _ (hp.2 _) _ (hop op s hp.1 hs)

end Only

@[simp] theorem pure_bind (a : α) (f : α → Program Op β) : pure a >>= f = f a := rfl

@[simp] theorem raise_bind (e : Error) (f : α → Program Op β) : raise e >>= f = raise e := rfl

@[simp] theorem bind_assoc {γ : Type} (p : Program Op α) (f : α → Program Op β)
    (g : β → Program Op γ) : (p >>= f) >>= g = p >>= fun a => f a >>= g := by
  show (p.andThen f).andThen g = p.andThen fun a => (f a).andThen g
  induction p with
  | done result =>
    cases result with
    | ok a => rfl
    | error e => rfl
  | perform op next ih =>
    show Program.perform op _ = Program.perform op _
    exact congrArg (Program.perform op) (funext ih)

/-- Run a program until the operation with some number raises an error instead. -/
def finishUntil (handler : Handler Op σ) (e : Error) : Nat → Program Op α → σ → Except Error α × σ
  | _, .done result, s => (result, s)
  | 0, .perform _ _, s => (.error e, s)
  | k + 1, .perform op next, s => finishUntil handler e k (next (handler op s).1) (handler op s).2

@[simp] theorem finishUntil_pure (e : Error) (k : Nat) (a : α) (s : σ) :
    (pure a : Program Op α).finishUntil handler e k s = (.ok a, s) := by
  cases k <;> rfl

@[simp] theorem finishUntil_raise (e e' : Error) (k : Nat) (s : σ) :
    (raise e' : Program Op α).finishUntil handler e k s = (.error e', s) := by
  cases k <;> rfl

@[simp] theorem finishUntil_call_bind_zero (e : Error) (op : Op α) (f : α → Program Op β) (s : σ) :
    (call op >>= f).finishUntil handler e 0 s = (.error e, s) := rfl

@[simp] theorem finishUntil_call_bind_succ (e : Error) (k : Nat) (op : Op α) (f : α → Program Op β)
    (s : σ) : (call op >>= f).finishUntil handler e (k + 1) s =
      (f (handler op s).1).finishUntil handler e k (handler op s).2 := rfl

/-- What every operation keeps is kept until the stop. -/
theorem finishUntil_keeps (hop : ∀ {γ : Type} (op : Op γ) (s : σ), P s → P (handler op s).2)
    (e : Error)
    (k : Nat) (p : Program Op α) {s : σ} (hs : P s) : P (p.finishUntil handler e k s).2 := by
  induction k generalizing p s with
  | zero =>
    cases p with
    | done result => exact hs
    | perform op next => exact hs
  | succ k ih =>
    cases p with
    | done result => exact hs
    | perform op next => exact ih _ (hop op s hs)

/-- A program comes to the operation with some number. -/
def Reaches (handler : Handler Op σ) : Nat → Program Op α → σ → Prop
  | _, .done _, _ => False
  | 0, .perform _ _, _ => True
  | k + 1, .perform op next, s => Reaches handler k (next (handler op s).1) (handler op s).2

variable {k : Nat}

/-- A stop that is reached ends the run. -/
theorem finishUntil_of_reaches {e : Error} {p : Program Op α} {s : σ} (h : p.Reaches handler k s) :
    (p.finishUntil handler e k s).1 = .error e := by
  induction k generalizing p s with
  | zero =>
    cases p with
    | done result => exact h.elim
    | perform op next => rfl
  | succ k ih =>
    cases p with
    | done result => exact h.elim
    | perform op next => exact ih h

/-- A stop that is not reached changes nothing. -/
theorem finishUntil_of_not_reaches {e : Error} {p : Program Op α} {s : σ}
    (h : ¬ p.Reaches handler k s) : p.finishUntil handler e k s = p.finish handler s := by
  induction k generalizing p s with
  | zero =>
    cases p with
    | done result => rfl
    | perform op next => exact (h trivial).elim
  | succ k ih =>
    cases p with
    | done result => rfl
    | perform op next => exact ih h

@[simp] theorem advance_call_bind (op : Op α) (f : α → Program Op β) (s : σ) :
    (call op >>= f).advance handler s = (f (handler op s).1, (handler op s).2) := rfl

theorem reaches_iff {p : Program Op α} {s : σ} :
    p.Reaches handler k s ↔ ∀ e, (p.finishUntil handler e k s).1 = .error e := by
  constructor
  · intro h e
    exact finishUntil_of_reaches h
  · intro h
    by_contra hnot
    have hfirst := h ⟨.keyError, ""⟩
    have hsecond := h ⟨.valueError, ""⟩
    rw [finishUntil_of_not_reaches hnot] at hfirst hsecond
    rw [hfirst] at hsecond
    simp at hsecond

/-- What an operation keeps is kept by one step. -/
theorem advance_keeps {P : σ → Prop} {p : Program Op α} {s : σ}
    (hop : ∀ {γ : Type} (op : Op γ) (next : γ → Program Op α), p = .perform op next →
      P (handler op s).2) (hs : P s) : P (p.advance handler s).2 := by
  cases p with
  | done result => exact hs
  | perform op next => exact hop op next rfl

end Program

end Dayjaview
