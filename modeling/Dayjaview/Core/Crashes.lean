import Dayjaview.Core.Program

/-!
# Programs that may stop at any operation

A program may be cut off before any of its operations. A crash contract says what holds
of every state on the way, and what holds at the end if the program gets there.
-/

namespace Dayjaview.Program

variable {Op : Type → Type} {α β σ : Type} {handler : Handler Op σ}

/-- A property holds in every state on the way and at the end. -/
def Throughout (handler : Handler Op σ) (I : σ → Prop) : Program Op α → σ → Prop
  | .done _, s => I s
  | .perform op next, s => I s ∧ Throughout handler I (next (handler op s).1) (handler op s).2

/-- What holds on the way, and what holds of the result and the last state. -/
structure Contract (handler : Handler Op σ) (I : σ → Prop) (Q : Except Error α → σ → Prop)
    (p : Program Op α) (s : σ) : Prop where
  along : p.Throughout handler I s
  final : Q (p.finish handler s).1 (p.finish handler s).2

variable {I : σ → Prop} {Q : Except Error α → σ → Prop} {s : σ}

theorem Throughout.finishUntil {p : Program Op α} (h : p.Throughout handler I s) (e : Error)
    (k : Nat) : I (p.finishUntil handler e k s).2 := by
  induction k generalizing p s with
  | zero =>
    cases p with
    | done result => exact h
    | perform op next => exact h.1
  | succ k ih =>
    cases p with
    | done result => exact h
    | perform op next => exact ih h.2

theorem Throughout.mono {J : σ → Prop} {p : Program Op α} (h : p.Throughout handler I s)
    (hIJ : ∀ t, I t → J t) : p.Throughout handler J s := by
  induction p generalizing s with
  | done result => exact hIJ s h
  | perform op next ih => exact ⟨hIJ s h.1, ih _ h.2⟩

theorem Throughout.bind {p : Program Op α} {f : α → Program Op β} (hp : p.Throughout handler I s)
    (hf : ∀ a t, p.finish handler s = (.ok a, t) → (f a).Throughout handler I t) :
    (p >>= f).Throughout handler I s := by
  show (p.andThen f).Throughout handler I s
  induction p generalizing s with
  | done result =>
    cases result with
    | ok a => exact hf a s rfl
    | error e => exact hp
  | perform op next ih => exact ⟨hp.1, ih _ hp.2 fun a t h => hf a t h⟩

namespace Contract

theorem mono {p : Program Op α} {J : σ → Prop} {R : Except Error α → σ → Prop}
    (h : p.Contract handler I Q s) (hIJ : ∀ t, I t → J t) (hQR : ∀ r t, Q r t → R r t) :
    p.Contract handler J R s :=
  ⟨h.along.mono hIJ, hQR _ _ h.final⟩

theorem pure {a : α} (hI : I s) (hQ : Q (.ok a) s) :
    (Pure.pure a : Program Op α).Contract handler I Q s := ⟨hI, hQ⟩

theorem raise {e : Error} (hI : I s) (hQ : Q (.error e) s) :
    (Program.raise e : Program Op α).Contract handler I Q s := ⟨hI, hQ⟩

theorem call {op : Op α} (hI : I s) (hI' : I (handler op s).2)
    (hQ : Q (.ok (handler op s).1) (handler op s).2) :
    (Program.call op).Contract handler I Q s := ⟨⟨hI, hI'⟩, hQ⟩

theorem bind {p : Program Op α} {f : α → Program Op β} {R : Except Error β → σ → Prop}
    (hp : p.Contract handler I Q s) (hok : ∀ a t, Q (.ok a) t → (f a).Contract handler I R t)
    (herror : ∀ e t, Q (.error e) t → R (.error e) t) : (p >>= f).Contract handler I R s := by
  obtain ⟨halong, hfinal⟩ := hp
  constructor
  · refine halong.bind fun a t ht => ?_
    rw [ht] at hfinal
    exact (hok a t hfinal).along
  · rw [finish_bind]
    rcases hrun : p.finish handler s with ⟨e | a, t⟩
    · rw [hrun] at hfinal
      exact herror e t hfinal
    · rw [hrun] at hfinal
      exact (hok a t hfinal).final

theorem call_bind {op : Op α} {f : α → Program Op β} {R : Except Error β → σ → Prop} (hI : I s)
    (hf : (f (handler op s).1).Contract handler I R (handler op s).2) :
    (Program.call op >>= f).Contract handler I R s :=
  ⟨⟨hI, hf.along⟩, by rw [finish_call_bind]; exact hf.final⟩

theorem finishUntil {p : Program Op α} (h : p.Contract handler I Q s) (e : Error) (k : Nat) :
    (p.finishUntil handler e k s).1 = .error e ∧ I (p.finishUntil handler e k s).2 ∨
      Q (p.finishUntil handler e k s).1 (p.finishUntil handler e k s).2 := by
  by_cases hreaches : p.Reaches handler k s
  · exact .inl ⟨finishUntil_of_reaches hreaches, h.along.finishUntil e k⟩
  · rw [finishUntil_of_not_reaches hreaches]
    exact .inr h.final

end Contract

end Dayjaview.Program
