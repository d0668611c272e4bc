import Dayjaview.Core.Text
import Mathlib.Data.List.Basic

/-!
# Raised errors and field checks

A fallible operation returns its exception as a class and a message. A checked
record carries the fact that its own checks passed; checks run in order and the
first one that fails is reported.
-/

namespace Dayjaview

/-- The exception classes that the operations raise. -/
inductive ErrorKind where
  | valueError
  | typeError
  | keyError
  | decimalSignal
  | arithmeticError
  | runtimeError
  | overflowError
  | invalidStateTransition
  | eventNotFoundError
  | eventIdentityConflictError
  | idempotencyConflictError
  | concurrentEventWriteError
  | simulatedCommitFailure
  | hotStateIdempotencyConflict
  | hysteresisInputConflict
  | snapshotIdempotencyConflict
  | staleSnapshotPublication
  | snapshotCommitFailure
  | normalizationError
  | kiwoomConnectionError
  | kiwoomConnectionLost
  | reconnectNotDue
  | invalidSubscription
  | invalidRequest
  | authenticationRequired
  | featureNotEntitled
  | csrfValidationFailed
  | recentAuthenticationRequired
  | resourceNotFound
  | oauthCallbackRejected
  | invalidCursor
  | oauthProviderError
  | unicodeDecodeError
  | unicodeEncodeError
  | jsonDecodeError
  | recursionError
  | timeoutError
  | sourceContractError
  | temporalConflictError
  | operatorTargetNotFound
  | operatorCommandRejected
  | unknownOperatorCursor
  | assertionError
  | indexError
  | uniqueViolation
  | checkViolation
  | notNullViolation
  | foreignKeyViolation
  | keyboardInterrupt
  deriving DecidableEq, Repr

structure Error where
  kind : ErrorKind
  message : String
  deriving DecidableEq, Repr

instance decidableEqExcept {ε α : Type} [DecidableEq ε] [DecidableEq α] : DecidableEq (Except ε α)
  | .ok a, .ok b => decidable_of_iff (a = b) (by simp)
  | .error e, .error f => decidable_of_iff (e = f) (by simp)
  | .ok _, .error _ => .isFalse (by simp)
  | .error _, .ok _ => .isFalse (by simp)

/-- Raise a value error unless the condition holds. -/
def ensure (p : Prop) [Decidable p] (message : String) : Except Error Unit :=
  if p then .ok () else .error ⟨.valueError, message⟩

/-- Reject a text of nothing but whitespace. -/
def requireText (value fieldName : String) : Except Error Unit :=
  ensure (isBlank value = false) s!"{fieldName}은 비어 있을 수 없습니다"

/-- Reject a present text of nothing but whitespace. -/
def requireOptionalText (value : Option String) (fieldName : String) : Except Error Unit :=
  match value with
  | none => .ok ()
  | some value => requireText value fieldName

theorem toOption_eq_some {α : Type} {x : Except Error α} {a : α} :
    x.toOption = some a ↔ x = .ok a := by
  cases x with
  | error e => simp [Except.toOption]
  | ok b => simp [Except.toOption]

theorem map_eq_ok {ε α β : Type} {x : Except ε α} {f : α → β} {b : β} :
    x.map f = .ok b ↔ ∃ a, x = .ok a ∧ f a = b := by
  cases x with
  | error e => simp [Except.map]
  | ok a => simp [Except.map]

theorem map_eq_error {ε α β : Type} {x : Except ε α} {f : α → β} {e : ε} :
    x.map f = .error e ↔ x = .error e := by
  cases x with
  | error e => simp [Except.map]
  | ok a => simp [Except.map]

/-- A sequence returns when both of its parts do. -/
theorem bind_eq_ok {ε α β : Type} {x : Except ε α} {f : α → Except ε β} {b : β} :
    (x >>= f) = .ok b ↔ ∃ a, x = .ok a ∧ f a = .ok b := by
  cases x with
  | error e => simp [bind, Except.bind]
  | ok a => simp [bind, Except.bind]

/-- What follows a check is only reached when it passes. -/
@[simp] theorem check_bind_eq_ok {β : Type} {x : Except Error Unit} {f : Unit → Except Error β}
    {b : β} : (x >>= f) = .ok b ↔ x = .ok () ∧ f () = .ok b := by
  rw [bind_eq_ok]
  exact ⟨fun ⟨(), h⟩ => h, fun h => ⟨(), h⟩⟩

/-- A sequence fails in its first part or in its second. -/
theorem bind_eq_error {α β : Type} {x : Except Error α} {f : α → Except Error β} {e : Error} :
    (x >>= f) = .error e ↔ x = .error e ∨ ∃ a, x = .ok a ∧ f a = .error e := by
  cases x with
  | error e => simp [bind, Except.bind]
  | ok a => simp [bind, Except.bind]

/-- A condition passes its check when it holds. -/
@[simp] theorem ensure_eq_ok {p : Prop} [Decidable p] {message : String} :
    ensure p message = .ok () ↔ p := by
  unfold ensure
  split <;> simp_all

@[simp] theorem requireText_eq_ok {value fieldName : String} :
    requireText value fieldName = .ok () ↔ isBlank value = false := ensure_eq_ok

@[simp] theorem requireOptionalText_eq_ok {value : Option String} {fieldName : String} :
    requireOptionalText value fieldName = .ok () ↔ ∀ v ∈ value, isBlank v = false := by
  cases value <;> simp [requireOptionalText]

/-- A fold whose every step goes on for the elements of a kind goes on when all are of this kind. -/
theorem foldlM_isOk_iff {ε α β : Type} {f : β → α → Except ε β} {good : α → Prop}
    (hstep : ∀ b a, (∃ b', f b a = .ok b') ↔ good a) {as : List α} {b : β} :
    (∃ b', as.foldlM f b = .ok b') ↔ ∀ a ∈ as, good a := by
  induction as generalizing b with
  | nil => exact ⟨fun _ _ h => (by cases h), fun _ => ⟨b, rfl⟩⟩
  | cons a as ih =>
    rw [List.forall_mem_cons, ← hstep b a]
    constructor
    · rintro ⟨last, h⟩
      obtain ⟨next, hnext, hrest⟩ := bind_eq_ok.mp h
      exact ⟨⟨next, hnext⟩, ih.mp ⟨last, hrest⟩⟩
    · rintro ⟨⟨next, hnext⟩, hrest⟩
      obtain ⟨last, hlast⟩ := ih.mpr hrest
      exact ⟨last, bind_eq_ok.mpr ⟨next, hnext, hlast⟩⟩

theorem mapM_congr {α β : Type} {f g : α → Except Error β} {as : List α}
    (h : ∀ a ∈ as, f a = g a) : as.mapM f = as.mapM g := by
  induction as with
  | nil => rfl
  | cons a as ih =>
    rw [List.mapM_cons, List.mapM_cons, h a (List.mem_cons_self ..),
      ih fun b hb => h b (List.mem_cons_of_mem _ hb)]

/-- Results and elements belong together. -/
theorem mem_of_mapM_eq_ok {ε α β : Type} {f : α → Except ε β} {as : List α} {bs : List β}
    (h : as.mapM f = .ok bs) :
    (∀ b ∈ bs, ∃ a ∈ as, f a = .ok b) ∧ ∀ a ∈ as, ∃ b ∈ bs, f a = .ok b := by
  induction as generalizing bs with
  | nil =>
    cases h
    simp
  | cons a as ih =>
    rw [List.mapM_cons, bind_eq_ok] at h
    obtain ⟨b, hb, h⟩ := h
    rw [bind_eq_ok] at h
    obtain ⟨bs', hbs, h⟩ := h
    cases h
    obtain ⟨hright, hleft⟩ := ih hbs
    constructor
    · intro c hc
      rcases List.mem_cons.mp hc with rfl | hc
      · exact ⟨a, List.mem_cons_self .., hb⟩
      · obtain ⟨a', ha', hc⟩ := hright c hc
        exact ⟨a', List.mem_cons_of_mem _ ha', hc⟩
    · intro c hc
      rcases List.mem_cons.mp hc with rfl | hc
      · exact ⟨b, List.mem_cons_self .., hb⟩
      · obtain ⟨b', hb', hc⟩ := hleft c hc
        exact ⟨b', List.mem_cons_of_mem _ hb', hc⟩

/-- A map returns when it does on every element. -/
theorem exists_mapM_eq_ok {α β : Type} {f : α → Except Error β} {as : List α}
    (h : ∀ a ∈ as, ∃ b, f a = .ok b) : ∃ bs, as.mapM f = .ok bs := by
  induction as with
  | nil => exact ⟨[], rfl⟩
  | cons a as ih =>
    obtain ⟨b, hb⟩ := h a (List.mem_cons_self ..)
    obtain ⟨bs, hbs⟩ := ih fun a ha => h a (List.mem_cons_of_mem _ ha)
    refine ⟨b :: bs, ?_⟩
    rw [List.mapM_cons, hb, hbs]
    rfl

theorem mapM_eq_ok_map {α β : Type} {f : α → Except Error β} {g : α → β} {as : List α}
    (h : ∀ a ∈ as, f a = .ok (g a)) : as.mapM f = .ok (as.map g) := by
  induction as with
  | nil => rfl
  | cons a as ih =>
    rw [List.mapM_cons, h a (List.mem_cons_self ..), ih fun b hb => h b (List.mem_cons_of_mem _ hb)]
    rfl

theorem forall₂_of_mapM_eq_ok {α β : Type} {f : α → Except Error β} {as : List α} {bs : List β}
    (h : as.mapM f = .ok bs) : List.Forall₂ (fun a b => f a = .ok b) as bs := by
  induction as generalizing bs with
  | nil =>
    cases h
    exact .nil
  | cons a as ih =>
    rw [List.mapM_cons, bind_eq_ok] at h
    obtain ⟨b, hb, h⟩ := h
    obtain ⟨bs', hbs, h⟩ := bind_eq_ok.mp h
    cases h
    exact .cons hb (ih hbs)

theorem map_eq_of_mapM_eq_ok {α β γ : Type} {f : α → Except Error β} {g : α → γ} {k : β → γ}
    {as : List α} {bs : List β} (h : as.mapM f = .ok bs) (hk : ∀ a b, f a = .ok b → k b = g a) :
    bs.map k = as.map g := by
  have hall := forall₂_of_mapM_eq_ok h
  clear h
  induction hall with
  | nil => rfl
  | cons hb _ ih => rw [List.map_cons, List.map_cons, hk _ _ hb, ih]

/-- Build a checked value, or report the first failed check. -/
def checked {α β : Type} (check : α → Except Error Unit) (mk : (a : α) → check a = .ok () → β)
    (a : α) : Except Error β :=
  match h : check a with
  | .ok () => .ok (mk a h)
  | .error e => .error e

/-- What is made has passed its check. -/
theorem checked_eq_ok {α β : Type} {check : α → Except Error Unit}
    {mk : (a : α) → check a = .ok () → β} {a : α} {b : β} :
    checked check mk a = .ok b ↔ ∃ h, mk a h = b := by
  unfold checked
  split
  · next h => simp [h]
  · next h => simp [h]

/-- What passes its check is made. -/
theorem checked_of_ok {α β : Type} {check : α → Except Error Unit}
    {mk : (a : α) → check a = .ok () → β} {a : α} (h : check a = .ok ()) :
    checked check mk a = .ok (mk a h) := checked_eq_ok.mpr ⟨h, rfl⟩

theorem checked_of_error {α β : Type} {check : α → Except Error Unit}
    {mk : (a : α) → check a = .ok () → β} {a : α} {e : Error} (h : check a = .error e) :
    checked check mk a = .error e := by
  unfold checked
  split
  · next h' => simp [h'] at h
  · next h' => simpa [h'] using h

universe u v

variable {ε : Type u} {κ : Type*} {α β : Type v} (classify : ε → κ)

/-- The class of a failure, none for a success. -/
def verdict : Except ε α → Option κ
  | .ok _ => none
  | .error e => some (classify e)

/-- The first failure among some verdicts. -/
def firstFailure (verdicts : List (Option κ)) : Option κ := verdicts.findSome? id

@[simp] theorem firstFailure_nil : firstFailure ([] : List (Option κ)) = none := rfl

@[simp] theorem firstFailure_none (rest : List (Option κ)) :
    firstFailure (none :: rest) = firstFailure rest := rfl

@[simp] theorem firstFailure_some (k : κ) (rest : List (Option κ)) :
    firstFailure (some k :: rest) = some k := rfl

variable {classify} {x : Except ε α} {f : α → Except ε β} {rest : List (Option κ)}

@[simp] theorem verdict_ok (a : α) : verdict classify (.ok a : Except ε α) = none := rfl

@[simp] theorem verdict_error (e : ε) :
    verdict classify (.error e : Except ε α) = some (classify e) := rfl

theorem ok_bind_apply (a : α) (f : α → Except ε β) : (Except.ok a >>= f) = f a := rfl

theorem pure_eq_ok_apply (a : α) : (pure a : Except ε α) = .ok a := rfl

/-- Nothing is found wrong with what returns. -/
theorem verdict_eq_none : verdict classify x = none ↔ ∃ a, x = .ok a := by
  cases x with
  | ok a => exact iff_of_true rfl ⟨a, rfl⟩
  | error e => exact iff_of_false nofun (by rintro ⟨a, ⟨⟩⟩)

/-- The first failure of a sequence comes first. -/
theorem verdict_bind {v : Option κ} (hx : verdict classify x = v)
    (hf : ∀ a, x = .ok a → verdict classify (f a) = firstFailure rest) :
    verdict classify (x >>= f) = firstFailure (v :: rest) := by
  subst hx
  cases x with
  | ok a => exact hf a rfl
  | error e => rfl

theorem verdict_map (g : α → β) (x : Except ε α) :
    verdict classify (x >>= fun a => .ok (g a)) = verdict classify x := by
  cases x <;> rfl

theorem verdict_mapM (f : α → Except ε β) (as : List α) :
    verdict classify (as.mapM f) = firstFailure (as.map fun a => verdict classify (f a)) := by
  induction as with
  | nil => rfl
  | cons a as ih =>
    rw [List.mapM_cons, List.map_cons]
    refine verdict_bind rfl fun b _ => ?_
    rw [← ih]
    exact verdict_map _ _

end Dayjaview
