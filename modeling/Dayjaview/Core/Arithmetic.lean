import Dayjaview.Core.Decimal
import Dayjaview.Core.Error

/-!
# Decimal arithmetic at a precision

Every operation computes exactly and then rounds to the digits of its context:
half-even unless said otherwise, with the exponent range of the default context.
A result above that range raises a signal; one below it is rounded to the
smallest exponent.
-/

namespace Dayjaview.Decimal

/-- The largest adjusted exponent. -/
def eMax : Int := 999999

/-- The smallest exponent at a precision. -/
def eTiny (prec : Nat) : Int := -eMax - prec + 1

/-- The largest exponent of a number that uses all digits of a precision. -/
def eTop (prec : Nat) : Int := eMax - prec + 1

/-- The number of digits of the coefficient. -/
def digits (n : Nat) : Nat := (natText n).length

/-- How a discarded remainder is resolved. -/
inductive Rounding where
  /-- To the nearest, ties to even. -/
  | halfEven
  | ceiling
  /-- To the nearest, ties away from zero. -/
  | halfUp
  deriving DecidableEq

/-- A coefficient without its last digits, rounded. -/
def roundedQuotient (mode : Rounding) (negative : Bool) (coefficient dropped : Nat) : Nat :=
  let q := coefficient / 10 ^ dropped
  let r := coefficient % 10 ^ dropped
  match mode with
  | .halfEven => if 10 ^ dropped < 2 * r ∨ (2 * r = 10 ^ dropped ∧ q % 2 = 1) then q + 1 else q
  | .ceiling => if r ≠ 0 ∧ negative = false then q + 1 else q
  | .halfUp => if 10 ^ dropped ≤ 2 * r then q + 1 else q

/-- A signal of the arithmetic context. -/
def signal (name : String) : Error := ⟨.decimalSignal, "[<class 'decimal." ++ name ++ "'>]"⟩

/-- Round an exact result to a precision. -/
def finish (mode : Rounding) (prec : Nat) (d : Decimal) : Except Error Decimal :=
  if d.coefficient = 0 then .ok { d with exponent := min (max d.exponent (eTiny prec)) eMax }
  else
    let fitting := digits d.coefficient + d.exponent - prec
    if eTop prec < fitting then .error (signal "Overflow")
    else
      let expMin := max fitting (eTiny prec)
      if d.exponent < expMin then
        let rounded := roundedQuotient mode d.negative d.coefficient (expMin - d.exponent).toNat
        -- Rounding up may carry into one more digit, a zero then.
        let (coefficient, exponent) :=
          if prec < digits rounded then (rounded / 10, expMin + 1) else (rounded, expMin)
        if eTop prec < exponent then .error (signal "Overflow")
        else .ok ⟨d.negative, coefficient, exponent⟩
      else .ok d

/-- A number with more digits behind the point. -/
def rescaled (d : Decimal) (exponent : Int) : Decimal :=
  ⟨d.negative, d.coefficient * 10 ^ (d.exponent - exponent).toNat, exponent⟩

/-- The operand of lower exponent, cut to a sticky digit when it is far below the other one. -/
def shrunk (prec : Nat) (high low : Decimal) : Decimal :=
  let exponent := high.exponent + min (-1) ((digits high.coefficient : Int) - prec - 2)
  if digits low.coefficient + low.exponent - 1 < exponent then ⟨low.negative, 1, exponent⟩ else low

/-- The exact sum of two numbers. -/
def exactSum (a b : Decimal) : Decimal :=
  let exponent := min a.exponent b.exponent
  let v := a.scaled exponent + b.scaled exponent
  ⟨decide (v < 0), v.natAbs, exponent⟩

def rawSum (prec : Nat) (a b : Decimal) : Decimal :=
  let exponent := min a.exponent b.exponent
  if a.coefficient = 0 ∧ b.coefficient = 0 then ⟨a.negative && b.negative, 0, exponent⟩
  else if a.coefficient = 0 then b.rescaled (max exponent (b.exponent - prec - 1))
  else if b.coefficient = 0 then a.rescaled (max exponent (a.exponent - prec - 1))
  else if a.exponent < b.exponent then exactSum (shrunk prec b a) b
  else exactSum a (shrunk prec a b)

/-- The sum of two numbers under a rounding mode. -/
def addRounding (mode : Rounding) (prec : Nat) (a b : Decimal) : Except Error Decimal :=
  finish mode prec (rawSum prec a b)

def add (prec : Nat) (a b : Decimal) : Except Error Decimal := addRounding .halfEven prec a b

/-- The number with the other sign. -/
def neg (d : Decimal) : Decimal := { d with negative := !d.negative }

/-- The difference of two numbers. -/
def sub (prec : Nat) (a b : Decimal) : Except Error Decimal := add prec a b.neg

/-- The product of two numbers. -/
def mul (prec : Nat) (a b : Decimal) : Except Error Decimal :=
  finish .halfEven prec
    ⟨a.negative ^^ b.negative, a.coefficient * b.coefficient, a.exponent + b.exponent⟩

/-- A coefficient without trailing zeros, as long as the exponent stays below the ideal one. -/
def trimZeros : Nat → Nat → Int → Int → Nat × Int
  | 0, coefficient, exponent, _ => (coefficient, exponent)
  | fuel + 1, coefficient, exponent, ideal =>
    if exponent < ideal ∧ coefficient % 10 = 0 then
      trimZeros fuel (coefficient / 10) (exponent + 1) ideal
    else (coefficient, exponent)

/-- A quotient before rounding, with a sticky last digit when it is not exact. -/
def rawQuotient (prec : Nat) (a b : Decimal) : Decimal :=
  let negative := a.negative ^^ b.negative
  if a.coefficient = 0 then ⟨negative, 0, a.exponent - b.exponent⟩
  else
    let shift : Int := (digits b.coefficient : Int) - digits a.coefficient + prec + 1
    let exponent := a.exponent - b.exponent - shift
    let dividend := a.coefficient * 10 ^ shift.toNat
    let divisor := b.coefficient * 10 ^ (-shift).toNat
    let coefficient := dividend / divisor
    if dividend % divisor ≠ 0 then
      ⟨negative, if coefficient % 5 = 0 then coefficient + 1 else coefficient, exponent⟩
    else
      let (coefficient, exponent) :=
        trimZeros (digits coefficient) coefficient exponent (a.exponent - b.exponent)
      ⟨negative, coefficient, exponent⟩

/-- The quotient of two numbers. -/
def div (prec : Nat) (a b : Decimal) : Except Error Decimal :=
  if b.coefficient = 0 then
    .error (if a.coefficient = 0 then signal "DivisionUndefined" else signal "DivisionByZero")
  else finish .halfEven prec (rawQuotient prec a b)

/-- The sum of some numbers, added one by one. -/
def sum (prec : Nat) (ds : List Decimal) : Except Error Decimal := ds.foldlM (add prec) zero

/-- The smallest number of the precision above a number. -/
def nextPlus (prec : Nat) (d : Decimal) : Except Error Decimal := do
  let fixed ← finish .ceiling prec d
  if fixed ≤ d ∧ d ≤ fixed then addRounding .ceiling prec d ⟨false, 1, eTiny prec - 1⟩
  else return fixed

/-- The precision outside of any local context. -/
def defaultPrec : Nat := 28

theorem digits_pos (n : Nat) : 0 < digits n := Nat.length_toDigits_pos

theorem digits_le_iff {n k : Nat} (hk : 0 < k) : digits n ≤ k ↔ n < 10 ^ k :=
  Nat.length_toDigits_le_iff (by decide) hk

theorem digits_mono {m n : Nat} (h : m ≤ n) : digits m ≤ digits n :=
  (digits_le_iff (digits_pos n)).mpr
    (lt_of_le_of_lt h ((digits_le_iff (digits_pos n)).mp (le_refl _)))

theorem finish_ok {mode : Rounding} {prec : Nat} {d : Decimal}
    (h : d.coefficient = 0 ∨ digits d.coefficient + d.exponent ≤ eMax) :
    ∃ r, finish mode prec d = .ok r := by
  unfold finish
  split
  · exact ⟨_, rfl⟩
  · next hzero =>
    have hrange := h.resolve_left hzero
    have hfitting : ¬ eTop prec < digits d.coefficient + d.exponent - prec := by
      unfold eTop
      omega
    dsimp only
    rw [if_neg hfitting]
    split
    · have hmin : max ((digits d.coefficient : Int) + d.exponent - prec) (eTiny prec) + 1 ≤
          eTop prec := by
        unfold eTiny eTop eMax at *
        omega
      split
      · rw [if_neg (by omega)]
        exact ⟨_, rfl⟩
      · rw [if_neg (by omega)]
        exact ⟨_, rfl⟩
    · exact ⟨_, rfl⟩

theorem trimZeros_range (fuel coefficient : Nat) (exponent ideal bound : Int)
    (h : coefficient = 0 ∨ digits coefficient + exponent ≤ bound) :
    let r := trimZeros fuel coefficient exponent ideal
    r.1 = 0 ∨ digits r.1 + r.2 ≤ bound := by
  induction fuel generalizing coefficient exponent with
  | zero => exact h
  | succ fuel ih =>
    unfold trimZeros
    split
    · next hdivides =>
      refine ih _ _ ?_
      rcases h with rfl | hle
      · exact .inl (by simp)
      · by_cases hsmall : coefficient < 10
        · exact .inl (by omega)
        · right
          have hshort : 1 < digits coefficient := by
            by_contra hone
            have hlt := (digits_le_iff (k := 1) (by decide)).mp (not_lt.mp hone)
            omega
          have hlt := (digits_le_iff (digits_pos coefficient)).mp (le_refl _)
          have hpow : 10 ^ digits coefficient = 10 ^ (digits coefficient - 1) * 10 := by
            rw [← pow_succ]
            congr 1
            omega
          have hdigits : digits (coefficient / 10) ≤ digits coefficient - 1 := by
            rw [digits_le_iff (by omega)]
            omega
          omega
    · exact h

theorem div_ok {prec : Nat} {x y : Decimal} (hx : x.exponent = 0) (hy : y.exponent = 0)
    (hpos : 0 < y.coefficient) (h : x.coefficient ≤ y.coefficient) : ∃ r, div prec x y = .ok r := by
  unfold div
  rw [if_neg hpos.ne']
  apply finish_ok
  have hrange : ∀ bound : Int, 1 ≤ bound → (rawQuotient prec x y).coefficient = 0 ∨
      digits (rawQuotient prec x y).coefficient + (rawQuotient prec x y).exponent ≤ bound := by
    intro bound hbound
    unfold rawQuotient
    obtain ⟨_, a, _⟩ := x
    obtain ⟨_, b, _⟩ := y
    dsimp only at hx hy hpos h ⊢
    rw [hx, hy]
    by_cases ha : a = 0
    · rw [if_pos ha]
      exact .inl rfl
    rw [if_neg ha]
    obtain ⟨shift, hshift⟩ : ∃ shift : Nat, (shift : Int) = (digits b : Int) - digits a +
        prec + 1 :=
      ⟨digits b - digits a + prec + 1, by have := digits_mono h; omega⟩
    have hneg : (-(shift : Int)).toNat = 0 := by omega
    rw [← hshift, hneg, Int.toNat_natCast, pow_zero, Nat.mul_one]
    have hquotient : a * 10 ^ shift / b ≤ 10 ^ shift := by
      apply Nat.div_le_of_le_mul
      exact Nat.mul_le_mul_right _ h
    have hdigits : ∀ q : Nat, q ≤ 10 ^ shift → (digits q : Int) ≤ shift + 1 := by
      intro q hq
      have hpow : 10 ^ shift < 10 ^ (shift + 1) := Nat.pow_lt_pow_right (by decide) (by omega)
      exact_mod_cast (digits_le_iff (Nat.succ_pos shift)).mpr (lt_of_le_of_lt hq hpow)
    by_cases hsticky : a * 10 ^ shift % b ≠ 0
    · rw [if_pos hsticky]
      have hlt : a * 10 ^ shift / b < 10 ^ shift := by
        refine lt_of_le_of_ne hquotient fun heq => hsticky ?_
        have hdiv := Nat.div_add_mod (a * 10 ^ shift) b
        rw [heq] at hdiv
        have hle : a * 10 ^ shift ≤ b * 10 ^ shift := Nat.mul_le_mul_right _ h
        omega
      have hcoefficient : (if a * 10 ^ shift / b % 5 = 0 then a * 10 ^ shift / b + 1
          else a * 10 ^ shift / b) ≤ 10 ^ shift := by
        split <;> omega
      have hshort := hdigits _ hcoefficient
      right
      dsimp only
      omega
    · rw [if_neg hsticky]
      have hshort := hdigits _ hquotient
      exact trimZeros_range _ _ _ _ bound (.inr (by omega))
  exact hrange eMax (by decide)

end Dayjaview.Decimal
