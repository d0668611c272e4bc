import Mathlib.Algebra.Order.Field.Power
import Mathlib.Algebra.Order.Floor.Ring
import Mathlib.Algebra.Ring.Int.Parity
import Mathlib.Data.Int.Log
import Mathlib.Data.Rat.Floor
import Mathlib.Tactic.FieldSimp
import Mathlib.Tactic.Linarith
import Mathlib.Tactic.NormNum
import Mathlib.Tactic.Positivity
import Mathlib.Tactic.Ring

/-!
# Half-even rounding

Rounding to the nearest whole number, ties to even, and rounding to a number of significant
digits above a least exponent. Rounding is monotone, and it depends on a number only up to the
halves of the last digit.
-/

namespace Dayjaview.HalfEven

variable {K : Type*} [Field K] [LinearOrder K] [IsStrictOrderedRing K] [FloorRing K]

/-- The nearest whole number, the even one of two. -/
def roundEven (x : K) : ℤ :=
  if 2 * Int.fract x < 1 ∨ (2 * Int.fract x = 1 ∧ Even ⌊x⌋) then ⌊x⌋ else ⌊x⌋ + 1

section

omit [IsStrictOrderedRing K]

theorem floor_le_roundEven (x : K) : ⌊x⌋ ≤ roundEven x := by
  unfold roundEven
  split <;> omega

theorem roundEven_le_floor_add_one (x : K) : roundEven x ≤ ⌊x⌋ + 1 := by
  unfold roundEven
  split <;> omega

end

@[simp] theorem roundEven_intCast (n : ℤ) : roundEven (n : K) = n := by
  simp [roundEven]

theorem roundEven_mono {x y : K} (h : x ≤ y) : roundEven x ≤ roundEven y := by
  rcases lt_or_eq_of_le (Int.floor_le_floor h) with hlt | heq
  · calc roundEven x ≤ ⌊x⌋ + 1 := roundEven_le_floor_add_one x
      _ ≤ ⌊y⌋ := hlt
      _ ≤ roundEven y := floor_le_roundEven y
  · have hfract : Int.fract x ≤ Int.fract y := by
      unfold Int.fract
      rw [heq]
      linarith
    unfold roundEven
    rw [heq]
    split_ifs with hx hy hy
    · exact le_rfl
    · omega
    · refine absurd ?_ hx
      rcases hy with hy | ⟨hy, heven⟩
      · exact .inl (by linarith)
      · rcases lt_or_eq_of_le hfract with hlt | heq'
        · exact .inl (by linarith)
        · exact .inr ⟨by linarith, heven⟩
    · exact le_rfl

theorem roundEven_of_halves {x : K} {n : ℤ} (hlow : (n : K) < 2 * x) (hhigh : 2 * x < n + 1) :
    roundEven x = (n + 1) / 2 := by
  have hfract : Int.fract x = x - ⌊x⌋ := rfl
  rcases Int.even_or_odd' n with ⟨m, rfl | rfl⟩
  · have hfloor : ⌊x⌋ = m := by
      rw [Int.floor_eq_iff]
      push_cast at hlow hhigh
      constructor <;> linarith
    have hhalf : (2 * m + 1) / 2 = m := by omega
    rw [hhalf, roundEven, if_pos, hfloor]
    refine .inl ?_
    rw [hfract, hfloor]
    push_cast at hhigh
    linarith
  · have hfloor : ⌊x⌋ = m := by
      rw [Int.floor_eq_iff]
      push_cast at hlow hhigh
      constructor <;> linarith
    have hhalf : (2 * m + 1 + 1) / 2 = m + 1 := by omega
    have hover : (1 : K) < 2 * Int.fract x := by
      rw [hfract, hfloor]
      push_cast at hlow
      linarith
    rw [hhalf, roundEven, if_neg, hfloor]
    rintro (hlt | ⟨heq, -⟩)
    · linarith
    · linarith

theorem roundEven_neg (x : K) : roundEven (-x) = -roundEven x := by
  by_cases hwhole : Int.fract x = 0
  · obtain ⟨n, rfl⟩ : ∃ n : ℤ, (n : K) = x := ⟨⌊x⌋, by
      have hsplit := Int.floor_add_fract x
      rw [hwhole] at hsplit
      linarith⟩
    have hneg : -((n : ℤ) : K) = ((-n : ℤ) : K) := by push_cast; ring
    rw [hneg, roundEven_intCast, roundEven_intCast]
  · have hfract : Int.fract (-x) = 1 - Int.fract x := Int.fract_neg hwhole
    have hfloor : ⌊-x⌋ = -⌊x⌋ - 1 := by
      have hleft := Int.floor_add_fract (-x)
      have hright := Int.floor_add_fract x
      have hcast : ((⌊-x⌋ : ℤ) : K) = ((-⌊x⌋ - 1 : ℤ) : K) := by
        push_cast
        linarith
      exact_mod_cast hcast
    have hparity : Even (-⌊x⌋ - 1) ↔ ¬ Even ⌊x⌋ := by
      rw [Int.even_sub_one, even_neg]
    unfold roundEven
    rw [hfract, hfloor]
    by_cases hlow : 2 * Int.fract x < 1
    · rw [if_neg, if_pos (.inl hlow)]
      · omega
      · rintro (hlt | ⟨heq, -⟩)
        · linarith
        · linarith
    · by_cases htie : 2 * Int.fract x = 1
      · by_cases heven : Even ⌊x⌋
        · rw [if_neg, if_pos (.inr ⟨htie, heven⟩)]
          · omega
          · rintro (hlt | ⟨-, hodd⟩)
            · linarith
            · exact hparity.mp hodd heven
        · rw [if_pos (.inr ⟨by linarith, hparity.mpr heven⟩), if_neg]
          · omega
          · rintro (hlt | ⟨-, hodd⟩)
            · linarith
            · exact heven hodd
      · have hover : 1 < 2 * Int.fract x :=
          lt_of_le_of_ne (not_lt.mp hlow) (Ne.symm htie)
        rw [if_pos (.inl (by linarith)), if_neg]
        · omega
        · rintro (hlt | ⟨heq, -⟩)
          · linarith
          · exact htie heq

/-- Round to a multiple of a power of ten. -/
def roundAt (e : ℤ) (x : K) : K := roundEven (x / 10 ^ e) * 10 ^ e

theorem roundAt_mono (e : ℤ) {x y : K} (h : x ≤ y) : roundAt e x ≤ roundAt e y := by
  have hpow : (0 : K) < 10 ^ e := by positivity
  refine mul_le_mul_of_nonneg_right ?_ hpow.le
  exact_mod_cast roundEven_mono (div_le_div_of_nonneg_right h hpow.le)

theorem roundAt_neg (e : ℤ) (x : K) : roundAt e (-x) = -roundAt e x := by
  rw [roundAt, roundAt, neg_div, roundEven_neg]
  push_cast
  ring

theorem roundAt_multiple {e f : ℤ} (h : e ≤ f) (n : ℤ) :
    roundAt e ((n : K) * 10 ^ f) = n * 10 ^ f := by
  have hpow : (10 : K) ^ e ≠ 0 := by positivity
  have hsplit : (10 : K) ^ f = ((10 ^ (f - e).toNat : ℤ) : K) * 10 ^ e := by
    push_cast
    rw [← zpow_natCast, Int.toNat_of_nonneg (by omega), ← zpow_add₀ (by norm_num)]
    congr 1
    omega
  have hwhole : (n : K) * 10 ^ f / 10 ^ e = ((n * 10 ^ (f - e).toNat : ℤ) : K) := by
    rw [hsplit, div_eq_iff hpow]
    push_cast
    ring
  rw [roundAt, hwhole, roundEven_intCast, ← hwhole, div_mul_cancel₀ _ hpow]

theorem roundAt_pow {e f : ℤ} (h : e ≤ f) : roundAt e ((10 : K) ^ f) = 10 ^ f := by
  have hmultiple := roundAt_multiple (K := K) h 1
  push_cast at hmultiple
  rwa [one_mul] at hmultiple

@[simp] theorem roundAt_zero (e : ℤ) : roundAt e (0 : K) = 0 := by
  have hmultiple := roundAt_multiple (K := K) (le_refl e) 0
  push_cast at hmultiple
  rwa [zero_mul] at hmultiple

/-- The place of the last digit of a number, when it has so many digits and no digit below a least
place. -/
def lastPlace (prec : ℕ) (least : ℤ) (x : K) : ℤ := max (Int.log 10 |x| + 1 - prec) least

/-- A number rounded to so many digits. -/
def rounded (prec : ℕ) (least : ℤ) (x : K) : K := roundAt (lastPlace prec least x) x

section Rounded

variable {prec : ℕ} {least : ℤ} {x y : K}

theorem rounded_neg : rounded prec least (-x) = -rounded prec least x := by
  rw [rounded, rounded, lastPlace, lastPlace, abs_neg, roundAt_neg]

@[simp] theorem rounded_zero : rounded prec least (0 : K) = 0 := roundAt_zero _

theorem rounded_nonneg (h : 0 ≤ x) : 0 ≤ rounded prec least x := by
  rw [← roundAt_zero (K := K) (lastPlace prec least x)]
  exact roundAt_mono _ h

theorem lt_pow_of_log_lt {p : ℤ} (hx : 0 < x) (h : Int.log 10 x < p) : x < 10 ^ p := by
  have hlt := (Int.lt_zpow_iff_log_lt (b := 10) (by norm_num) hx).mpr h
  exact_mod_cast hlt

theorem pow_log_le (hx : 0 < x) : (10 : K) ^ Int.log 10 x ≤ x := by
  have hle := Int.zpow_log_le_self (b := 10) (by norm_num) hx
  exact_mod_cast hle

private theorem rounded_mono_pos (hprec : 0 < prec) (hx : 0 < x) (h : x ≤ y) :
    rounded prec least x ≤ rounded prec least y := by
  have hy : 0 < y := lt_of_lt_of_le hx h
  have hlog : Int.log 10 x ≤ Int.log 10 y := Int.log_mono_right hx h
  have hplace : lastPlace prec least x ≤ lastPlace prec least y := by
    unfold lastPlace
    rw [abs_of_pos hx, abs_of_pos hy]
    omega
  rcases lt_or_eq_of_le hplace with hlt | heq
  · -- the leading digit of the larger number lies on both grids and between the two
    have hlower : x < 10 ^ Int.log 10 y := by
      refine lt_pow_of_log_lt hx ?_
      unfold lastPlace at hlt
      rw [abs_of_pos hx, abs_of_pos hy] at hlt
      omega
    have hgrid : lastPlace prec least y ≤ Int.log 10 y := by
      unfold lastPlace at hlt ⊢
      rw [abs_of_pos hx, abs_of_pos hy] at hlt
      rw [abs_of_pos hy]
      omega
    calc rounded prec least x ≤ roundAt (lastPlace prec least x) (10 ^ Int.log 10 y) :=
          roundAt_mono _ hlower.le
      _ = 10 ^ Int.log 10 y := roundAt_pow (by omega)
      _ = roundAt (lastPlace prec least y) (10 ^ Int.log 10 y) := (roundAt_pow hgrid).symm
      _ ≤ rounded prec least y := roundAt_mono _ (pow_log_le hy)
  · rw [rounded, rounded, heq]
    exact roundAt_mono _ h

theorem rounded_mono (hprec : 0 < prec) (h : x ≤ y) :
    rounded prec least x ≤ rounded prec least y := by
  rcases lt_trichotomy 0 x with hx | rfl | hx
  · exact rounded_mono_pos hprec hx h
  · rw [rounded_zero]
    exact rounded_nonneg h
  · rcases lt_or_ge y 0 with hy | hy
    · have hneg : rounded prec least (-y) ≤ rounded prec least (-x) :=
        rounded_mono_pos hprec (by linarith) (by linarith)
      rw [rounded_neg, rounded_neg] at hneg
      linarith
    · have hnonneg : 0 ≤ rounded prec least (-x) := rounded_nonneg (by linarith)
      rw [rounded_neg] at hnonneg
      have hy' : 0 ≤ rounded prec least y := rounded_nonneg hy
      linarith

theorem rounded_multiple (hprec : 0 < prec) {n e : ℤ} (hn : |n| ≤ 10 ^ prec) (he : least ≤ e) :
    rounded prec least ((n : K) * 10 ^ e) = n * 10 ^ e := by
  have hpow : (0 : K) < 10 ^ e := by positivity
  have habs : |(n : K) * 10 ^ e| = (|n| : ℤ) * 10 ^ e := by
    rw [abs_mul, abs_of_pos hpow, Int.cast_abs]
  have hprod : (10 : K) ^ ((prec : ℤ) + e) = 10 ^ prec * 10 ^ e := by
    rw [zpow_add₀ (by norm_num), zpow_natCast]
  rcases eq_or_ne n 0 with rfl | hzero
  · simp
  have hpos : (0 : K) < |(n : K) * 10 ^ e| := by
    rw [abs_pos]
    exact mul_ne_zero (by exact_mod_cast hzero) hpow.ne'
  rcases lt_or_eq_of_le hn with hlt | heq
  · refine roundAt_multiple ?_ n
    have hlog : Int.log 10 |(n : K) * 10 ^ e| < prec + e := by
      refine (Int.lt_zpow_iff_log_lt (by norm_num) hpos).mp ?_
      rw [habs]
      push_cast
      rw [hprod]
      exact mul_lt_mul_of_pos_right (by exact_mod_cast hlt) hpow
    unfold lastPlace
    omega
  · -- a power of ten has one digit
    have hlog : Int.log 10 |(n : K) * 10 ^ e| < prec + e + 1 := by
      refine (Int.lt_zpow_iff_log_lt (by norm_num) hpos).mp ?_
      rw [habs, heq]
      push_cast
      rw [← hprod, zpow_add_one₀ (by norm_num) ((prec : ℤ) + e)]
      have hpow' : (0 : K) < 10 ^ ((prec : ℤ) + e) := by positivity
      linarith
    have hplace : lastPlace prec least ((n : K) * 10 ^ e) ≤ prec + e := by
      unfold lastPlace
      omega
    have hsign : (n : K) * 10 ^ e = (n.sign : ℤ) * 10 ^ ((prec : ℤ) + e) := by
      have hsplit : ((n.sign * |n| : ℤ) : K) = n := by
        exact_mod_cast Int.sign_mul_abs n
      rw [← hsplit, heq, hprod]
      push_cast
      ring
    unfold rounded
    rw [hsign] at hplace ⊢
    exact roundAt_multiple hplace n.sign

theorem rounded_rounded (hprec : 0 < prec) :
    rounded prec least (rounded prec least x) = rounded prec least x := by
  have hpow : (0 : K) < 10 ^ lastPlace prec least x := by positivity
  have hreach : |x| ≤ 10 ^ prec * 10 ^ lastPlace prec least x := by
    rcases eq_or_ne x 0 with rfl | hx
    · rw [abs_zero]
      positivity
    · rw [← zpow_natCast, ← zpow_add₀ (by norm_num)]
      refine (lt_pow_of_log_lt (abs_pos.mpr hx) ?_).le
      unfold lastPlace
      omega
  obtain ⟨hlow, hhigh⟩ := abs_le.mp hreach
  have hbound : |roundEven (x / 10 ^ lastPlace prec least x)| ≤ 10 ^ prec := by
    have hupper : x / 10 ^ lastPlace prec least x ≤ ((10 ^ prec : ℤ) : K) := by
      rw [div_le_iff₀ hpow]
      push_cast
      exact hhigh
    have hlower : ((-10 ^ prec : ℤ) : K) ≤ x / 10 ^ lastPlace prec least x := by
      rw [le_div_iff₀ hpow]
      push_cast
      linarith
    have hupper' := roundEven_mono hupper
    have hlower' := roundEven_mono hlower
    rw [roundEven_intCast] at hupper' hlower'
    exact abs_le.mpr ⟨hlower', hupper'⟩
  exact rounded_multiple hprec hbound (le_max_right _ _)

private theorem lastPlace_le_of_halves (hprec : 0 < prec) {k n : ℤ}
    (hx : k + 1 ≤ lastPlace prec least x) (hxlow : (n : K) * (5 * 10 ^ k) < x)
    (hxhigh : x < (n + 1) * (5 * 10 ^ k)) (hylow : (n : K) * (5 * 10 ^ k) < y)
    (hyhigh : y < (n + 1) * (5 * 10 ^ k)) : lastPlace prec least y ≤ lastPlace prec least x := by
  by_contra hlt
  have hstep : (0 : K) < 5 * 10 ^ k := by positivity
  have hplace : lastPlace prec least y = Int.log 10 |y| + 1 - prec := by
    unfold lastPlace at hlt ⊢
    omega
  have hyne : y ≠ 0 := by
    rintro rfl
    have hn : (n : K) < 0 := by
      by_contra hnonneg
      have := mul_nonneg (not_lt.mp hnonneg) hstep.le
      linarith
    have hn' : (0 : K) < n + 1 := by
      by_contra hneg
      have := mul_nonpos_of_nonpos_of_nonneg (not_lt.mp hneg) hstep.le
      linarith
    have hn0 : n < 0 := by exact_mod_cast hn
    have hn1 : 0 < n + 1 := by exact_mod_cast hn'
    omega
  have hpowle : (10 : K) ^ Int.log 10 |y| ≤ |y| := pow_log_le (abs_pos.mpr hyne)
  have hxlt : |x| < 10 ^ Int.log 10 |y| := by
    rcases eq_or_ne x 0 with rfl | hxne
    · rw [abs_zero]
      positivity
    · refine lt_pow_of_log_lt (abs_pos.mpr hxne) ?_
      rw [hplace] at hlt
      unfold lastPlace at hlt
      omega
  -- the power is a multiple of the step
  obtain ⟨m, hm⟩ : ∃ m : ℤ, (10 : K) ^ Int.log 10 |y| = m * (5 * 10 ^ k) := by
    have hroom : k + 1 ≤ Int.log 10 |y| := by omega
    refine ⟨2 * 10 ^ (Int.log 10 |y| - k - 1).toNat, ?_⟩
    push_cast
    rw [← zpow_natCast, Int.toNat_of_nonneg (by omega)]
    have hsplit : (10 : K) ^ Int.log 10 |y| = 10 ^ (Int.log 10 |y| - k - 1) * 10 ^ k * 10 := by
      rw [← zpow_add₀ (by norm_num), ← zpow_add_one₀ (by norm_num)]
      congr 1
      omega
    rw [hsplit]
    ring
  rw [hm] at hpowle hxlt
  obtain ⟨hxneg, hxpos⟩ := abs_lt.mp hxlt
  have hcancel : ∀ a b : ℤ, (a : K) * (5 * 10 ^ k) < b * (5 * 10 ^ k) → a < b := by
    intro a b hab
    exact_mod_cast lt_of_mul_lt_mul_right hab hstep.le
  rcases le_abs.mp hpowle with hle | hle
  · have hnm : m < n + 1 := by
      refine hcancel _ _ ?_
      push_cast
      linarith
    have hmn : n < m := hcancel _ _ (by linarith)
    omega
  · have hnm : n < -m := by
      refine hcancel _ _ ?_
      push_cast
      linarith
    have hmn : -m < n + 1 := by
      refine hcancel _ _ ?_
      push_cast
      linarith
    omega

theorem rounded_of_halves (hprec : 0 < prec) {k n : ℤ} (hx : k + 1 ≤ lastPlace prec least x)
    (hy : k + 1 ≤ lastPlace prec least y) (hxlow : (n : K) * (5 * 10 ^ k) < x)
    (hxhigh : x < (n + 1) * (5 * 10 ^ k)) (hylow : (n : K) * (5 * 10 ^ k) < y)
    (hyhigh : y < (n + 1) * (5 * 10 ^ k)) : rounded prec least x = rounded prec least y := by
  have hplace : lastPlace prec least x = lastPlace prec least y :=
    le_antisymm (lastPlace_le_of_halves hprec hy hylow hyhigh hxlow hxhigh)
      (lastPlace_le_of_halves hprec hx hxlow hxhigh hylow hyhigh)
  unfold rounded roundAt
  rw [← hplace]
  generalize lastPlace prec least x = e at hx
  have hpow : (0 : K) < 10 ^ e := by positivity
  obtain ⟨c, hc, hhalf⟩ : ∃ c : ℤ, 0 < c ∧ (10 : K) ^ e = 2 * c * (5 * 10 ^ k) := by
    refine ⟨10 ^ (e - k - 1).toNat, by positivity, ?_⟩
    push_cast
    rw [← zpow_natCast, Int.toNat_of_nonneg (by omega)]
    have hsplit : (10 : K) ^ e = 10 ^ (e - k - 1) * 10 ^ k * 10 := by
      rw [← zpow_add₀ (by norm_num), ← zpow_add_one₀ (by norm_num)]
      congr 1
      omega
    rw [hsplit]
    ring
  have hceil : n + 1 ≤ c * (n / c + 1) := by
    have := Int.lt_mul_ediv_self_add (x := n) hc
    rw [mul_add, mul_one]
    omega
  have hfloor : c * (n / c) ≤ n := Int.mul_ediv_self_le hc.ne'
  have hbetween : ∀ z : K, (n : K) * (5 * 10 ^ k) < z → z < (n + 1) * (5 * 10 ^ k) →
      roundEven (z / 10 ^ e) = (n / c + 1) / 2 := by
    intro z hlow hhigh
    have hstep : (0 : K) < 5 * 10 ^ k := by positivity
    apply roundEven_of_halves
    · rw [← mul_div_assoc, lt_div_iff₀ hpow, hhalf]
      have hcast : ((c * (n / c) : ℤ) : K) ≤ n := by exact_mod_cast hfloor
      push_cast at hcast
      nlinarith [mul_le_mul_of_nonneg_right hcast hstep.le]
    · rw [← mul_div_assoc, div_lt_iff₀ hpow, hhalf]
      have hcast : ((n + 1 : ℤ) : K) ≤ (c * (n / c + 1) : ℤ) := by exact_mod_cast hceil
      push_cast at hcast
      nlinarith [mul_le_mul_of_nonneg_right hcast hstep.le]
  rw [hbetween x hxlow hxhigh, hbetween y hylow hyhigh]

end Rounded

end Dayjaview.HalfEven

namespace Dayjaview

/-- The floating-point number nearest to a number. -/
def binary64 (x : ℚ) : ℚ :=
  let place : ℤ := max (Int.log 2 |x| - 52) (-1074)
  HalfEven.roundEven (x / 2 ^ place) * 2 ^ place

/-- A floating-point number rounded to some decimal digits. -/
def roundDigits (digits : Nat) (x : ℚ) : ℚ :=
  binary64 (HalfEven.roundEven (x * 10 ^ digits) / 10 ^ digits)

example : binary64 (1 / 10) = 3602879701896397 / 36028797018963968 := by decide +kernel

example : roundDigits 2 (binary64 (2675 / 1000)) = binary64 (267 / 100) := by decide +kernel

end Dayjaview

namespace Dayjaview.HalfUp

variable {K : Type*} [Field K] [LinearOrder K] [IsStrictOrderedRing K] [FloorRing K]

variable {prec places : ℕ} {least : ℤ}

end Dayjaview.HalfUp
