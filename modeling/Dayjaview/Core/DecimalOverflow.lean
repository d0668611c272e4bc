import Dayjaview.Core.DecimalRounding

/-!
# Where decimal arithmetic overflows

An operation signals exactly when the rounded result reaches the power of ten above the largest
exponent. So the values of the operands decide about the outcome, whatever digits they are written
with.
-/

namespace Dayjaview.Decimal

/-- A rational number rounded to the digits of a context, or the signal that it is too large. -/
def roundedOr (prec : Nat) (x : ℚ) : Except Error ℚ :=
  if 10 ^ (eMax + 1) ≤ |roundedTo prec x| then .error (signal "Overflow")
  else .ok (roundedTo prec x)

variable {prec : Nat}

theorem abs_roundedTo (x : ℚ) : |roundedTo prec x| = roundedTo prec |x| := by
  rcases le_total 0 x with h | h
  · have hnonneg : 0 ≤ roundedTo prec x := HalfEven.rounded_nonneg h
    rw [abs_of_nonneg h, abs_of_nonneg hnonneg]
  · have hneg : 0 ≤ roundedTo prec (-x) := HalfEven.rounded_nonneg (by linarith)
    rw [abs_of_nonpos h, roundedTo_neg, abs_of_nonpos]
    rw [roundedTo_neg] at hneg
    linarith

theorem roundedTo_pow (hprec : 0 < prec) :
    roundedTo prec (10 ^ (eMax + 1)) = 10 ^ (eMax + 1) := by
  have hleast : eTiny prec ≤ eMax + 1 := by
    unfold eTiny eMax
    omega
  have hkept := HalfEven.rounded_multiple (K := ℚ) hprec (n := 1)
    (by simpa using (one_le_pow₀ (by norm_num) : (1 : ℤ) ≤ 10 ^ prec)) hleast
  rw [roundedTo]
  simpa using hkept

theorem below_of_finish (hprec : 0 < prec) {d r : Decimal} (h : finish .halfEven prec d = .ok r) :
    r.Below (eMax + 1) := by
  unfold finish at h
  split at h
  · next hzero =>
    cases h
    exact .inl hzero
  · dsimp only at h
    split at h
    · cases h
    · next hfit =>
      have htop : eTop prec + prec = eMax + 1 := by
        unfold eTop
        omega
      split at h
      · next hlow =>
        have hcut : digits d.coefficient ≤ prec +
            (max ((digits d.coefficient : Int) + d.exponent - prec) (eTiny prec) -
              d.exponent).toNat := by
          omega
        have hmany := digits_roundedQuotient_le .halfEven d.negative hprec hcut
        split at h
        · dsimp only at h
          split at h
          · cases h
          · cases h
            have hshort := digits_div_ten_le hprec hmany
            exact .inr (by dsimp only; omega)
        · dsimp only at h
          split at h
          · cases h
          · cases h
            exact .inr (by dsimp only; omega)
      · cases h
        exact .inr (by omega)

theorem le_of_finish_error (hprec : 0 < prec) {d : Decimal} {e : Error}
    (h : finish .halfEven prec d = .error e) : 10 ^ (eMax + 1) ≤ |roundedTo prec d.value| := by
  unfold finish at h
  split at h
  · cases h
  · next hzero =>
    dsimp only at h
    split at h
    · next hlarge =>
      have hlog : eMax + 1 ≤ Int.log 10 |d.value| := by
        have hplace := log_value hzero
        unfold eTop at hlarge
        omega
      have hpos : 0 < |d.value| := abs_pos.mpr fun hvalue => hzero (value_eq_zero.mp hvalue)
      have hle : (10 : ℚ) ^ (eMax + 1) ≤ |d.value| :=
        (zpow_le_zpow_right₀ (by norm_num) hlog).trans (HalfEven.pow_log_le hpos)
      rw [abs_roundedTo, ← roundedTo_pow hprec]
      exact roundedTo_mono hprec hle
    · next hfits =>
      -- rounding carries into the digit above the largest ones
      have hplace : max ((digits d.coefficient : Int) + d.exponent - prec) (eTiny prec) =
          HalfEven.lastPlace prec (eTiny prec) d.value := by
        rw [HalfEven.lastPlace, log_value hzero]
      have htop : max ((digits d.coefficient : Int) + d.exponent - prec) (eTiny prec) ≤
          eTop prec := by
        unfold eTop eTiny eMax at *
        omega
      unfold roundedTo HalfEven.rounded
      rw [hplace] at h htop
      generalize HalfEven.lastPlace prec (eTiny prec) d.value = place at h htop ⊢
      split at h
      · next hlow =>
        obtain ⟨negative, coefficient, exponent⟩ := d
        dsimp only at h hlow
        rw [roundAt_value negative coefficient hlow.le]
        generalize roundedQuotient .halfEven negative coefficient (place - exponent).toNat = kept
          at h ⊢
        split at h
        · next hmany =>
          dsimp only at h
          split at h
          · next hover =>
            have hfull : 10 ^ prec ≤ kept := by
              by_contra hless
              have hshort := (digits_le_iff hprec).mpr (not_le.mp hless)
              omega
            obtain rfl : place = eTop prec := by omega
            have hpow : (10 : ℚ) ^ (eMax + 1) = 10 ^ prec * 10 ^ eTop prec := by
              rw [← zpow_natCast, ← zpow_add₀ (by norm_num)]
              congr 1
              unfold eTop
              omega
            rw [abs_value, hpow]
            exact mul_le_mul_of_nonneg_right (by exact_mod_cast hfull) (by positivity)
          · cases h
        · dsimp only at h
          split at h
          · omega
          · cases h
      · cases h

theorem map_value_finish (hprec : 0 < prec) (d : Decimal) :
    (finish .halfEven prec d).map value = roundedOr prec d.value := by
  unfold roundedOr
  cases h : finish .halfEven prec d with
  | error e =>
    rw [if_pos (le_of_finish_error hprec h), finish_error h]
    rfl
  | ok r =>
    have hbelow := below_iff.mp (below_of_finish hprec h)
    rw [value_finish hprec h] at hbelow
    rw [if_neg (not_le.mpr hbelow), ← value_finish hprec h]
    rfl

section Operations

variable {prec : Nat} (hprec : 0 < prec) (a b : Decimal)

include hprec

theorem map_value_add : (add prec a b).map value = roundedOr prec (a.value + b.value) := by
  unfold add addRounding
  rw [map_value_finish hprec, roundedOr, roundedTo_rawSum hprec, roundedOr]

theorem map_value_sub : (sub prec a b).map value = roundedOr prec (a.value - b.value) := by
  rw [sub, map_value_add hprec, value_neg, sub_eq_add_neg]

theorem map_value_mul : (mul prec a b).map value = roundedOr prec (a.value * b.value) := by
  unfold mul
  rw [map_value_finish hprec, value_product]

theorem map_value_div (hb : b.coefficient ≠ 0) :
    (div prec a b).map value = roundedOr prec (a.value / b.value) := by
  unfold div
  rw [if_neg hb, map_value_finish hprec, roundedOr, roundedTo_rawQuotient hprec hb, roundedOr]

end Operations

theorem value_ofInt (n : Int) : (ofInt n).value = n := by
  have hsigned : (ofInt n).signed = n := by
    unfold ofInt signed
    dsimp only
    split
    · next h =>
      rw [decide_eq_true_eq] at h
      omega
    · next h =>
      rw [decide_eq_true_eq] at h
      omega
  unfold value
  rw [hsigned]
  simp [ofInt]

theorem exists_div_between (hprec : 0 < prec) {a b : Decimal} (ha : 0 ≤ a.value)
    (hab : a.value ≤ b.value) (hb : b.coefficient ≠ 0) : ∃ r, div prec a b = .ok r := by
  have hvalue := map_value_div hprec a b hb
  have hone : |roundedTo prec (a.value / b.value)| ≤ 1 := by
    have hb' := ha.trans hab
    rw [abs_roundedTo, abs_of_nonneg (div_nonneg ha hb'), ← roundedTo_one hprec]
    exact roundedTo_mono hprec (div_le_one_of_le₀ hab hb')
  have hlarge : (1 : ℚ) < 10 ^ (eMax + 1) := one_lt_zpow₀ (by norm_num) (by decide)
  rw [roundedOr, if_neg (by linarith)] at hvalue
  cases h : div prec a b with
  | error e =>
    rw [h] at hvalue
    cases hvalue
  | ok r => exact ⟨r, rfl⟩

end Dayjaview.Decimal
