import Dayjaview.Core.DecimalFormat

/-!
# Numbers below a power of ten

How large the result of an operation can get. A number that stays below the largest
exponent is computed without a signal.
-/

namespace Dayjaview.Decimal

/-- A number lies below a power of ten. -/
def Below (d : Decimal) (n : Int) : Prop :=
  d.coefficient = 0 ∨ digits d.coefficient + d.exponent ≤ n

variable {d b : Decimal} {n : Int} {prec : Nat}

theorem Below.mono {m : Int} (h : d.Below m) (hmn : m ≤ n) : d.Below n := by
  rcases h with hzero | hle
  · exact .inl hzero
  · exact .inr (by omega)

theorem abs_value (d : Decimal) : |d.value| = d.coefficient * 10 ^ d.exponent := by
  have hpow : (0 : ℚ) < 10 ^ d.exponent := by positivity
  have hsigned : |(d.signed : ℚ)| = d.coefficient := by
    unfold signed
    split <;> simp
  rw [value, abs_mul, hsigned, abs_of_pos hpow]

theorem below_iff : d.Below n ↔ |d.value| < 10 ^ n := by
  have hpow : (0 : ℚ) < 10 ^ d.exponent := by positivity
  have hsplit : (10 : ℚ) ^ n = 10 ^ (n - d.exponent) * 10 ^ d.exponent := by
    rw [← zpow_add₀ (by norm_num)]
    congr 1
    omega
  rw [abs_value, hsplit, mul_lt_mul_iff_of_pos_right hpow, Below]
  by_cases hzero : d.coefficient = 0
  · have hpos : (0 : ℚ) < 10 ^ (n - d.exponent) := by positivity
    simp [hzero, hpos]
  · have hone : (1 : ℚ) ≤ d.coefficient := by exact_mod_cast Nat.one_le_iff_ne_zero.mpr hzero
    have hdigits := digits_pos d.coefficient
    by_cases hroom : 0 < n - d.exponent
    · obtain ⟨k, hk⟩ := Int.eq_ofNat_of_zero_le hroom.le
      have hkpos : 0 < k := by omega
      rw [hk, zpow_natCast]
      have hlt := digits_le_iff (n := d.coefficient) hkpos
      constructor
      · rintro (h | h)
        · exact absurd h hzero
        · exact_mod_cast hlt.mp (by omega)
      · intro h
        exact .inr (by have := hlt.mpr (by exact_mod_cast h); omega)
    · constructor
      · rintro (h | h)
        · exact absurd h hzero
        · omega
      · intro h
        have hle : (10 : ℚ) ^ (n - d.exponent) ≤ 1 :=
          zpow_le_one_of_nonpos₀ (by norm_num) (by omega)
        linarith

theorem finish_ok_of_below (mode : Rounding) (prec : Nat) (h : d.Below eMax) :
    ∃ r, finish mode prec d = .ok r := finish_ok h

theorem digits_div_ten_le {n k : Nat} (hk : 0 < k) (h : digits n ≤ k + 1) :
    digits (n / 10) ≤ k := by
  rw [digits_le_iff hk]
  have hlt := (digits_le_iff (Nat.succ_pos k)).mp h
  rw [pow_succ] at hlt
  omega

theorem digits_roundedQuotient_le (mode : Rounding) (negative : Bool) {n dropped k : Nat}
    (hk : 0 < k)
    (h : digits n ≤ k + dropped) : digits (roundedQuotient mode negative n dropped) ≤ k + 1 := by
  have hlt := (digits_le_iff (by omega)).mp h
  have hquotient : n / 10 ^ dropped < 10 ^ k := by
    rw [Nat.div_lt_iff_lt_mul (by positivity), ← pow_add]
    exact hlt
  have hrounded : roundedQuotient mode negative n dropped ≤ n / 10 ^ dropped + 1 := by
    unfold roundedQuotient
    cases mode <;> dsimp only <;> split <;> omega
  rw [digits_le_iff (by omega), pow_succ]
  have hpos : 0 < 10 ^ k := by positivity
  omega

theorem finish_below {mode : Rounding} {r : Decimal} {m : Int} (hprec : 0 < prec) (h : d.Below m)
    (hm : 0 ≤ m) (hr : finish mode prec d = .ok r) : r.Below (m + 1) := by
  unfold finish at hr
  split at hr
  · next hzero =>
    cases hr
    exact .inl hzero
  · next hzero =>
    have hle := h.resolve_left hzero
    dsimp only at hr
    split at hr
    · cases hr
    split at hr
    · next hlow =>
      have hfit : (digits d.coefficient : Int) ≤ prec +
          ((max ((digits d.coefficient : Int) + d.exponent - prec) (eTiny prec) -
            d.exponent).toNat : Int) := by
        omega
      have hrounded := digits_roundedQuotient_le mode d.negative hprec
        (by exact_mod_cast hfit : digits d.coefficient ≤ prec +
          (max ((digits d.coefficient : Int) + d.exponent - prec) (eTiny prec) - d.exponent).toNat)
      have htiny : eTiny prec + prec ≤ m := by
        unfold eTiny eMax
        omega
      split at hr
      · have hshort := digits_div_ten_le hprec hrounded
        dsimp only at hr
        split at hr
        · cases hr
        · cases hr
          exact .inr (by dsimp only; omega)
      · dsimp only at hr
        split at hr
        · cases hr
        · cases hr
          exact .inr (by dsimp only; omega)
    · cases hr
      exact .inr (by omega)

theorem value_rescaled {e : Int} (h : e ≤ d.exponent) : (d.rescaled e).value = d.value := by
  have hpow : (10 : ℚ) ^ (d.exponent - e).toNat * 10 ^ e = 10 ^ d.exponent := by
    rw [← zpow_natCast, Int.toNat_of_nonneg (by omega), ← zpow_add₀ (by norm_num)]
    congr 1
    omega
  have hsigned : ((d.rescaled e).signed : ℚ) = d.signed * 10 ^ (d.exponent - e).toNat := by
    unfold rescaled signed
    split <;> simp
  rw [value, hsigned, mul_assoc, rescaled, hpow, value]

theorem value_exactSum (a b : Decimal) : (exactSum a b).value = a.value + b.value := by
  have hne : (10 : ℚ) ^ min a.exponent b.exponent ≠ 0 := by positivity
  have hsign : ∀ v : Int, (if decide (v < 0) = true then -(v.natAbs : Int) else v.natAbs) = v := by
    intro v
    split
    · next hneg =>
      have hlt : v < 0 := of_decide_eq_true hneg
      omega
    · next hneg =>
      have hle : ¬v < 0 := by simpa using hneg
      omega
  have hsigned : (exactSum a b).signed = a.scaled (min a.exponent b.exponent) +
      b.scaled (min a.exponent b.exponent) := by
    unfold exactSum signed
    dsimp only
    exact hsign _
  rw [value, hsigned, Int.cast_add, scaled_value (min_le_left _ _), scaled_value (min_le_right _ _),
    ← add_div]
  exact div_mul_cancel₀ _ hne

theorem shrunk_below {high low : Decimal} (hzero : high.coefficient ≠ 0) (hhigh : high.Below n)
    (hlow : low.Below n) : (shrunk prec high low).Below n := by
  unfold shrunk
  dsimp only
  split
  · have hle := hhigh.resolve_left hzero
    have hdigits := digits_pos high.coefficient
    have hone : digits 1 = 1 := by decide
    exact .inr (by dsimp only; rw [hone]; omega)
  · exact hlow

theorem rawSum_below (prec : Nat) {a : Decimal} (ha : a.Below n) (hb : b.Below n) :
    (rawSum prec a b).Below (n + 1) := by
  have hsum : ∀ x y : Decimal, x.Below n → y.Below n → (exactSum x y).Below (n + 1) := by
    intro x y hx hy
    rw [below_iff] at hx hy ⊢
    rw [value_exactSum, zpow_add₀ (by norm_num), zpow_one]
    have hpow : (0 : ℚ) < 10 ^ n := by positivity
    calc |x.value + y.value| ≤ |x.value| + |y.value| := abs_add_le _ _
      _ < 10 ^ n * 10 := by linarith
  have hrescaled : ∀ (x : Decimal) (e : Int), x.Below n → e ≤ x.exponent →
      (x.rescaled e).Below (n + 1) := by
    intro x e hx he
    rw [below_iff, value_rescaled he]
    exact lt_of_lt_of_le (below_iff.mp hx) (zpow_le_zpow_right₀ (by norm_num) (by omega))
  unfold rawSum
  dsimp only
  split
  · exact .inl rfl
  split
  · exact hrescaled b _ hb (by omega)
  split
  · exact hrescaled a _ ha (by omega)
  next hane hbne =>
  split
  · exact hsum _ _ (shrunk_below hbne hb ha) hb
  · exact hsum _ _ ha (shrunk_below hane ha hb)

theorem add_ok_of_below {a : Decimal} (hprec : 0 < prec) (ha : a.Below n) (hb : b.Below n)
    (hn : 0 ≤ n) (hmax : n + 1 ≤ eMax) :
    ∃ r, add prec a b = .ok r ∧ r.Below (n + 2) := by
  have hsum := rawSum_below prec ha hb
  obtain ⟨r, hr⟩ := finish_ok_of_below .halfEven prec (hsum.mono hmax)
  exact ⟨r, hr, (finish_below hprec hsum (by omega) hr).mono (by omega)⟩

theorem digits_mul_le (m n : Nat) : digits (m * n) ≤ digits m + digits n := by
  have hm := digits_pos m
  rw [digits_le_iff (by omega), pow_add]
  exact Nat.mul_lt_mul'' ((digits_le_iff hm).mp (le_refl _))
    ((digits_le_iff (digits_pos n)).mp (le_refl _))

theorem mul_ok_of_below {a : Decimal} {m : Int} (hprec : 0 < prec) (ha : a.Below m) (hb : b.Below n)
    (hn : 0 ≤ m + n) (hmax : m + n ≤ eMax) :
    ∃ r, mul prec a b = .ok r ∧ r.Below (m + n + 1) := by
  have hproduct : Below ⟨a.negative ^^ b.negative, a.coefficient * b.coefficient,
      a.exponent + b.exponent⟩ (m + n) := by
    rcases ha with ha | ha
    · exact .inl (by simp [ha])
    rcases hb with hb | hb
    · exact .inl (by simp [hb])
    have hdigits := digits_mul_le a.coefficient b.coefficient
    exact .inr (by dsimp only; omega)
  obtain ⟨r, hr⟩ := finish_ok_of_below .halfEven prec (hproduct.mono hmax)
  exact ⟨r, hr, finish_below hprec hproduct hn hr⟩

theorem le_of_digits {n : Nat} (h : n ≠ 0) : 10 ^ (digits n - 1) ≤ n := by
  by_contra hlt
  by_cases hone : digits n = 1
  · rw [hone] at hlt
    simp at hlt
    exact h hlt
  · have hdigits := digits_pos n
    have hle := (digits_le_iff (n := n) (k := digits n - 1) (by omega)).mpr (by omega)
    omega

theorem rawQuotient_below (prec : Nat) (a : Decimal) (hb : b.coefficient ≠ 0) :
    (rawQuotient prec a b).Below
      (digits a.coefficient + a.exponent - digits b.coefficient - b.exponent + 2) := by
  unfold rawQuotient
  dsimp only
  by_cases ha : a.coefficient = 0
  · rw [if_pos ha]
    exact .inl rfl
  rw [if_neg ha]
  generalize hshift : (digits b.coefficient : Int) - digits a.coefficient + prec + 1 = shift
  have ha' := (digits_le_iff (digits_pos a.coefficient)).mp (le_refl _)
  have hb' := le_of_digits hb
  have hdigits := digits_pos b.coefficient
  have hquotient :
      digits (a.coefficient * 10 ^ shift.toNat / (b.coefficient * 10 ^ (-shift).toNat)) ≤
      (prec + 2 : Nat) := by
    rw [digits_le_iff (by omega), Nat.div_lt_iff_lt_mul (by positivity)]
    calc a.coefficient * 10 ^ shift.toNat < 10 ^ digits a.coefficient * 10 ^ shift.toNat :=
          Nat.mul_lt_mul_of_pos_right ha' (by positivity)
      _ = 10 ^ (digits a.coefficient + shift.toNat) := (pow_add _ _ _).symm
      _ = 10 ^ (prec + 2 + (digits b.coefficient - 1) + (-shift).toNat) := by
          congr 1
          omega
      _ = 10 ^ (prec + 2) * (10 ^ (digits b.coefficient - 1) * 10 ^ (-shift).toNat) := by
          rw [pow_add, pow_add, Nat.mul_assoc]
      _ ≤ 10 ^ (prec + 2) * (b.coefficient * 10 ^ (-shift).toNat) :=
          Nat.mul_le_mul_left _ (Nat.mul_le_mul_right _ hb')
  generalize a.coefficient * 10 ^ shift.toNat / (b.coefficient * 10 ^ (-shift).toNat) =
    q at hquotient ⊢
  split
  · have hsticky : digits (if q % 5 = 0 then q + 1 else q) ≤ prec + 2 := by
      have hlt := (digits_le_iff (n := q) (by omega)).mp hquotient
      have hfive : 10 ^ (prec + 2) % 5 = 0 := by
        rw [pow_succ]
        omega
      rw [digits_le_iff (by omega)]
      split <;> omega
    exact .inr (by dsimp only; omega)
  · exact trimZeros_range _ _ _ _ _ (.inr (by omega))

end Dayjaview.Decimal
