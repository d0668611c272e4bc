import Dayjaview.Core.DecimalRange
import Dayjaview.Core.HalfEven

/-!
# Decimal arithmetic as rounded arithmetic of rational numbers

The result of an operation is the exact one rounded half-even to the digits of the context, also
where the operation does not compute the exact one: the digits that are left out of a sum or a
quotient do not reach a half of the last one kept.
-/

namespace Dayjaview.Decimal

/-- A rational number rounded to the digits of a context. -/
def roundedTo (prec : Nat) (x : ℚ) : ℚ := HalfEven.rounded prec (eTiny prec) x

variable {prec : Nat} {d b : Decimal}

theorem roundedTo_mono (hprec : 0 < prec) {x y : ℚ} (h : x ≤ y) :
    roundedTo prec x ≤ roundedTo prec y := HalfEven.rounded_mono hprec h

@[simp] theorem roundedTo_zero (prec : Nat) : roundedTo prec 0 = 0 := HalfEven.rounded_zero

theorem roundedTo_neg (prec : Nat) (x : ℚ) : roundedTo prec (-x) = -roundedTo prec x :=
  HalfEven.rounded_neg

theorem roundedTo_one (hprec : 0 < prec) : roundedTo prec 1 = 1 := by
  have hleast : eTiny prec ≤ 0 := by
    unfold eTiny eMax
    omega
  have hkept := HalfEven.rounded_multiple (K := ℚ) hprec (n := 1)
    (by simpa using (one_le_pow₀ (by norm_num) : (1 : ℤ) ≤ 10 ^ prec)) hleast
  rw [roundedTo]
  simpa using hkept

theorem value_eq_zero : d.value = 0 ↔ d.coefficient = 0 := by
  rw [← abs_eq_zero, abs_value]
  have hpow : (10 : ℚ) ^ d.exponent ≠ 0 := by positivity
  simp [hpow]

theorem value_mk (negative : Bool) (coefficient : Nat) (exponent : Int) :
    value ⟨negative, coefficient, exponent⟩ =
      (if negative then -1 else 1) * (coefficient * 10 ^ exponent) := by
  unfold value signed
  cases negative <;> simp

theorem value_sign (d : Decimal) : d.value = (if d.negative then -1 else 1) * |d.value| := by
  rw [abs_value]
  exact value_mk _ _ _

theorem value_neg (d : Decimal) : d.neg.value = -d.value := by
  obtain ⟨negative, coefficient, exponent⟩ := d
  rw [neg, value_mk, value_mk]
  cases negative <;> simp

theorem value_ofNat (n : Nat) : (ofNat n).value = n := by
  rw [ofNat, value_mk]
  simp

@[simp] theorem value_zero : zero.value = 0 := by rw [zero, value_ofNat, Nat.cast_zero]

theorem value_pos (h : ¬ d ≤ zero) : 0 < d.value := by
  rw [le_iff_value, value_zero] at h
  exact not_le.mp h

theorem log_value (h : d.coefficient ≠ 0) :
    Int.log 10 |d.value| + 1 = digits d.coefficient + d.exponent := by
  have hpos : 0 < |d.value| := abs_pos.mpr fun hzero => h (value_eq_zero.mp hzero)
  have hiff : ∀ n : Int, (digits d.coefficient : Int) + d.exponent ≤ n ↔
      Int.log 10 |d.value| + 1 ≤ n := by
    intro n
    have hbelow := @below_iff d n
    have hlog := Int.lt_zpow_iff_log_lt (b := 10) (x := n) (by norm_num) hpos
    push_cast at hlog
    rw [← hlog.trans Int.lt_iff_add_one_le, ← hbelow, Below, or_iff_right h]
  exact le_antisymm ((hiff _).mp le_rfl) ((hiff _).mpr le_rfl)

theorem roundEven_coefficient (negative : Bool) (coefficient dropped : Nat) :
    HalfEven.roundEven ((coefficient : ℚ) / 10 ^ dropped) =
      roundedQuotient .halfEven negative coefficient dropped := by
  have hpow : (0 : ℚ) < 10 ^ dropped := by positivity
  have hdiv := Nat.div_add_mod coefficient (10 ^ dropped)
  have hlt := Nat.mod_lt coefficient (Nat.pow_pos (n := dropped) (by decide : 0 < 10))
  unfold HalfEven.roundEven roundedQuotient
  dsimp only
  generalize coefficient / 10 ^ dropped = q at hdiv
  generalize coefficient % 10 ^ dropped = r at hdiv hlt
  have hsplit : (coefficient : ℚ) / 10 ^ dropped = q + r / 10 ^ dropped := by
    rw [← hdiv]
    push_cast
    field_simp
  have hpart : (r : ℚ) / 10 ^ dropped < 1 := by
    rw [div_lt_one hpow]
    exact_mod_cast hlt
  have hnonneg : (0 : ℚ) ≤ r / 10 ^ dropped := by positivity
  have hfloor : ⌊(coefficient : ℚ) / 10 ^ dropped⌋ = (q : ℤ) := by
    rw [Int.floor_eq_iff, hsplit]
    push_cast
    constructor <;> linarith
  have hfract : 2 * Int.fract ((coefficient : ℚ) / 10 ^ dropped) = (2 * r : ℕ) / 10 ^ dropped := by
    rw [Int.fract, hfloor, hsplit]
    push_cast
    ring
  have hless : 2 * Int.fract ((coefficient : ℚ) / 10 ^ dropped) < 1 ↔ 2 * r < 10 ^ dropped := by
    rw [hfract, div_lt_one hpow]
    exact_mod_cast Iff.rfl
  have htie : 2 * Int.fract ((coefficient : ℚ) / 10 ^ dropped) = 1 ↔ 2 * r = 10 ^ dropped := by
    rw [hfract, div_eq_one_iff_eq hpow.ne']
    exact_mod_cast Iff.rfl
  simp only [hless, htie, hfloor, Int.even_coe_nat, Nat.even_iff]
  split_ifs <;> first | rfl | omega

theorem roundAt_value (negative : Bool) (coefficient : Nat) {exponent place : Int}
    (h : exponent ≤ place) : HalfEven.roundAt place (value ⟨negative, coefficient, exponent⟩) =
      value ⟨negative, roundedQuotient .halfEven negative coefficient (place - exponent).toNat,
        place⟩ := by
  have hdropped : (coefficient : ℚ) * 10 ^ exponent / 10 ^ place =
      coefficient / 10 ^ (place - exponent).toNat := by
    have hsplit : (10 : ℚ) ^ place = 10 ^ (place - exponent).toNat * 10 ^ exponent := by
      rw [← zpow_natCast, Int.toNat_of_nonneg (by omega), ← zpow_add₀ (by norm_num)]
      congr 1
      omega
    have hne : (10 : ℚ) ^ exponent ≠ 0 := by positivity
    rw [hsplit, mul_div_mul_right _ _ hne]
  have hpositive : HalfEven.roundAt place ((coefficient : ℚ) * 10 ^ exponent) =
      roundedQuotient .halfEven negative coefficient (place - exponent).toNat * 10 ^ place := by
    rw [HalfEven.roundAt, hdropped, roundEven_coefficient negative]
    push_cast
    rfl
  rw [value_mk, value_mk]
  cases negative with
  | false =>
    change HalfEven.roundAt place (1 * _) = 1 * _
    rw [one_mul, one_mul, hpositive]
  | true =>
    change HalfEven.roundAt place (-1 * _) = -1 * _
    rw [neg_one_mul, neg_one_mul, HalfEven.roundAt_neg, hpositive]

theorem value_finish (hprec : 0 < prec) {r : Decimal} (h : finish .halfEven prec d = .ok r) :
    r.value = roundedTo prec d.value := by
  unfold finish at h
  split at h
  · next hzero =>
    cases h
    rw [value_eq_zero.mpr hzero, roundedTo_zero, value_eq_zero]
    exact hzero
  · next hzero =>
    have hplace : max ((digits d.coefficient : Int) + d.exponent - prec) (eTiny prec) =
        HalfEven.lastPlace prec (eTiny prec) d.value := by
      rw [HalfEven.lastPlace, log_value hzero]
    have hfit : (digits d.coefficient : Int) + d.exponent - prec ≤
        HalfEven.lastPlace prec (eTiny prec) d.value := by
      rw [← hplace]
      exact le_max_left _ _
    dsimp only at h
    rw [hplace] at h
    unfold roundedTo HalfEven.rounded
    generalize HalfEven.lastPlace prec (eTiny prec) d.value = place at h hfit ⊢
    split at h
    · cases h
    split at h
    · next hlow =>
      obtain ⟨negative, coefficient, exponent⟩ := d
      dsimp only at h hlow hfit
      rw [roundAt_value negative coefficient hlow.le]
      have hquotient : coefficient / 10 ^ (place - exponent).toNat < 10 ^ prec := by
        rw [Nat.div_lt_iff_lt_mul (by positivity), ← pow_add]
        exact (digits_le_iff (by omega)).mp (by omega)
      have hcarry : roundedQuotient .halfEven negative coefficient (place - exponent).toNat ≤
          10 ^ prec := by
        unfold roundedQuotient
        dsimp only
        split <;> omega
      generalize roundedQuotient .halfEven negative coefficient (place - exponent).toNat = kept
        at h hcarry ⊢
      split at h
      · next hmany =>
        have hfull : kept = 10 ^ prec := by
          refine le_antisymm hcarry ?_
          by_contra hless
          have hshort := (digits_le_iff hprec).mpr (not_le.mp hless)
          omega
        dsimp only at h
        split at h
        · cases h
        · cases h
          -- the last digit is a zero that moves into the exponent
          obtain ⟨n, rfl⟩ : ∃ n, prec = n + 1 := ⟨prec - 1, by omega⟩
          have htenth : (10 : Nat) ^ (n + 1) / 10 = 10 ^ n := by
            rw [pow_succ, Nat.mul_div_cancel _ (by decide)]
          rw [hfull, htenth, value_mk, value_mk, zpow_add_one₀ (by norm_num), Nat.cast_pow,
            Nat.cast_pow, pow_succ]
          push_cast
          ring
      · dsimp only at h
        split at h
        · cases h
        · cases h
          rfl
    · next hhigh =>
      cases h
      exact (HalfEven.roundAt_multiple (not_lt.mp hhigh) d.signed).symm

private theorem roundedTo_beside (hprec : 0 < prec) {x : ℚ} {n e : ℤ} (hx : x = n * 10 ^ (e + 1))
    (hlarge : (10 : ℚ) ^ (e + prec + 1) ≤ |x|) {t u : ℚ} (ht : 0 < t) (hte : t ≤ 10 ^ e)
    (hu : 0 < u) (hue : u ≤ 10 ^ e) :
    roundedTo prec (x + t) = roundedTo prec (x + u) := by
  have hpow : (0 : ℚ) < 10 ^ e := by positivity
  have hten : (10 : ℚ) ^ (e + 1) = 10 ^ e * 10 := zpow_add_one₀ (by norm_num) e
  have hplace : ∀ s : ℚ, 0 < s → s ≤ 10 ^ e →
      e + 1 ≤ HalfEven.lastPlace prec (eTiny prec) (x + s) := by
    intro s hs hse
    have hreach : (10 : ℚ) ^ (e + prec) ≤ |x + s| := by
      have htriangle : |x| ≤ |x + s| + s := by
        calc |x| = |(x + s) - s| := by rw [add_sub_cancel_right]
          _ ≤ |x + s| + |s| := abs_sub _ _
          _ = |x + s| + s := by rw [abs_of_pos hs]
      have hten' : (10 : ℚ) ^ (e + prec + 1) = 10 ^ (e + prec) * 10 :=
        zpow_add_one₀ (by norm_num) _
      have hstep : (10 : ℚ) ^ e ≤ 10 ^ (e + prec) :=
        zpow_le_zpow_right₀ (by norm_num) (by omega)
      linarith
    have hpos : (0 : ℚ) < |x + s| := lt_of_lt_of_le (by positivity) hreach
    have hlog : e + prec ≤ Int.log 10 |x + s| := by
      refine (Int.zpow_le_iff_le_log (by norm_num) hpos).mp ?_
      exact_mod_cast hreach
    unfold HalfEven.lastPlace
    omega
  have hgrid : x = ((2 * n : ℤ) : ℚ) * (5 * 10 ^ e) := by
    rw [hx, hten]
    push_cast
    ring
  refine HalfEven.rounded_of_halves (n := 2 * n) hprec (hplace t ht hte) (hplace u hu hue)
    ?_ ?_ ?_ ?_
  all_goals
    rw [hgrid]
    linarith

theorem roundedTo_shrunk (hprec : 0 < prec) {high low : Decimal} (hhigh : high.coefficient ≠ 0)
    (hlow : low.coefficient ≠ 0) :
    roundedTo prec (high.value + (shrunk prec high low).value) =
      roundedTo prec (high.value + low.value) := by
  unfold shrunk
  dsimp only
  generalize hexponent : high.exponent + min (-1) ((digits high.coefficient : Int) - prec - 2) = e
  split
  · next hfar =>
    have hlarge : (10 : ℚ) ^ (e + prec + 1) ≤ |high.value| := by
      have hlog := log_value hhigh
      have hpos : 0 < |high.value| := abs_pos.mpr fun hzero => hhigh (value_eq_zero.mp hzero)
      refine le_trans (zpow_le_zpow_right₀ (by norm_num) ?_) (HalfEven.pow_log_le hpos)
      omega
    obtain ⟨n, hn⟩ : ∃ n : ℤ, high.value = n * 10 ^ (e + 1) := by
      refine ⟨high.signed * 10 ^ (high.exponent - e - 1).toNat, ?_⟩
      have hsplit : (10 : ℚ) ^ high.exponent = 10 ^ (high.exponent - e - 1) * 10 ^ (e + 1) := by
        rw [← zpow_add₀ (by norm_num)]
        congr 1
        omega
      push_cast
      rw [← zpow_natCast, Int.toNat_of_nonneg (by omega), value, hsplit]
      ring
    have hsmall : |low.value| < 10 ^ e := below_iff.mp (.inr (by omega))
    have hlowpos : 0 < |low.value| := abs_pos.mpr fun hzero => hlow (value_eq_zero.mp hzero)
    have hpow : (0 : ℚ) < 10 ^ e := by positivity
    have hsticky : value ⟨low.negative, 1, e⟩ = (if low.negative then -1 else 1) * 10 ^ e := by
      rw [value_mk, Nat.cast_one, one_mul]
    rw [value_sign low, hsticky]
    cases low.negative with
    | false =>
      change roundedTo prec (high.value + 1 * _) = roundedTo prec (high.value + 1 * _)
      rw [one_mul, one_mul]
      exact roundedTo_beside hprec hn hlarge hpow le_rfl hlowpos hsmall.le
    | true =>
      change roundedTo prec (high.value + -1 * _) = roundedTo prec (high.value + -1 * _)
      have hneg : -high.value = (-n : ℤ) * 10 ^ (e + 1) := by
        rw [hn]
        push_cast
        ring
      rw [← abs_neg] at hlarge
      have hbeside := roundedTo_beside hprec hneg hlarge hpow le_rfl hlowpos hsmall.le
      have hflip : ∀ t : ℚ, roundedTo prec (high.value + -1 * t) =
          -roundedTo prec (-high.value + t) := by
        intro t
        rw [← roundedTo_neg]
        congr 1
        ring
      rw [hflip, hflip, hbeside]
  · rfl

theorem roundedTo_rawSum (hprec : 0 < prec) (a b : Decimal) :
    roundedTo prec (rawSum prec a b).value = roundedTo prec (a.value + b.value) := by
  unfold rawSum
  dsimp only
  split
  · next hzero =>
    rw [value_eq_zero.mpr hzero.1, value_eq_zero.mpr hzero.2, add_zero]
    exact congrArg _ (value_eq_zero.mpr rfl)
  split
  · next hzero =>
    rw [value_eq_zero.mpr hzero, zero_add, value_rescaled (by omega)]
  split
  · next hzero =>
    rw [value_eq_zero.mpr hzero, add_zero, value_rescaled (by omega)]
  next hane hbne =>
  split
  · rw [value_exactSum, add_comm, roundedTo_shrunk hprec hbne hane, add_comm]
  · rw [value_exactSum, roundedTo_shrunk hprec hane hbne]

theorem value_trimZeros (negative : Bool) (fuel coefficient : Nat) (exponent ideal : Int) :
    value ⟨negative, (trimZeros fuel coefficient exponent ideal).1,
      (trimZeros fuel coefficient exponent ideal).2⟩ = value ⟨negative, coefficient, exponent⟩ := by
  induction fuel generalizing coefficient exponent with
  | zero => rfl
  | succ fuel ih =>
    unfold trimZeros
    split
    · next hdivides =>
      rw [ih, value_mk, value_mk, zpow_add_one₀ (by norm_num)]
      have htenth : coefficient / 10 * 10 = coefficient := by omega
      have hcast : ((coefficient / 10 : ℕ) : ℚ) * 10 = coefficient := by exact_mod_cast htenth
      rw [← hcast]
      ring
    · rfl

private theorem roundedTo_sticky (hprec : 0 < prec) {dividend divisor : Nat} {e : Int}
    (hmany : 10 ^ prec ≤ dividend / divisor) (hinexact : dividend % divisor ≠ 0) :
    roundedTo prec (((if dividend / divisor % 5 = 0 then dividend / divisor + 1
      else dividend / divisor : ℕ) : ℚ) * 10 ^ e) =
      roundedTo prec ((dividend : ℚ) / divisor * 10 ^ e) := by
  have hdivisor : 0 < divisor := by
    by_contra hzero
    have hnone : divisor = 0 := by omega
    rw [hnone, Nat.div_zero] at hmany
    exact absurd hmany (Nat.not_le.mpr (by positivity))
  have hdiv := Nat.div_add_mod dividend divisor
  have hlt := Nat.mod_lt dividend hdivisor
  generalize dividend / divisor = q at hmany hdiv ⊢
  generalize dividend % divisor = r at hinexact hdiv hlt
  have hdivisor' : (0 : ℚ) < divisor := by exact_mod_cast hdivisor
  have hpow : (0 : ℚ) < 10 ^ e := by positivity
  have hlow : (q : ℚ) < dividend / divisor := by
    rw [lt_div_iff₀ hdivisor']
    have hless : q * divisor < dividend := by
      rw [Nat.mul_comm]
      omega
    exact_mod_cast hless
  have hhigh : (dividend : ℚ) / divisor < q + 1 := by
    rw [div_lt_iff₀ hdivisor']
    have hless : dividend < (q + 1) * divisor := by
      rw [Nat.add_mul, Nat.one_mul, Nat.mul_comm]
      omega
    exact_mod_cast hless
  have hplace : ∀ x : ℚ, (q : ℚ) ≤ x →
      e + 1 ≤ HalfEven.lastPlace prec (eTiny prec) (x * 10 ^ e) := by
    intro x hx
    have hreach : (10 : ℚ) ^ ((prec : ℤ) + e) ≤ |x * 10 ^ e| := by
      have hmany' : (10 : ℚ) ^ prec ≤ q := by exact_mod_cast hmany
      rw [zpow_add₀ (by norm_num), zpow_natCast, abs_mul, abs_of_pos hpow]
      exact mul_le_mul_of_nonneg_right ((hmany'.trans hx).trans (le_abs_self x)) hpow.le
    have hpos : (0 : ℚ) < |x * 10 ^ e| := lt_of_lt_of_le (by positivity) hreach
    have hlog : (prec : ℤ) + e ≤ Int.log 10 |x * 10 ^ e| := by
      refine (Int.zpow_le_iff_le_log (by norm_num) hpos).mp ?_
      exact_mod_cast hreach
    unfold HalfEven.lastPlace
    omega
  -- both lie between the neighbouring fives of the last digit
  have hfives : ∀ x : ℚ, ((5 * (q / 5) : ℕ) : ℚ) < x → x < ((5 * (q / 5) + 5 : ℕ) : ℚ) →
      (((q / 5 : ℕ) : ℤ) : ℚ) * (5 * 10 ^ e) < x * 10 ^ e ∧
        x * 10 ^ e < (((q / 5 : ℕ) : ℤ) + 1) * (5 * 10 ^ e) := by
    intro x hxlow hxhigh
    rw [Int.cast_natCast]
    push_cast at hxlow hxhigh
    constructor
    · have hless := mul_lt_mul_of_pos_right hxlow hpow
      linarith
    · have hless := mul_lt_mul_of_pos_right hxhigh hpow
      linarith
  have hexact : ((5 * (q / 5) : ℕ) : ℚ) < dividend / divisor ∧
      (dividend : ℚ) / divisor < ((5 * (q / 5) + 5 : ℕ) : ℚ) := by
    have hbelow : ((5 * (q / 5) : ℕ) : ℚ) ≤ q := by exact_mod_cast (by omega : 5 * (q / 5) ≤ q)
    have habove : ((q + 1 : ℕ) : ℚ) ≤ ((5 * (q / 5) + 5 : ℕ) : ℚ) := by
      exact_mod_cast (by omega : q + 1 ≤ 5 * (q / 5) + 5)
    push_cast at habove hbelow ⊢
    constructor <;> linarith
  generalize hsticky : (if q % 5 = 0 then q + 1 else q) = s
  have hside : 5 * (q / 5) < s ∧ s < 5 * (q / 5) + 5 ∧ q ≤ s := by
    rw [← hsticky]
    split <;> omega
  have hs := hfives s (by exact_mod_cast hside.1) (by exact_mod_cast hside.2.1)
  have hx := hfives _ hexact.1 hexact.2
  exact HalfEven.rounded_of_halves hprec (hplace s (by exact_mod_cast hside.2.2))
    (hplace _ hlow.le) hs.1 hs.2 hx.1 hx.2

theorem roundedTo_rawQuotient (hprec : 0 < prec) {a : Decimal} (hb : b.coefficient ≠ 0) :
    roundedTo prec (rawQuotient prec a b).value = roundedTo prec (a.value / b.value) := by
  unfold rawQuotient
  dsimp only
  split
  · next hzero =>
    rw [value_eq_zero.mpr hzero, zero_div]
    exact congrArg _ (value_eq_zero.mpr rfl)
  · next ha =>
    generalize hshift : (digits b.coefficient : Int) - digits a.coefficient + prec + 1 = shift
    generalize hexponent : a.exponent - b.exponent - shift = e
    have hsign : a.value / b.value =
        (if (a.negative ^^ b.negative) = true then -1 else 1) * (|a.value| / |b.value|) := by
      nth_rewrite 1 [value_sign a, value_sign b]
      cases a.negative <;> cases b.negative <;> simp [div_neg, neg_div]
    have hdigits := digits_pos a.coefficient
    have hdivisor : 0 < b.coefficient * 10 ^ (-shift).toNat := by positivity
    have hquotient : |a.value| / |b.value| = ((a.coefficient * 10 ^ shift.toNat : ℕ) : ℚ) /
        (b.coefficient * 10 ^ (-shift).toNat : ℕ) * 10 ^ e := by
      have hb' : (b.coefficient : ℚ) ≠ 0 := by exact_mod_cast hb
      have hpow : (10 : ℚ) ^ a.exponent * 10 ^ (-shift).toNat =
          10 ^ shift.toNat * 10 ^ e * 10 ^ b.exponent := by
        rw [← zpow_natCast, ← zpow_natCast, ← zpow_add₀ (by norm_num), ← zpow_add₀ (by norm_num),
          ← zpow_add₀ (by norm_num)]
        congr 1
        omega
      rw [abs_value, abs_value, div_mul_eq_mul_div, div_eq_div_iff (by positivity) (by positivity)]
      push_cast
      calc (a.coefficient : ℚ) * 10 ^ a.exponent * (b.coefficient * 10 ^ (-shift).toNat)
          = a.coefficient * b.coefficient * (10 ^ a.exponent * 10 ^ (-shift).toNat) := by ring
        _ = a.coefficient * 10 ^ shift.toNat * 10 ^ e * (b.coefficient * 10 ^ b.exponent) := by
          rw [hpow]
          ring
    have hmany : 10 ^ prec ≤ a.coefficient * 10 ^ shift.toNat /
        (b.coefficient * 10 ^ (-shift).toNat) := by
      rw [Nat.le_div_iff_mul_le hdivisor]
      have hbelow := (digits_le_iff (digits_pos b.coefficient)).mp (le_refl _)
      calc 10 ^ prec * (b.coefficient * 10 ^ (-shift).toNat)
          ≤ 10 ^ prec * (10 ^ digits b.coefficient * 10 ^ (-shift).toNat) := by gcongr
        _ = 10 ^ (digits a.coefficient - 1) * 10 ^ shift.toNat := by
          rw [← pow_add, ← pow_add, ← pow_add]
          congr 1
          omega
        _ ≤ a.coefficient * 10 ^ shift.toNat := by
          gcongr
          exact le_of_digits ha
    generalize a.coefficient * 10 ^ shift.toNat = dividend at hquotient hmany ⊢
    generalize b.coefficient * 10 ^ (-shift).toNat = divisor at hquotient hmany hdivisor ⊢
    have habs : ∀ (negative : Bool) (q : ℕ), roundedTo prec ((q : ℚ) * 10 ^ e) =
        roundedTo prec (|a.value| / |b.value|) → roundedTo prec (value ⟨negative, q, e⟩) =
          roundedTo prec ((if negative then -1 else 1) * (|a.value| / |b.value|)) := by
      intro negative q heq
      rw [value_mk]
      cases negative with
      | false =>
        change roundedTo prec (1 * _) = roundedTo prec (1 * _)
        rw [one_mul, one_mul, heq]
      | true =>
        change roundedTo prec (-1 * _) = roundedTo prec (-1 * _)
        rw [neg_one_mul, neg_one_mul, roundedTo_neg, roundedTo_neg, heq]
    rw [hsign]
    split
    · next hinexact =>
      apply habs
      rw [hquotient, roundedTo_sticky hprec hmany hinexact]
    · next hexact =>
      rw [value_trimZeros]
      apply habs
      have hwhole : ((dividend / divisor : ℕ) : ℚ) = dividend / divisor :=
        Nat.cast_div (Nat.dvd_of_mod_eq_zero (not_not.mp hexact)) (by exact_mod_cast hdivisor.ne')
      rw [hquotient, hwhole]

section Operations

variable {prec : Nat} {a b r : Decimal}

theorem value_add (hprec : 0 < prec) (h : add prec a b = .ok r) :
    r.value = roundedTo prec (a.value + b.value) := by
  rw [value_finish hprec h, roundedTo_rawSum hprec]

theorem value_product (a b : Decimal) : value ⟨a.negative ^^ b.negative,
    a.coefficient * b.coefficient, a.exponent + b.exponent⟩ = a.value * b.value := by
  rw [value_mk, value_sign a, value_sign b, abs_value, abs_value, zpow_add₀ (by norm_num)]
  push_cast
  cases a.negative <;> cases b.negative <;> simp <;> ring

theorem value_mul (hprec : 0 < prec) (h : mul prec a b = .ok r) :
    r.value = roundedTo prec (a.value * b.value) := by
  rw [value_finish hprec h, value_product]

theorem value_div (hprec : 0 < prec) (h : div prec a b = .ok r) :
    r.value = roundedTo prec (a.value / b.value) := by
  unfold div at h
  split at h
  · cases h
  · next hb => rw [value_finish hprec h, roundedTo_rawQuotient hprec hb]

theorem roundedTo_finish (hprec : 0 < prec) {d : Decimal} (h : finish .halfEven prec d = .ok r) :
    roundedTo prec r.value = r.value := by
  rw [value_finish hprec h]
  exact HalfEven.rounded_rounded hprec

theorem roundedTo_add (hprec : 0 < prec) (h : add prec a b = .ok r) :
    roundedTo prec r.value = r.value := roundedTo_finish hprec h

end Operations

theorem finish_error {mode : Rounding} {prec : Nat} {d : Decimal} {e : Error}
    (h : finish mode prec d = .error e) : e = signal "Overflow" := by
  unfold finish at h
  split at h
  · cases h
  dsimp only at h
  split at h
  · exact (Except.error.inj h).symm
  split at h
  · split at h
    · dsimp only at h
      split at h
      · exact (Except.error.inj h).symm
      · cases h
    · dsimp only at h
      split at h
      · exact (Except.error.inj h).symm
      · cases h
  · cases h

/-- Nothing stops a computation but a number that is too large. -/
def OnlyOverflows {α : Type} (x : Except Error α) : Prop :=
  ∀ e, x = .error e → e = signal "Overflow"

namespace OnlyOverflows

variable {α β : Type}

theorem ok (a : α) : OnlyOverflows (.ok a) := fun _ h => by cases h

theorem of_ok {x : Except Error α} (h : ∃ a, x = .ok a) : OnlyOverflows x := by
  obtain ⟨a, rfl⟩ := h
  exact ok a

theorem bind {x : Except Error α} {f : α → Except Error β} (hx : OnlyOverflows x)
    (hf : ∀ a, x = .ok a → OnlyOverflows (f a)) : OnlyOverflows (x >>= f) := by
  intro e h
  rcases bind_eq_error.mp h with hfirst | ⟨a, ha, hsecond⟩
  · exact hx e hfirst
  · exact hf a ha e hsecond

theorem map {x : Except Error α} (f : α → β) (hx : OnlyOverflows x) : OnlyOverflows (x.map f) := by
  intro e h
  exact hx e (map_eq_error.mp h)

theorem foldlM {f : β → α → Except Error β} (hf : ∀ b a, OnlyOverflows (f b a)) (as : List α)
    (b : β) : OnlyOverflows (as.foldlM f b) := by
  induction as generalizing b with
  | nil => exact ok b
  | cons a as ih =>
    rw [List.foldlM_cons]
    exact (hf b a).bind fun b' _ => ih b'

theorem mapM {f : α → Except Error β} (hf : ∀ a, OnlyOverflows (f a)) (as : List α) :
    OnlyOverflows (as.mapM f) := by
  induction as with
  | nil => exact ok []
  | cons a as ih =>
    rw [List.mapM_cons]
    exact (hf a).bind fun b _ => ih.bind fun bs _ => ok _

end OnlyOverflows

theorem onlyOverflows_add (prec : Nat) (a b : Decimal) : OnlyOverflows (add prec a b) :=
  fun _ => finish_error

theorem onlyOverflows_sub (prec : Nat) (a b : Decimal) : OnlyOverflows (sub prec a b) :=
  fun _ => finish_error

theorem onlyOverflows_mul (prec : Nat) (a b : Decimal) : OnlyOverflows (mul prec a b) :=
  fun _ => finish_error

theorem onlyOverflows_div (prec : Nat) (a : Decimal) (hb : b.coefficient ≠ 0) :
    OnlyOverflows (div prec a b) := by
  intro e h
  unfold div at h
  rw [if_neg hb] at h
  exact finish_error h

theorem onlyOverflows_sum (prec : Nat) (ds : List Decimal) : OnlyOverflows (sum prec ds) :=
  OnlyOverflows.foldlM (onlyOverflows_add prec) ds zero

theorem foldlM_add_le_of_sublist (hprec : 0 < prec) {part all : List Decimal}
    (hsub : part.Sublist all) (hall : ∀ d ∈ all, 0 ≤ d.value) {x y s t : Decimal} (hx : 0 ≤ x.value)
    (hxy : x.value ≤ y.value) (hkept : roundedTo prec y.value = y.value)
    (hs : part.foldlM (add prec) x = .ok s) (ht : all.foldlM (add prec) y = .ok t) :
    0 ≤ s.value ∧ s.value ≤ t.value := by
  induction hsub generalizing x y with
  | slnil =>
    cases hs
    cases ht
    exact ⟨hx, hxy⟩
  | cons d hsub ih =>
    rw [List.foldlM_cons] at ht
    obtain ⟨y', hadd, ht⟩ := bind_eq_ok.mp ht
    have hd := hall d List.mem_cons_self
    have hyy' : y.value ≤ y'.value := by
      rw [value_add hprec hadd]
      calc y.value = roundedTo prec y.value := hkept.symm
        _ ≤ roundedTo prec (y.value + d.value) := roundedTo_mono hprec (by linarith)
    exact ih (fun d' hd' => hall d' (List.mem_cons_of_mem _ hd')) hx (hxy.trans hyy')
      (roundedTo_add hprec hadd) hs ht
  | cons_cons d hsub ih =>
    rw [List.foldlM_cons] at hs ht
    obtain ⟨x', haddx, hs⟩ := bind_eq_ok.mp hs
    obtain ⟨y', haddy, ht⟩ := bind_eq_ok.mp ht
    have hd := hall d List.mem_cons_self
    have hx' : 0 ≤ x'.value := by
      rw [value_add hprec haddx, ← roundedTo_zero prec]
      exact roundedTo_mono hprec (by linarith)
    have hxy' : x'.value ≤ y'.value := by
      rw [value_add hprec haddx, value_add hprec haddy]
      exact roundedTo_mono hprec (by linarith)
    exact ih (fun d' hd' => hall d' (List.mem_cons_of_mem _ hd')) hx' hxy'
      (roundedTo_add hprec haddy) hs ht

theorem sum_le_of_sublist (hprec : 0 < prec) {part all : List Decimal} (hsub : part.Sublist all)
    (hall : ∀ d ∈ all, 0 ≤ d.value) {s t : Decimal} (hs : sum prec part = .ok s)
    (ht : sum prec all = .ok t) : 0 ≤ s.value ∧ s.value ≤ t.value :=
  foldlM_add_le_of_sublist hprec hsub hall (by simp) le_rfl (by simp) hs ht

theorem div_between (hprec : 0 < prec) {a r : Decimal} (h : div prec a b = .ok r) (ha : 0 ≤ a.value)
    (hab : a.value ≤ b.value) : 0 ≤ r.value ∧ r.value ≤ 1 := by
  rw [value_div hprec h]
  have hb := ha.trans hab
  constructor
  · rw [← roundedTo_zero prec]
    exact roundedTo_mono hprec (div_nonneg ha hb)
  · rw [← roundedTo_one hprec]
    exact roundedTo_mono hprec (div_le_one_of_le₀ hab hb)

theorem value_div_self (hprec : 0 < prec) {a r : Decimal} (h : div prec a a = .ok r)
    (ha : 0 < a.value) : r.value = 1 := by
  rw [value_div hprec h, div_self ha.ne', roundedTo_one hprec]

end Dayjaview.Decimal
