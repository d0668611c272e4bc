import Dayjaview.Core.Arithmetic
import Mathlib.Data.Rat.Floor

/-!
# Numbers without an exponent

A number is rounded to a power of ten, or written out with all its zeros. What is
written out alike has the same value. The share of a count in a total is computed in
double precision and written with one digit behind the point.
-/

namespace Dayjaview.Decimal

/-- The number rounded to a power of ten. -/
def quantize (mode : Rounding) (prec : Nat) (d : Decimal) (exponent : Int) : Except Error Decimal :=
  if d.coefficient = 0 then .ok ⟨d.negative, 0, exponent⟩
  else if (prec : Int) < digits d.coefficient + d.exponent - exponent then
    .error (signal "InvalidOperation")
  else
    let coefficient :=
      if exponent ≤ d.exponent then d.coefficient * 10 ^ (d.exponent - exponent).toNat
      else roundedQuotient mode d.negative d.coefficient (exponent - d.exponent).toNat
    if prec < digits coefficient then .error (signal "InvalidOperation")
    else .ok ⟨d.negative, coefficient, exponent⟩

/-- The digits of a number without an exponent, and those behind the point. -/
def fixedParts (d : Decimal) : List Char × List Char :=
  let ds := natText d.coefficient
  if 0 ≤ d.exponent then
    (if d.coefficient = 0 then ['0'] else ds ++ List.replicate d.exponent.toNat '0', [])
  else
    let places := (-d.exponent).toNat
    if ds.length ≤ places then (['0'], List.replicate (places - ds.length) '0' ++ ds)
    else (ds.take (ds.length - places), ds.drop (ds.length - places))

/-- The number written without an exponent. -/
def fixedText (d : Decimal) : String :=
  String.ofList ((if d.negative then ['-'] else []) ++ d.fixedParts.1 ++
    fractionChars d.fixedParts.2)

theorem ofDigitChars_append_zeros (ds : List Char) (n acc : Nat) :
    Nat.ofDigitChars 10 (ds ++ List.replicate n '0') acc = Nat.ofDigitChars 10 ds acc * 10 ^ n := by
  rw [Nat.ofDigitChars_append, Nat.ofDigitChars_replicate_zero, Nat.mul_comm]

theorem fixedParts_spec (d : Decimal) :
    Nat.ofDigitChars 10 (d.fixedParts.1 ++ d.fixedParts.2) 0 =
        d.coefficient * 10 ^ (d.exponent + d.fixedParts.2.length).toNat ∧
      0 ≤ d.exponent + d.fixedParts.2.length ∧
      (∀ c ∈ d.fixedParts.1 ++ d.fixedParts.2, c.isDigit = true) := by
  have hdigits : ∀ c ∈ natText d.coefficient, c.isDigit = true := fun _ => isDigit_of_mem_natText
  have hzeros : ∀ (n : Nat), ∀ c ∈ List.replicate n '0', c.isDigit = true := by
    intro n c hc
    rw [List.eq_of_mem_replicate hc]
    decide
  have hvalue := ofDigitChars_natText d.coefficient
  unfold fixedParts
  dsimp only
  split
  · next hwhole =>
    split
    · next hzero =>
      rw [hzero]
      refine ⟨by simp [Nat.ofDigitChars_cons], by simpa using hwhole, ?_⟩
      intro c hc
      obtain rfl : c = '0' := by simpa using hc
      decide
    · refine ⟨?_, by simpa using hwhole, ?_⟩
      · rw [List.append_nil, ofDigitChars_append_zeros, hvalue]
        simp
      · intro c hc
        rw [List.append_nil] at hc
        rcases List.mem_append.mp hc with hc | hc
        · exact hdigits c hc
        · exact hzeros _ c hc
  · next hneg =>
    split
    · next hshort =>
      have hlen : (List.replicate ((-d.exponent).toNat - (natText d.coefficient).length) '0' ++
          natText d.coefficient).length = (-d.exponent).toNat := by
        rw [List.length_append, List.length_replicate]
        omega
      dsimp only
      rw [hlen]
      refine ⟨?_, by omega, ?_⟩
      · have hcons : ['0'] ++ (List.replicate ((-d.exponent).toNat - (natText d.coefficient).length)
            '0' ++ natText d.coefficient) = List.replicate ((-d.exponent).toNat -
              (natText d.coefficient).length + 1) '0' ++ natText d.coefficient := by
          rw [List.replicate_succ]
          rfl
        have hexp : (d.exponent + ((-d.exponent).toNat : Int)).toNat = 0 := by omega
        rw [hcons, Nat.ofDigitChars_append, Nat.ofDigitChars_replicate_zero, Nat.mul_zero, hvalue,
          hexp, pow_zero, mul_one]
      · intro c hc
        rcases List.mem_append.mp hc with hc | hc
        · obtain rfl : c = '0' := by simpa using hc
          decide
        · rcases List.mem_append.mp hc with hc | hc
          · exact hzeros _ c hc
          · exact hdigits c hc
    · next hlong =>
      have hlen : ((natText d.coefficient).drop
          ((natText d.coefficient).length - (-d.exponent).toNat)).length = (-d.exponent).toNat := by
        rw [List.length_drop]
        omega
      dsimp only
      rw [hlen, List.take_append_drop, hvalue]
      have hexp : (d.exponent + ((-d.exponent).toNat : Int)).toNat = 0 := by omega
      refine ⟨by rw [hexp, pow_zero, mul_one], by omega, hdigits⟩

def value (d : Decimal) : ℚ := d.signed * 10 ^ d.exponent

theorem scaled_value {d : Decimal} {e : Int} (h : e ≤ d.exponent) :
    (d.scaled e : ℚ) = d.value / 10 ^ e := by
  have hexp : (10 : ℚ) ^ (d.exponent - e).toNat = 10 ^ (d.exponent - e) := by
    rw [← zpow_natCast, Int.toNat_of_nonneg (by omega)]
  rw [scaled, value, Int.cast_mul, Int.cast_pow, Int.cast_ofNat, hexp, zpow_sub₀ (by norm_num),
    mul_div_assoc]

theorem le_iff_value {a b : Decimal} : a ≤ b ↔ a.value ≤ b.value := by
  have hpos : (0 : ℚ) < 10 ^ min a.exponent b.exponent := by positivity
  have hscaled : a ≤ b ↔ (a.scaled (min a.exponent b.exponent) : ℚ) ≤
      b.scaled (min a.exponent b.exponent) := Int.cast_le.symm
  rw [hscaled, scaled_value (min_le_left _ _), scaled_value (min_le_right _ _),
    div_le_div_iff_of_pos_right hpos]

theorem lt_iff_value {a b : Decimal} : a < b ↔ a.value < b.value := by
  have hpos : (0 : ℚ) < 10 ^ min a.exponent b.exponent := by positivity
  have hscaled : a < b ↔ (a.scaled (min a.exponent b.exponent) : ℚ) <
      b.scaled (min a.exponent b.exponent) := Int.cast_lt.symm
  rw [hscaled, scaled_value (min_le_left _ _), scaled_value (min_le_right _ _),
    div_lt_div_iff_of_pos_right hpos]

theorem value_eq_fixedParts (d : Decimal) :
    d.value = (if d.negative then -1 else 1) *
      (Nat.ofDigitChars 10 (d.fixedParts.1 ++ d.fixedParts.2) 0 : ℚ) *
        10 ^ (-(d.fixedParts.2.length : Int)) := by
  obtain ⟨hdigits, hplaces, -⟩ := d.fixedParts_spec
  have hexp : (10 : ℚ) ^ (d.exponent + d.fixedParts.2.length).toNat =
      10 ^ (d.exponent + d.fixedParts.2.length) := by
    rw [← zpow_natCast, Int.toNat_of_nonneg hplaces]
  have hsigned : (d.signed : ℚ) = (if d.negative then -1 else 1) * d.coefficient := by
    unfold signed
    split <;> simp
  rw [hdigits, Nat.cast_mul, Nat.cast_pow, Nat.cast_ofNat, hexp, value, hsigned, mul_assoc,
    mul_assoc, mul_assoc, ← zpow_add₀ (by norm_num)]
  congr 3
  omega

theorem noDigitHead_fractionChars (ds : List Char) : NoDigitHead (fractionChars ds) := by
  unfold fractionChars
  split
  · simp [NoDigitHead]
  · intro c hc
    obtain rfl : c = '.' := by simpa using hc.symm
    decide

theorem fractionChars_injective : Function.Injective fractionChars := by
  intro a b h
  unfold fractionChars at h
  split at h <;> split at h
  · next ha hb => rw [ha, hb]
  · cases h
  · cases h
  · exact (List.cons.inj h).2

theorem value_eq_of_fixedText {a b : Decimal} (h : a.fixedText = b.fixedText) :
    a.value = b.value := by
  have hchars := String.ofList_inj.mp h
  obtain ⟨-, -, ha⟩ := a.fixedParts_spec
  obtain ⟨-, -, hb⟩ := b.fixedParts_spec
  have hnotMinus : ∀ (d : Decimal), (∀ c ∈ d.fixedParts.1 ++ d.fixedParts.2, c.isDigit = true) →
      ∀ cs, d.fixedParts.1 ++ fractionChars d.fixedParts.2 ≠ '-' :: cs := by
    intro d hd cs hcs
    cases hwhole : d.fixedParts.1 with
    | nil =>
      rw [hwhole, List.nil_append] at hcs
      unfold fractionChars at hcs
      split at hcs
      · cases hcs
      · cases hcs
    | cons c rest =>
      rw [hwhole, List.cons_append] at hcs
      have hc := hd c (by simp [hwhole])
      rw [(List.cons.inj hcs).1] at hc
      exact absurd hc (by decide)
  have hparts : a.negative = b.negative ∧ a.fixedParts.1 ++ fractionChars a.fixedParts.2 =
      b.fixedParts.1 ++ fractionChars b.fixedParts.2 := by
    cases hna : a.negative <;> cases hnb : b.negative <;>
      simp only [hna, hnb, if_true, Bool.false_eq_true, if_false, List.nil_append,
        List.cons_append] at hchars
    · exact ⟨rfl, hchars⟩
    · exact absurd hchars (hnotMinus a ha _)
    · exact absurd hchars.symm (hnotMinus b hb _)
    · exact ⟨rfl, (List.cons.inj hchars).2⟩
  have hwhole : a.fixedParts.1 = b.fixedParts.1 := by
    rw [← takeWhile_isDigit_append (fun c hc => ha c (List.mem_append_left _ hc))
      (noDigitHead_fractionChars a.fixedParts.2), hparts.2,
      takeWhile_isDigit_append (fun c hc => hb c (List.mem_append_left _ hc))
      (noDigitHead_fractionChars b.fixedParts.2)]
  have hfraction : a.fixedParts.2 = b.fixedParts.2 := by
    have hrest := hparts.2
    rw [hwhole] at hrest
    exact fractionChars_injective (List.append_cancel_left hrest)
  rw [value_eq_fixedParts a, value_eq_fixedParts b, hparts.1, hwhole, hfraction]

end Dayjaview.Decimal

namespace Dayjaview

/-- A fraction in double precision: 53 binary digits, ties to even, as digits and a power of two. -/
def binaryQuotient (numerator denominator : Nat) : Nat × Int :=
  -- The quotient is scaled to have 53 or 54 digits before it is rounded.
  let shift : Int := 53 + (denominator.log2 : Int) - numerator.log2
  let top := numerator * 2 ^ shift.toNat
  let bottom := denominator * 2 ^ (-shift).toNat
  let extra : Nat := if top / bottom < 2 ^ 53 then 0 else 1
  let unit := bottom * 2 ^ extra
  let q := top / unit
  let r := top % unit
  (if unit < 2 * r ∨ (2 * r = unit ∧ q % 2 = 1) then q + 1 else q, (extra : Int) - shift)

/-- A non-negative number with one digit behind the point, ties to even. -/
def oneDigitText (digits : Nat) (exponent : Int) : String :=
  let top := 10 * digits * 2 ^ exponent.toNat
  let bottom := 2 ^ (-exponent).toNat
  let q := top / bottom
  let r := top % bottom
  let tenths := if bottom < 2 * r ∨ (2 * r = bottom ∧ q % 2 = 1) then q + 1 else q
  String.ofList (natText (tenths / 10) ++ '.' :: natText (tenths % 10))

/-- The share of a count in a total in percent. -/
def shareText (count total : Nat) : String :=
  let (digits, exponent) := binaryQuotient count total
  -- The product with a hundred is rounded again.
  let (digits, exponent) := binaryQuotient (digits * 100 * 2 ^ exponent.toNat)
    (2 ^ (-exponent).toNat)
  oneDigitText digits exponent ++ "%"

example : [shareText 1 3, shareText 2 3, shareText 1 8, shareText 49 400, shareText 1 1] =
    ["33.3%", "66.7%", "12.5%", "12.2%", "100.0%"] := by decide +kernel

end Dayjaview
