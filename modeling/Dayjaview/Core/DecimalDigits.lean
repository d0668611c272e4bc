import Dayjaview.Core.DecimalRounding
import Mathlib.Data.List.TakeWhile

/-!
# Digits of any script

A text of decimal digits of any script has a value, with or without a point. A decimal number is
made from such a text exactly.
-/

namespace Dayjaview

/-- The character is a decimal digit of some script. -/
def isDecimal (c : Char) : Bool := (decimalValue c).isSome

def digitsValue (cs : List Char) : Nat := cs.foldl (fun n c => 10 * n + (decimalValue c).getD 0) 0

/-- A code point is that of a blank. -/
private def spaceCode (n : Nat) : Bool :=
  (9 ≤ n && n ≤ 13) || (0x1C ≤ n && n ≤ 0x20) || n == 0x85 || n == 0xA0 || n == 0x1680 ||
    (0x2000 ≤ n && n ≤ 0x200A) || n == 0x2028 || n == 0x2029 || n == 0x202F ||
    n == 0x205F || n == 0x3000

private theorem spaceCode_digits : ∀ z ∈ digitZeros, ∀ k < 10, spaceCode (z + k) = false := by
  decide +kernel

private theorem large_digitZeros : ∀ z ∈ digitZeros, 128 ≤ z := by decide

variable {c : Char}

theorem isDecimal_cases (h : isDecimal c = true) :
    c.isDigit = true ∨ ∃ z ∈ digitZeros, ∃ k < 10, c.toNat = z + k := by
  unfold isDecimal decimalValue at h
  split at h
  · next hdigit => exact .inl hdigit
  · rw [Option.isSome_map] at h
    obtain ⟨z, hz⟩ := Option.isSome_iff_exists.mp h
    have hrange := List.find?_some hz
    simp only [Bool.and_eq_true, decide_eq_true_eq] at hrange
    exact .inr ⟨z, List.mem_of_find?_eq_some hz, c.toNat - z, by omega, by omega⟩

theorem isSpace_of_isDecimal (h : isDecimal c = true) : isSpace c = false := by
  rcases isDecimal_cases h with hdigit | ⟨z, hz, k, hk, hc⟩
  · exact isSpace_of_isDigit hdigit
  · show spaceCode c.toNat = false
    rw [hc]
    exact spaceCode_digits z hz k hk

theorem decimalValue_lt {n : Nat} (h : decimalValue c = some n) : n < 10 := by
  unfold decimalValue at h
  split at h
  · next hdigit =>
    cases h
    have hd : 48 ≤ c.toNat ∧ c.toNat ≤ 57 := by
      simpa [Char.isDigit, UInt32.le_iff_toNat_le] using hdigit
    have hzero : '0'.toNat = 48 := rfl
    omega
  · obtain ⟨z, hz, rfl⟩ := Option.map_eq_some_iff.mp h
    have hrange := List.find?_some hz
    simp only [Bool.and_eq_true, decide_eq_true_eq] at hrange
    omega

theorem ne_of_isDecimal {d : Char} (h : isDecimal c = true) (hd : d.toNat < 128)
    (hdigit : d.isDigit = false) : c ≠ d := by
  rintro rfl
  rcases isDecimal_cases h with hc | ⟨z, hz, k, -, hc⟩
  · rw [hdigit] at hc
    cases hc
  · have hlarge := large_digitZeros z hz
    omega

theorem asciiDigit_of_isDecimal (h : isDecimal c = true) :
    (Decimal.asciiDigit c).isDigit = true ∧
      (Decimal.asciiDigit c).toNat - '0'.toNat = (decimalValue c).getD 0 := by
  obtain ⟨n, hn⟩ := Option.isSome_iff_exists.mp h
  have hlt := decimalValue_lt hn
  unfold Decimal.asciiDigit
  rw [hn]
  exact ⟨by simp [Nat.isDigit_digitChar, hlt], Nat.toNat_digitChar_sub_48_of_lt_ten hlt⟩

theorem ofDigitChars_asciiDigit {cs : List Char} (h : ∀ c ∈ cs, isDecimal c = true) :
    Nat.ofDigitChars 10 (cs.map Decimal.asciiDigit) 0 = digitsValue cs := by
  unfold digitsValue
  suffices hall : ∀ acc, Nat.ofDigitChars 10 (cs.map Decimal.asciiDigit) acc =
      cs.foldl (fun n c => 10 * n + (decimalValue c).getD 0) acc from hall 0
  induction cs with
  | nil => intro acc; simp
  | cons c cs ih =>
    intro acc
    rw [List.map_cons, Nat.ofDigitChars_cons, (asciiDigit_of_isDecimal (h c List.mem_cons_self)).2]
    exact ih (fun d hd => h d (List.mem_cons_of_mem _ hd)) _

/-- The part behind a point, with the point if there is one. -/
def pointed : List Char → List Char
  | [] => []
  | c :: cs => '.' :: c :: cs

theorem ofStr_digits {ints fracs : List Char} (hne : ints ≠ [])
    (hints : ∀ c ∈ ints, isDecimal c = true) (hfracs : ∀ c ∈ fracs, isDecimal c = true) :
    Decimal.ofStr (String.ofList (ints ++ pointed fracs)) =
      some (.finite ⟨false, digitsValue (ints ++ fracs), -(fracs.length : ℤ)⟩) := by
  have hchars : ∀ c ∈ ints ++ pointed fracs, isDecimal c = true ∨ c = '.' := by
    intro c hc
    rcases List.mem_append.mp hc with hc | hc
    · exact .inl (hints c hc)
    · cases fracs with
      | nil => cases hc
      | cons d ds =>
        rcases List.mem_cons.mp hc with hc | hc
        · exact .inr hc
        · exact .inl (hfracs c hc)
  have hstrip : stripChars (ints ++ pointed fracs) = ints ++ pointed fracs := by
    refine stripChars_eq_self fun c hc => ?_
    rcases hchars c hc with hc | rfl
    · exact isSpace_of_isDecimal hc
    · decide
  have hfilter : (ints ++ pointed fracs).filter (· != '_') = ints ++ pointed fracs := by
    refine List.filter_eq_self.mpr fun c hc => ?_
    rcases hchars c hc with hc | rfl
    · simpa using ne_of_isDecimal hc (by decide) (by decide)
    · decide
  have hdigits : ∀ cs : List Char, (∀ c ∈ cs, isDecimal c = true) →
      ∀ c ∈ cs.map Decimal.asciiDigit, c.isDigit = true := by
    intro cs h c hc
    obtain ⟨d, hd, rfl⟩ := List.mem_map.mp hc
    exact (asciiDigit_of_isDecimal (h d hd)).1
  have hmap : (ints ++ pointed fracs).map Decimal.asciiDigit =
      ints.map Decimal.asciiDigit ++ pointed (fracs.map Decimal.asciiDigit) := by
    rw [List.map_append]
    cases fracs with
    | nil => rfl
    | cons d ds => rfl
  have hintsDigits := hdigits ints hints
  have hfracsDigits := hdigits fracs hfracs
  have hvalue :
      Nat.ofDigitChars 10 (ints.map Decimal.asciiDigit ++ fracs.map Decimal.asciiDigit) 0 =
      digitsValue (ints ++ fracs) := by
    rw [← List.map_append]
    exact ofDigitChars_asciiDigit fun c hc => (List.mem_append.mp hc).elim (hints c) (hfracs c)
  have hlength : (fracs.map Decimal.asciiDigit).length = fracs.length := List.length_map _
  have hintsNe : ints.map Decimal.asciiDigit ≠ [] := by simpa using hne
  generalize ints.map Decimal.asciiDigit = is at hmap hintsDigits hvalue hintsNe
  generalize fracs.map Decimal.asciiDigit = fs at hmap hfracsDigits hvalue hlength
  have hread : Decimal.readUnsigned (is ++ pointed fs) =
      some (digitsValue (ints ++ fracs), -(fracs.length : ℤ)) := by
    have hhead : NoDigitHead (pointed fs) := by
      cases fs with
      | nil => intro c hc; cases hc
      | cons d ds =>
        rintro c ⟨⟩
        decide
    have htake := takeWhile_isDigit_append hintsDigits hhead
    have hdrop : (is ++ pointed fs).dropWhile Char.isDigit = pointed fs := by
      have hsplit := List.takeWhile_append_dropWhile (p := Char.isDigit) (l := is ++ pointed fs)
      rw [htake] at hsplit
      exact List.append_cancel_left hsplit
    have hfraction : Decimal.readFraction (pointed fs) = (fs, []) := by
      cases fs with
      | nil => rfl
      | cons d ds =>
        have hall : (d :: ds).takeWhile Char.isDigit = d :: ds :=
          List.takeWhile_eq_self_iff.mpr hfracsDigits
        have hnone : (d :: ds).dropWhile Char.isDigit = [] :=
          List.dropWhile_eq_nil_iff.mpr hfracsDigits
        show ((d :: ds).takeWhile Char.isDigit, (d :: ds).dropWhile Char.isDigit) = _
        rw [hall, hnone]
    unfold Decimal.readUnsigned
    dsimp only
    rw [htake, hdrop, hfraction]
    dsimp only
    rw [if_neg (by simp [hintsNe]), hvalue, hlength]
    simp [Decimal.readExponent]
  unfold Decimal.ofStr
  rw [String.toList_ofList, hstrip, hfilter, hmap]
  cases is with
  | nil => exact absurd rfl hintsNe
  | cons c cs =>
    have hc := hintsDigits c List.mem_cons_self
    have hminus : c ≠ '-' := by rintro rfl; exact absurd hc (by decide)
    have hplus : c ≠ '+' := by rintro rfl; exact absurd hc (by decide)
    split
    · next heq => exact absurd (List.cons.inj heq).1 hminus
    · next heq => exact absurd (List.cons.inj heq).1 hplus
    · rw [Decimal.readLiteral, hread]

end Dayjaview
