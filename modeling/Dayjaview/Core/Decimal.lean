import Dayjaview.Core.Text

/-!
# Decimal numbers and their text

A finite decimal number keeps its sign, its digits and its exponent, so numbers
of equal value can be written differently. The text is that of the built-in
conversion, with an exponent for very small and scaled-up numbers; reading
accepts the full grammar and gives a written number back.
-/

namespace Dayjaview

structure Decimal where
  negative : Bool
  coefficient : Nat
  exponent : Int
  deriving DecidableEq

namespace Decimal

/-- A natural number as a decimal. -/
def ofNat (n : Nat) : Decimal := ⟨false, n, 0⟩

def ofInt (n : Int) : Decimal := ⟨decide (n < 0), n.natAbs, 0⟩

def signed (d : Decimal) : Int := if d.negative then -(d.coefficient : Int) else d.coefficient

/-- The value as a multiple of a power of ten that is not above the exponent. -/
def scaled (d : Decimal) (exponent : Int) : Int :=
  d.signed * 10 ^ (d.exponent - exponent).toNat

instance : LE Decimal :=
  ⟨fun a b => a.scaled (min a.exponent b.exponent) ≤ b.scaled (min a.exponent b.exponent)⟩

instance : LT Decimal :=
  ⟨fun a b => a.scaled (min a.exponent b.exponent) < b.scaled (min a.exponent b.exponent)⟩

instance (a b : Decimal) : Decidable (a ≤ b) :=
  inferInstanceAs (Decidable (Decimal.scaled a _ ≤ Decimal.scaled b _))

instance (a b : Decimal) : Decidable (a < b) :=
  inferInstanceAs (Decidable (Decimal.scaled a _ < Decimal.scaled b _))

def zero : Decimal := ofNat 0

/-- A signed number, the plus written out. -/
def signedChars (n : Int) : List Char :=
  (if n < 0 then '-' else '+') :: natText n.natAbs

/-- The exponent of the written form, left out when it is zero. -/
def exponentChars (n : Int) : List Char := if n = 0 then [] else 'E' :: signedChars n

/-- The fraction of the written form, left out when it has no digits. -/
def fractionChars (ds : List Char) : List Char := if ds = [] then [] else '.' :: ds

/-- The digits before the point, those behind it, and the written exponent. -/
def layout (d : Decimal) : List Char × List Char × Int :=
  let ds := natText d.coefficient
  let leftdigits := d.exponent + ds.length
  let dotplace := if d.exponent ≤ 0 ∧ -6 < leftdigits then leftdigits else 1
  if dotplace ≤ 0 then (['0'], List.replicate (-dotplace).toNat '0' ++ ds, leftdigits - dotplace)
  else if (ds.length : Int) ≤ dotplace then
    (ds ++ List.replicate (dotplace - ds.length).toNat '0', [], leftdigits - dotplace)
  else (ds.take dotplace.toNat, ds.drop dotplace.toNat, leftdigits - dotplace)

/-- The written form without the sign. -/
def unsignedChars (d : Decimal) : List Char :=
  d.layout.1 ++ fractionChars d.layout.2.1 ++ exponentChars d.layout.2.2

def chars (d : Decimal) : List Char :=
  if d.negative then '-' :: d.unsignedChars else d.unsignedChars

def str (d : Decimal) : String := String.ofList d.chars

/-- A number literal: finite, or an infinity or a not-a-number. -/
inductive Literal where
  | finite (d : Decimal)
  /-- An infinity or a not-a-number. -/
  | special

/-- Read the exponent up to the end of the text. -/
def readExponent : List Char → Option Int
  | [] => some 0
  | c :: cs =>
    if c = 'E' ∨ c = 'e' then
      match cs with
      | '-' :: ds => if ds ≠ [] ∧ ds.all Char.isDigit then
          some (-(Nat.ofDigitChars 10 ds 0 : Nat)) else none
      | '+' :: ds => if ds ≠ [] ∧ ds.all Char.isDigit then
          some (Nat.ofDigitChars 10 ds 0 : Nat) else none
      | ds => if ds ≠ [] ∧ ds.all Char.isDigit then
          some (Nat.ofDigitChars 10 ds 0 : Nat) else none
    else none

/-- Read the digits behind a point, if there is one. -/
def readFraction : List Char → List Char × List Char
  | '.' :: cs => (cs.takeWhile Char.isDigit, cs.dropWhile Char.isDigit)
  | cs => ([], cs)

/-- Read an unsigned number up to the end of the text. -/
def readUnsigned (cs : List Char) : Option (Nat × Int) :=
  let ints := cs.takeWhile Char.isDigit
  let (fracs, rest) := readFraction (cs.dropWhile Char.isDigit)
  if ints ++ fracs = [] then none
  else (readExponent rest).map fun e => (Nat.ofDigitChars 10 (ints ++ fracs) 0, e - fracs.length)

/-- The names of the special values, read without regard to case. -/
def isSpecialName (cs : List Char) : Bool :=
  let name := cs.map Char.toLower
  name == "inf".toList || name == "infinity".toList ||
    (name.take 3 == "nan".toList && (name.drop 3).all Char.isDigit) ||
    (name.take 4 == "snan".toList && (name.drop 4).all Char.isDigit)

def readLiteral (negative : Bool) (cs : List Char) : Option Literal :=
  match readUnsigned cs with
  | some (coefficient, exponent) => some (.finite ⟨negative, coefficient, exponent⟩)
  | none => if isSpecialName cs then some .special else none

/-- The character with any decimal digit replaced by its ASCII form. -/
def asciiDigit (c : Char) : Char :=
  match decimalValue c with
  | some n => Nat.digitChar n
  | none => c

/-- Read a number: surrounding whitespace and underscores do not count. -/
def ofStr (s : String) : Option Literal :=
  match ((stripChars s.toList).filter (· != '_')).map asciiDigit with
  | '-' :: cs => readLiteral true cs
  | '+' :: cs => readLiteral false cs
  | cs => readLiteral false cs

theorem layout_spec (d : Decimal) :
    Nat.ofDigitChars 10 (d.layout.1 ++ d.layout.2.1) 0 = d.coefficient ∧
      d.layout.2.2 - d.layout.2.1.length = d.exponent ∧ d.layout.1 ≠ [] ∧
      ∀ c ∈ d.layout.1 ++ d.layout.2.1, c.isDigit = true := by
  obtain ⟨negative, coefficient, exponent⟩ := d
  have hne := natText_ne_nil coefficient
  have hlen : 0 < (natText coefficient).length := List.length_pos_iff.mpr hne
  have hval := ofDigitChars_natText coefficient
  have hdig : ∀ c ∈ natText coefficient, c.isDigit = true := fun _ => isDigit_of_mem_natText
  simp only [layout]
  generalize hds : natText coefficient = ds at *
  obtain ⟨dotplace, hdot⟩ : ∃ dotplace : Int, dotplace =
      (if exponent ≤ 0 ∧ -6 < exponent + ds.length then exponent + ds.length else 1) := ⟨_, rfl⟩
  have hplace : (dotplace = exponent + ds.length ∧ exponent ≤ 0) ∨ dotplace = 1 := by
    rw [hdot]
    split
    · next h => exact .inl ⟨rfl, h.1⟩
    · exact .inr rfl
  rw [← hdot]
  by_cases hzero : dotplace ≤ 0
  · rw [if_pos hzero]
    refine ⟨?_, ?_, by simp, ?_⟩
    · have hcons : ['0'] ++ (List.replicate (-dotplace).toNat '0' ++ ds) =
          List.replicate ((-dotplace).toNat + 1) '0' ++ ds := by
        rw [List.replicate_succ]
        rfl
      rw [hcons, Nat.ofDigitChars_append, Nat.ofDigitChars_replicate_zero, Nat.mul_zero, hval]
    · simp only [List.length_append, List.length_replicate]
      omega
    · intro c hc
      simp only [List.cons_append, List.nil_append, List.mem_cons, List.mem_append,
        List.mem_replicate] at hc
      obtain rfl | ⟨-, rfl⟩ | hc := hc
      · decide
      · decide
      · exact hdig c hc
  · rw [if_neg hzero]
    by_cases hlong : (ds.length : Int) ≤ dotplace
    · rw [if_pos hlong]
      have hpad : (dotplace - ds.length).toNat = 0 := by omega
      rw [hpad, List.replicate_zero, List.append_nil, List.append_nil]
      refine ⟨hval, ?_, hne, hdig⟩
      simp only [List.length_nil]
      omega
    · rw [if_neg hlong]
      refine ⟨by rw [List.take_append_drop, hval], ?_, ?_, ?_⟩
      · simp only [List.length_drop]
        omega
      · intro hnil
        have hlt := congrArg List.length hnil
        simp only [List.length_take, List.length_nil] at hlt
        omega
      · rw [List.take_append_drop]
        exact hdig

private theorem takeWhile_digits {ds cs : List Char} (hd : ∀ c ∈ ds, c.isDigit = true)
    (hc : NoDigitHead cs) :
    (ds ++ cs).takeWhile Char.isDigit = ds ∧ (ds ++ cs).dropWhile Char.isDigit = cs := by
  have htake := takeWhile_isDigit_append hd hc
  refine ⟨htake, ?_⟩
  have happ := List.takeWhile_append_dropWhile (p := Char.isDigit) (l := ds ++ cs)
  rw [htake] at happ
  exact List.append_cancel_left happ

private theorem readExponent_exponentChars (n : Int) : readExponent (exponentChars n) = some n := by
  unfold exponentChars
  split
  · next h => rw [h, readExponent]
  · have hall : (natText n.natAbs).all Char.isDigit = true :=
      List.all_eq_true.mpr fun _ => isDigit_of_mem_natText
    unfold signedChars
    split
    · simp only [readExponent, true_or, if_true, ne_eq, natText_ne_nil, not_false_eq_true, hall,
        and_self, ofDigitChars_natText, Option.some.injEq]
      omega
    · simp only [readExponent, true_or, if_true, ne_eq, natText_ne_nil, not_false_eq_true, hall,
        and_self, ofDigitChars_natText, Option.some.injEq]
      omega

private theorem noDigitHead_exponentChars (n : Int) : NoDigitHead (exponentChars n) := by
  unfold exponentChars
  split
  · rintro c ⟨⟩
  · rintro c ⟨⟩
    decide

private theorem readFraction_fractionChars {ds : List Char} (hd : ∀ c ∈ ds, c.isDigit = true)
    (n : Int) : readFraction (fractionChars ds ++ exponentChars n) = (ds, exponentChars n) := by
  unfold fractionChars
  split
  · next h =>
    rw [h, List.nil_append]
    unfold exponentChars
    split <;> rfl
  · obtain ⟨htake, hdrop⟩ := takeWhile_digits hd (noDigitHead_exponentChars n)
    rw [List.cons_append, readFraction, htake, hdrop]

private theorem noDigitHead_fraction_exponent (ds : List Char) (n : Int) :
    NoDigitHead (fractionChars ds ++ exponentChars n) := by
  unfold fractionChars
  split
  · exact noDigitHead_exponentChars n
  · rintro c ⟨⟩
    decide

theorem readUnsigned_unsignedChars (d : Decimal) :
    readUnsigned d.unsignedChars = some (d.coefficient, d.exponent) := by
  obtain ⟨hval, hexp, hne, hdig⟩ := d.layout_spec
  have hints : ∀ c ∈ d.layout.1, c.isDigit = true := fun c hc =>
    hdig c (List.mem_append_left _ hc)
  have hfracs : ∀ c ∈ d.layout.2.1, c.isDigit = true := fun c hc =>
    hdig c (List.mem_append_right _ hc)
  obtain ⟨htake, hdrop⟩ := takeWhile_digits hints
    (noDigitHead_fraction_exponent d.layout.2.1 d.layout.2.2)
  simp only [readUnsigned, unsignedChars, List.append_assoc, htake, hdrop,
    readFraction_fractionChars hfracs, readExponent_exponentChars, Option.map_some, hval, hexp]
  rw [if_neg (by simp [hne])]

private def isWritten (c : Char) : Bool :=
  c.isDigit || c == '-' || c == '+' || c == '.' || c == 'E'

private theorem isWritten_of_isDigit {c : Char} (h : c.isDigit = true) : isWritten c = true := by
  simp [isWritten, h]

private theorem isWritten_chars (d : Decimal) : ∀ c ∈ d.chars, isWritten c = true := by
  obtain ⟨-, -, -, hdig⟩ := d.layout_spec
  have hunsigned : ∀ c ∈ d.unsignedChars, isWritten c = true := by
    intro c hc
    simp only [unsignedChars, List.mem_append] at hc
    obtain (hc | hc) | hc := hc
    · exact isWritten_of_isDigit (hdig c (List.mem_append_left _ hc))
    · unfold fractionChars at hc
      split at hc
      · simp at hc
      · obtain rfl | hc := List.mem_cons.mp hc
        · decide
        · exact isWritten_of_isDigit (hdig c (List.mem_append_right _ hc))
    · unfold exponentChars signedChars at hc
      split at hc
      · simp at hc
      · obtain rfl | hc := List.mem_cons.mp hc
        · decide
        · obtain rfl | hc := List.mem_cons.mp hc
          · split <;> decide
          · exact isWritten_of_isDigit (isDigit_of_mem_natText hc)
  intro c hc
  unfold chars at hc
  split at hc
  · obtain rfl | hc := List.mem_cons.mp hc
    · decide
    · exact hunsigned c hc
  · exact hunsigned c hc

private theorem written_cases {c : Char} (h : isWritten c = true) :
    isSpace c = false ∧ (c != '_') = true ∧ asciiDigit c = c := by
  simp only [isWritten, Bool.or_eq_true, beq_iff_eq] at h
  obtain (((h | rfl) | rfl) | rfl) | rfl := h
  · refine ⟨isSpace_of_isDigit h, ?_, ?_⟩
    · rw [bne_iff_ne]
      rintro rfl
      exact absurd h (by decide)
    · have hd : 48 ≤ c.toNat ∧ c.toNat ≤ 57 := by
        simpa [Char.isDigit, UInt32.le_iff_toNat_le] using h
      rw [asciiDigit, decimalValue_of_isDigit h]
      have hc : Char.ofNat c.toNat = c := Char.ofNat_toNat c
      generalize c.toNat = n at hd hc
      subst hc
      obtain ⟨hlow, hhigh⟩ := hd
      interval_cases n <;> rfl
  · decide
  · decide
  · decide
  · decide

theorem ofStr_str (d : Decimal) : ofStr d.str = some (.finite d) := by
  have hw := d.isWritten_chars
  have hstrip : stripChars d.chars = d.chars :=
    stripChars_eq_self fun c hc => (written_cases (hw c hc)).1
  have hfilter : d.chars.filter (· != '_') = d.chars :=
    List.filter_eq_self.mpr fun c hc => (written_cases (hw c hc)).2.1
  have hmap : d.chars.map asciiDigit = d.chars :=
    (List.map_congr_left fun c hc => (written_cases (hw c hc)).2.2).trans (List.map_id _)
  have hread : ∀ negative, readLiteral negative d.unsignedChars =
      some (.finite ⟨negative, d.coefficient, d.exponent⟩) := fun negative => by
    rw [readLiteral, readUnsigned_unsignedChars]
  rw [ofStr, str, String.toList_ofList, hstrip, hfilter, hmap]
  obtain ⟨-, -, hne, hdig⟩ := d.layout_spec
  unfold chars
  cases hn : d.negative with
  | true =>
    simp only [if_true, hread]
    rw [← hn]
  | false =>
    simp only [Bool.false_eq_true, if_false]
    -- Without a sign the text starts with a digit.
    obtain ⟨c, cs, hcs⟩ := List.exists_cons_of_ne_nil hne
    have hc : c.isDigit = true := hdig c (by rw [hcs]; exact List.mem_cons_self ..)
    have hhead : ∃ rest, d.unsignedChars = c :: rest := ⟨_, by rw [unsignedChars, hcs]; rfl⟩
    obtain ⟨rest, hrest⟩ := hhead
    have hlit := hread false
    rw [hrest] at hlit ⊢
    split
    · next h => cases h; exact absurd hc (by decide)
    · next h => cases h; exact absurd hc (by decide)
    · rw [hlit, ← hn]

theorem str_injective : Function.Injective str := by
  intro a b h
  have hab := congrArg ofStr h
  rw [ofStr_str, ofStr_str] at hab
  exact Literal.finite.inj (Option.some.inj hab)

end Decimal

end Dayjaview
