import Mathlib.Data.Nat.Digits.Lemmas
import Mathlib.Tactic

/-!
# Text: blank strings, decimal digits and fixed-width fields

Strings are read as lists of code points. Whitespace and decimal digits follow
the Unicode classes that string stripping and number parsing use. A written
number is read back exactly, also in front of further text, which is what makes
formats built from numbers and separators uniquely readable.
-/

namespace Dayjaview

section

/-- What holds of every member of a list is decided along the list, not over a whole type. -/
instance (priority := high) decidableForallMem {α : Type*} (p : α → Prop) [DecidablePred p]
    (xs : List α) : Decidable (∀ x ∈ xs, p x) := List.decidableBAll p xs

/-- The code points that string stripping removes. -/
def isSpace (c : Char) : Bool :=
  let n := c.toNat
  (9 ≤ n && n ≤ 13) || (0x1C ≤ n && n ≤ 0x20) || n == 0x85 || n == 0xA0 || n == 0x1680 ||
    (0x2000 ≤ n && n ≤ 0x200A) || n == 0x2028 || n == 0x2029 || n == 0x202F ||
    n == 0x205F || n == 0x3000

/-- Nothing is left of the text once surrounding whitespace is stripped. -/
def isBlank (s : String) : Bool := s.toList.all isSpace

theorem isBlank_append (s t : String) : isBlank (s ++ t) = (isBlank s && isBlank t) := by
  simp [isBlank]

/-- The characters without surrounding whitespace. -/
def stripChars (cs : List Char) : List Char :=
  ((cs.dropWhile isSpace).reverse.dropWhile isSpace).reverse

/-- The text without surrounding whitespace. -/
def strip (s : String) : String := String.ofList (stripChars s.toList)

variable {cs : List Char} {c : Char}

theorem stripChars_eq_self (h : ∀ c ∈ cs, isSpace c = false) :
    stripChars cs = cs := by
  have hd : ∀ l : List Char, (∀ c ∈ l, isSpace c = false) → l.dropWhile isSpace = l := by
    intro l hl
    cases l with
    | nil => rfl
    | cons c l => simp [hl c (List.mem_cons_self ..)]
  rw [stripChars, hd cs h, hd cs.reverse (by simpa using h), List.reverse_reverse]

/-- The code points of the digit zero in the scripts beyond ASCII, as of Unicode 15. -/
def digitZeros : List Nat :=
  [0x660, 0x6F0, 0x7C0, 0x966, 0x9E6, 0xA66, 0xAE6, 0xB66, 0xBE6, 0xC66, 0xCE6, 0xD66, 0xDE6,
    0xE50, 0xED0, 0xF20, 0x1040, 0x1090, 0x17E0, 0x1810, 0x1946, 0x19D0, 0x1A80, 0x1A90, 0x1B50,
    0x1BB0, 0x1C40, 0x1C50, 0xA620, 0xA8D0, 0xA900, 0xA9D0, 0xA9F0, 0xAA50, 0xABF0, 0xFF10,
    0x104A0, 0x10D30, 0x11066, 0x110F0, 0x11136, 0x111D0, 0x112F0, 0x11450, 0x114D0, 0x11650,
    0x116C0, 0x11730, 0x118E0, 0x11950, 0x11C50, 0x11D50, 0x11DA0, 0x11F50, 0x16A60, 0x16AC0,
    0x16B50, 0x1D7CE, 0x1D7D8, 0x1D7E2, 0x1D7EC, 0x1D7F6, 0x1E140, 0x1E2F0, 0x1E4F0, 0x1E950,
    0x1FBF0]

/-- The value of a decimal digit of any script. -/
def decimalValue (c : Char) : Option Nat :=
  if c.isDigit then some (c.toNat - '0'.toNat)
  else (digitZeros.find? fun z => z ≤ c.toNat && c.toNat < z + 10).map (c.toNat - ·)

theorem decimalValue_of_isDigit (h : c.isDigit = true) :
    decimalValue c = some (c.toNat - '0'.toNat) := by simp [decimalValue, h]

/-- The decimal notation of a natural number. -/
def natText (n : Nat) : List Char := Nat.toDigits 10 n

theorem isDigit_of_mem_natText {n : Nat} (h : c ∈ natText n) : c.isDigit = true :=
  Nat.isDigit_of_mem_toDigits (by decide) (by decide) h

theorem natText_ne_nil (n : Nat) : natText n ≠ [] := Nat.toDigits_ne_nil

theorem ofDigitChars_natText (n : Nat) : Nat.ofDigitChars 10 (natText n) 0 = n :=
  Nat.ofDigitChars_ten_toDigits

theorem natText_injective : Function.Injective natText :=
  Function.LeftInverse.injective ofDigitChars_natText

/-- The text does not go on with a digit. -/
def NoDigitHead (cs : List Char) : Prop := ∀ c ∈ cs.head?, c.isDigit = false

theorem takeWhile_isDigit_append {ds : List Char} (hd : ∀ c ∈ ds, c.isDigit = true)
    (hc : NoDigitHead cs) : (ds ++ cs).takeWhile Char.isDigit = ds := by
  rw [List.takeWhile_append_of_pos hd]
  cases cs with
  | nil => simp
  | cons c cs =>
    have : c.isDigit = false := hc c rfl
    simp [this]

theorem natText_append_inj {m n : Nat} {s t : List Char} (hs : NoDigitHead s)
    (ht : NoDigitHead t) (h : natText m ++ s = natText n ++ t) : m = n ∧ s = t := by
  have hd := congrArg (List.takeWhile Char.isDigit) h
  rw [takeWhile_isDigit_append (fun _ => isDigit_of_mem_natText) hs,
    takeWhile_isDigit_append (fun _ => isDigit_of_mem_natText) ht] at hd
  rw [hd] at h
  exact ⟨natText_injective hd, List.append_cancel_left h⟩

/-- The digits after a first one, with single underscores allowed between them. -/
def readGrouped : Nat → List Char → Option Nat
  | acc, [] => some acc
  | acc, '_' :: c :: cs =>
    match decimalValue c with
    | some d => readGrouped (10 * acc + d) cs
    | none => none
  | acc, c :: cs =>
    match decimalValue c with
    | some d => readGrouped (10 * acc + d) cs
    | none => none

/-- An unsigned number literal. -/
def readNat : List Char → Option Nat
  | [] => none
  | c :: cs =>
    match decimalValue c with
    | some d => readGrouped d cs
    | none => none

/-- The integer written in a text, as the built-in conversion reads it. -/
def intOfStr (s : String) : Option Int :=
  match stripChars s.toList with
  | '-' :: cs => (readNat cs).map fun n : Nat => -(n : Int)
  | '+' :: cs => (readNat cs).map fun n : Nat => (n : Int)
  | cs => (readNat cs).map fun n : Nat => (n : Int)

private theorem readGrouped_digits (h : ∀ c ∈ cs, c.isDigit = true) (acc : Nat) :
    readGrouped acc cs = some (Nat.ofDigitChars 10 cs acc) := by
  induction cs generalizing acc with
  | nil => simp [readGrouped]
  | cons c cs ih =>
    have hc := h c (List.mem_cons_self ..)
    have hne : c ≠ '_' := by rintro rfl; exact absurd hc (by decide)
    rw [Nat.ofDigitChars_cons, ← ih (fun x hx => h x (List.mem_cons_of_mem _ hx))]
    cases cs with
    | nil => simp [readGrouped, decimalValue_of_isDigit hc]
    | cons d cs => simp [readGrouped, decimalValue_of_isDigit hc, hne]

theorem readNat_digits (hne : cs ≠ []) (h : ∀ c ∈ cs, c.isDigit = true) :
    readNat cs = some (Nat.ofDigitChars 10 cs 0) := by
  cases cs with
  | nil => exact absurd rfl hne
  | cons c cs =>
    have hc := h c (List.mem_cons_self ..)
    rw [readNat, decimalValue_of_isDigit hc, Nat.ofDigitChars_cons]
    simpa using readGrouped_digits (fun x hx => h x (List.mem_cons_of_mem _ hx)) _

theorem readNat_natText (n : Nat) : readNat (natText n) = some n := by
  rw [readNat_digits (natText_ne_nil n) (fun _ => isDigit_of_mem_natText), ofDigitChars_natText]

theorem isSpace_of_isDigit (h : c.isDigit = true) : isSpace c = false := by
  have hd : 48 ≤ c.toNat ∧ c.toNat ≤ 57 := by
    simpa [Char.isDigit, UInt32.le_iff_toNat_le] using h
  simp only [isSpace, Bool.or_eq_false_iff, Bool.and_eq_false_iff, decide_eq_false_iff_not,
    beq_eq_false_iff_ne]
  omega

theorem intOfStr_natText (n : Nat) : intOfStr (String.ofList (natText n)) = some (n : Int) := by
  have hd : ∀ c ∈ natText n, c.isDigit = true := fun _ => isDigit_of_mem_natText
  rw [intOfStr, String.toList_ofList, stripChars_eq_self fun c hc => isSpace_of_isDigit (hd c hc)]
  have hr := readNat_natText n
  split
  · next cs hcs => exact absurd (hd '-' (by rw [hcs]; exact List.mem_cons_self ..)) (by decide)
  · next cs hcs => exact absurd (hd '+' (by rw [hcs]; exact List.mem_cons_self ..)) (by decide)
  · next => simp [hr]

/-- The last `width` decimal digits of a number, zero-padded. -/
def padded : Nat → Nat → List Char
  | 0, _ => []
  | width + 1, n => Nat.digitChar (n / 10 ^ width % 10) :: padded width n

/-- Read exactly `width` ASCII digits behind the value read so far. -/
def readPadded : Nat → Nat → List Char → Option (Nat × List Char)
  | 0, acc, cs => some (acc, cs)
  | _ + 1, _, [] => none
  | width + 1, acc, c :: cs =>
    if c.isDigit then readPadded width (10 * acc + (c.toNat - '0'.toNat)) cs else none

private theorem readPadded_padded_acc (width n acc : Nat) (cs : List Char) :
    readPadded width acc (padded width n ++ cs) =
      some (acc * 10 ^ width + n % 10 ^ width, cs) := by
  induction width generalizing acc with
  | zero => simp [readPadded, padded, Nat.mod_one]
  | succ width ih =>
    have hlt : n / 10 ^ width % 10 < 10 := Nat.mod_lt _ (by decide)
    have hv : (Nat.digitChar (n / 10 ^ width % 10)).toNat - '0'.toNat = n / 10 ^ width % 10 :=
      Nat.toNat_digitChar_sub_48_of_lt_ten hlt
    rw [padded, List.cons_append, readPadded, Nat.isDigit_digitChar, decide_eq_true hlt,
      if_pos rfl, hv, ih, Nat.mod_pow_succ]
    congr 2
    ring

theorem readPadded_padded {width n : Nat} (h : n < 10 ^ width) (cs : List Char) :
    readPadded width 0 (padded width n ++ cs) = some (n, cs) := by
  rw [readPadded_padded_acc, Nat.zero_mul, Nat.zero_add, Nat.mod_eq_of_lt h]

/-- The Unicode tables behind the text methods. -/
class UnicodeTable where
  upper : Char → List Char
  casefold : Char → List Char
  isalnum : Char → Bool
  isdigit : Char → Bool

variable [UnicodeTable]

/-- The text in capital letters. -/
def upperText (s : String) : String := String.ofList (s.toList.flatMap UnicodeTable.upper)

/-- The text regardless of case. -/
def casefoldText (s : String) : String := String.ofList (s.toList.flatMap UnicodeTable.casefold)

def isDigitText (s : String) : Bool := !s.toList.isEmpty && s.toList.all UnicodeTable.isdigit

omit [UnicodeTable]

@[reducible] def UnicodeTable.ascii : UnicodeTable where
  upper c := [c.toUpper]
  casefold c := [c.toLower]
  isalnum := Char.isAlphanum
  isdigit := Char.isDigit

end

/-- The runs of non-blank characters, with the run that is being read. -/
def wordsFrom : List Char → List Char → List (List Char)
  | word, [] => if word = [] then [] else [word]
  | word, c :: cs =>
    if isSpace c then if word = [] then wordsFrom [] cs else word :: wordsFrom [] cs
    else wordsFrom (word ++ [c]) cs

def words (s : String) : List String := (wordsFrom [] s.toList).map String.ofList

/-- One text is part of another. -/
def isPart (part whole : String) : Bool := whole.toList.tails.any part.toList.isPrefixOf

/-- The different texts in order. -/
def textSet (texts : List String) : List String := texts.dedup.insertionSort (· ≤ ·)

theorem intOfStr_digits {cs : List Char} (hne : cs ≠ []) (h : ∀ c ∈ cs, c.isDigit = true) :
    intOfStr (String.ofList cs) = some (Nat.ofDigitChars 10 cs 0 : Int) := by
  rw [intOfStr, String.toList_ofList, stripChars_eq_self fun c hc => isSpace_of_isDigit (h c hc)]
  have hread := readNat_digits hne h
  split
  · next hcs => exact absurd (h '-' (by simp)) (by decide)
  · next hcs => exact absurd (h '+' (by simp)) (by decide)
  · next => simp [hread]

theorem nodup_eraseDups {α : Type} [DecidableEq α] (as : List α) : as.eraseDups.Nodup := by
  induction hn : as.length using Nat.strong_induction_on generalizing as with
  | _ n ih =>
    cases as with
    | nil => simp
    | cons a as =>
      have hlength : (as.filter fun b => !b == a).length < n := by
        have hle := List.length_filter_le (fun b => !b == a) as
        rw [← hn, List.length_cons]
        omega
      rw [List.eraseDups_cons, List.nodup_cons]
      refine ⟨fun hmem => ?_, ih _ hlength _ rfl⟩
      have hother := (List.mem_filter.mp (List.mem_eraseDups.mp hmem)).2
      simp at hother

end Dayjaview
