import Dayjaview.Core.Text
import Mathlib.Data.Int.Log
import Mathlib.Data.Rat.Floor

/-!
# Dates, timestamps with a UTC offset, and their ISO 8601 text

A timestamp keeps its wall-clock fields and its UTC offset, so two timestamps
can denote one instant and still be written differently. Order compares
instants; the text determines the timestamp itself. Reading accepts exactly the
extended format that writing produces.
-/

namespace Dayjaview

/-- Leap years of the proleptic Gregorian calendar. -/
def isLeap (year : Nat) : Bool := year % 4 == 0 && (year % 100 != 0 || year % 400 == 0)

def daysInMonth (year month : Nat) : Nat :=
  match month with
  | 2 => if isLeap year then 29 else 28
  | 4 | 6 | 9 | 11 => 30
  | _ => 31

/-- The days of a year before the first of a month. -/
def daysBeforeMonth (year month : Nat) : Nat :=
  ((List.range (month - 1)).map fun m => daysInMonth year (m + 1)).sum

/-- The fields of a calendar date. -/
def ValidDate (year month day : Nat) : Prop :=
  1 ≤ year ∧ year ≤ 9999 ∧ 1 ≤ month ∧ month ≤ 12 ∧ 1 ≤ day ∧ day ≤ daysInMonth year month

instance (year month day : Nat) : Decidable (ValidDate year month day) :=
  inferInstanceAs (Decidable (_ ∧ _))

/-- A calendar date of the years 1 to 9999. -/
structure Date where
  year : Nat
  month : Nat
  day : Nat
  valid : ValidDate year month day
  deriving DecidableEq

namespace Date

@[ext] theorem ext {a b : Date} (hy : a.year = b.year) (hm : a.month = b.month)
    (hd : a.day = b.day) : a = b := by
  cases a
  cases b
  simp_all

/-- The place of a date in the calendar order. -/
def key (d : Date) : ℕ ×ₗ ℕ ×ₗ ℕ := toLex (d.year, toLex (d.month, d.day))

theorem key_injective : Function.Injective key := by
  intro a b h
  simp only [key, toLex_inj, Prod.mk.injEq] at h
  exact ext h.1 h.2.1 h.2.2

instance : LinearOrder Date := LinearOrder.lift' key key_injective

/-- The number of the day, counting from the first day of the year 1. -/
def toOrdinal (d : Date) : Nat :=
  let y := d.year - 1
  365 * y + y / 4 - y / 100 + y / 400 + daysBeforeMonth d.year d.month + d.day

/-- The text `YYYY-MM-DD`. -/
def isoChars (d : Date) : List Char :=
  padded 4 d.year ++ '-' :: padded 2 d.month ++ '-' :: padded 2 d.day

def isoformat (d : Date) : String := String.ofList d.isoChars

/-- The date with the given fields, when there is one. -/
def ofFields (year month day : Nat) : Option Date :=
  if h : ValidDate year month day then some ⟨year, month, day, h⟩ else none

/-- Read a date in front of further text. -/
def readIso (cs : List Char) : Option (Date × List Char) :=
  match readPadded 4 0 cs with
  | some (year, '-' :: cs) =>
    match readPadded 2 0 cs with
    | some (month, '-' :: cs) =>
      match readPadded 2 0 cs with
      | some (day, cs) => (ofFields year month day).map fun d => (d, cs)
      | none => none
    | _ => none
  | _ => none

/-- The date written in a text. -/
def fromisoformat (s : String) : Option Date :=
  match readIso s.toList with
  | some (d, []) => some d
  | _ => none

theorem readIso_isoChars (d : Date) (cs : List Char) :
    readIso (d.isoChars ++ cs) = some (d, cs) := by
  obtain ⟨year, month, day, hv⟩ := d
  have hy : year < 10 ^ 4 := by obtain ⟨-, hy, -⟩ := hv; omega
  have hm : month < 10 ^ 2 := by obtain ⟨-, -, -, hm, -⟩ := hv; omega
  have hd : day < 10 ^ 2 := by
    obtain ⟨-, -, -, -, -, hd⟩ := hv
    have h31 : daysInMonth year month ≤ 31 := by
      unfold daysInMonth
      split
      · split <;> decide
      all_goals decide
    omega
  simp only [readIso, isoChars, List.append_assoc, List.cons_append, readPadded_padded hy,
    readPadded_padded hm, readPadded_padded hd, ofFields, dif_pos hv, Option.map_some]

theorem fromisoformat_isoformat (d : Date) : fromisoformat d.isoformat = some d := by
  have h := readIso_isoChars d []
  rw [List.append_nil] at h
  simp [fromisoformat, isoformat, h]

theorem isoformat_injective : Function.Injective isoformat := by
  intro a b h
  have := congrArg fromisoformat h
  simpa [fromisoformat_isoformat] using this

/-- A day of January in this century. -/
def january (year day : Nat) : Date :=
  ⟨2000 + year % 100, 1, (day - 1) % 31 + 1, Nat.le_add_right_of_le (by decide),
    Nat.add_le_add_left (Nat.le_of_lt_succ (Nat.mod_lt _ (by decide))) 2000 |>.trans (by decide),
    by decide, by decide, Nat.succ_pos _, Nat.mod_lt _ (by decide)⟩

/-- A day of August 2026. -/
def august (day : Nat) : Date :=
  ⟨2026, 8, (day - 1) % 31 + 1, by decide, by decide, by decide, by decide, Nat.succ_pos _,
    Nat.mod_lt _ (by decide)⟩

end Date

def dayMicros : Nat := 86400000000

/-- A timestamp with its UTC offset. -/
structure Datetime where
  date : Date
  hour : Nat
  minute : Nat
  second : Nat
  microsecond : Nat
  utcoffset : Int
  valid : hour < 24 ∧ minute < 60 ∧ second < 60 ∧ microsecond < 1000000 ∧
    utcoffset.natAbs < dayMicros
  deriving DecidableEq

/-- A minute of a day in Seoul. -/
def Date.seoul (date : Date) (hour minute : Nat) : Datetime :=
  ⟨date, hour % 24, minute % 60, 0, 0, 32400000000, Nat.mod_lt _ (by decide),
    Nat.mod_lt _ (by decide), by decide⟩

namespace Datetime

@[ext] theorem ext {a b : Datetime} (hd : a.date = b.date) (hh : a.hour = b.hour)
    (hm : a.minute = b.minute) (hs : a.second = b.second) (hu : a.microsecond = b.microsecond)
    (ho : a.utcoffset = b.utcoffset) : a = b := by
  cases a
  cases b
  simp_all

/-- The instant, in microseconds from the first midnight UTC before the year 1. -/
def instant (t : Datetime) : Int :=
  ((((t.date.toOrdinal * 24 + t.hour) * 60 + t.minute) * 60 + t.second) * 1000000 +
    t.microsecond : Nat) - t.utcoffset

instance : LE Datetime := ⟨fun a b => a.instant ≤ b.instant⟩
instance : LT Datetime := ⟨fun a b => a.instant < b.instant⟩

instance : Preorder Datetime where
  le_refl a := le_refl a.instant
  le_trans _ _ _ h h' := le_trans (α := Int) h h'
  lt_iff_le_not_ge _ _ := lt_iff_le_not_ge (α := Int)

theorem le_def {a b : Datetime} : a ≤ b ↔ a.instant ≤ b.instant := Iff.rfl
theorem lt_def {a b : Datetime} : a < b ↔ a.instant < b.instant := Iff.rfl

instance (a b : Datetime) : Decidable (a ≤ b) := inferInstanceAs (Decidable (a.instant ≤ b.instant))
instance (a b : Datetime) : Decidable (a < b) := inferInstanceAs (Decidable (a.instant < b.instant))

/-- The later of two timestamps, the first one when they denote one instant. -/
def latest (a b : Datetime) : Datetime := if a < b then b else a

/-- The earlier of two timestamps, the first one when they denote one instant. -/
def earliest (a b : Datetime) : Datetime := if b < a then b else a

@[simp] theorem instant_latest (a b : Datetime) :
    (latest a b).instant = max a.instant b.instant := by
  unfold latest
  split
  · next h => exact (max_eq_right (le_of_lt (lt_def.mp h))).symm
  · next h => exact (max_eq_left (not_lt.mp (fun h' => h (lt_def.mpr h')))).symm

@[simp] theorem instant_earliest (a b : Datetime) :
    (earliest a b).instant = min a.instant b.instant := by
  unfold earliest
  split
  · next h => exact (min_eq_right (le_of_lt (lt_def.mp h))).symm
  · next h => exact (min_eq_left (not_lt.mp (fun h' => h (lt_def.mpr h')))).symm

/-- The fraction of a second, left out when it is zero. -/
def fractionChars (micros : Nat) : List Char :=
  if micros = 0 then [] else '.' :: padded 6 micros

/-- The seconds of an offset, left out when they are zero. -/
def offsetSecondChars (micros : Nat) : List Char :=
  if micros % 60000000 = 0 then []
  else ':' :: padded 2 (micros / 1000000 % 60) ++ fractionChars (micros % 1000000)

/-- The offset `±HH:MM[:SS[.ffffff]]`. -/
def offsetChars (offset : Int) : List Char :=
  (if offset < 0 then '-' else '+') ::
    (padded 2 (offset.natAbs / 3600000000) ++ ':' :: padded 2 (offset.natAbs / 60000000 % 60) ++
      offsetSecondChars offset.natAbs)

/-- The text `YYYY-MM-DDTHH:MM:SS[.ffffff]±HH:MM[:SS[.ffffff]]`. -/
def isoChars (t : Datetime) : List Char :=
  t.date.isoChars ++ 'T' :: padded 2 t.hour ++ ':' :: padded 2 t.minute ++ ':' ::
    padded 2 t.second ++ fractionChars t.microsecond ++ offsetChars t.utcoffset

def isoformat (t : Datetime) : String := String.ofList t.isoChars

/-- The timestamp with the given fields, when they are those of a clock. -/
def ofFields (date : Date) (hour minute second microsecond : Nat) (utcoffset : Int) :
    Option Datetime :=
  if h : hour < 24 ∧ minute < 60 ∧ second < 60 ∧ microsecond < 1000000 ∧
      utcoffset.natAbs < dayMicros then
    some ⟨date, hour, minute, second, microsecond, utcoffset, h⟩
  else none

/-- Read an optional fraction of a second. -/
def readFraction : List Char → Option (Nat × List Char)
  | '.' :: cs => readPadded 6 0 cs
  | cs => some (0, cs)

/-- Read `:SS[.ffffff]` of an offset, in microseconds; nothing stands for zero. -/
def readOffsetSeconds : List Char → Option Nat
  | [] => some 0
  | ':' :: cs =>
    match readPadded 2 0 cs with
    | some (second, cs) =>
      match readFraction cs with
      | some (micros, []) => some (second * 1000000 + micros)
      | _ => none
    | none => none
  | _ => none

/-- Read `HH:MM[:SS[.ffffff]]` up to the end of the text, in microseconds. -/
def readOffset (cs : List Char) : Option Nat :=
  match readPadded 2 0 cs with
  | some (hour, ':' :: cs) =>
    match readPadded 2 0 cs with
    | some (minute, cs) =>
      (readOffsetSeconds cs).map fun micros => hour * 3600000000 + minute * 60000000 + micros
    | none => none
  | _ => none

/-- Read the sign and the magnitude of an offset. -/
def readSignedOffset : List Char → Option Int
  | '+' :: cs => (readOffset cs).map fun n : Nat => (n : Int)
  | '-' :: cs => (readOffset cs).map fun n : Nat => -(n : Int)
  | _ => none

def readIso (cs : List Char) : Option Datetime :=
  match Date.readIso cs with
  | some (date, 'T' :: cs) =>
    match readPadded 2 0 cs with
    | some (hour, ':' :: cs) =>
      match readPadded 2 0 cs with
      | some (minute, ':' :: cs) =>
        match readPadded 2 0 cs with
        | some (second, cs) =>
          match readFraction cs with
          | some (micros, cs) =>
            (readSignedOffset cs).bind (ofFields date hour minute second micros)
          | none => none
        | none => none
      | _ => none
    | _ => none
  | _ => none

/-- The timestamp written in a text. -/
def fromisoformat (s : String) : Option Datetime := readIso s.toList

theorem readFraction_fractionChars {micros : Nat} (h : micros < 1000000) {cs : List Char}
    (hcs : cs.head? ≠ some '.') : readFraction (fractionChars micros ++ cs) = some
    (micros, cs) := by
  unfold fractionChars
  split
  · next hz =>
    subst hz
    rw [List.nil_append, readFraction.eq_def]
    split
    · simp at hcs
    · rfl
  · rw [List.cons_append, readFraction, readPadded_padded (by omega : micros < 10 ^ 6)]

private theorem readOffsetSeconds_chars (micros : Nat) :
    readOffsetSeconds (offsetSecondChars micros) = some (micros % 60000000) := by
  unfold offsetSecondChars
  split
  · next hz => simp [readOffsetSeconds, hz]
  · next hz =>
    have hs : micros / 1000000 % 60 < 10 ^ 2 := by omega
    have hf : readFraction (fractionChars (micros % 1000000)) = some (micros % 1000000, []) := by
      have hlt : micros % 1000000 < 1000000 := Nat.mod_lt micros (by decide)
      simpa using readFraction_fractionChars hlt (by simp : ([] : List Char).head? ≠ some '.')
    rw [List.cons_append, readOffsetSeconds, readPadded_padded hs]
    simp only [hf, Option.some.injEq]
    omega

private theorem readOffset_chars {micros : Nat} (h : micros < dayMicros) :
    readOffset (padded 2 (micros / 3600000000) ++ ':' :: padded 2 (micros / 60000000 % 60) ++
      offsetSecondChars micros) = some micros := by
  have hh : micros / 3600000000 < 10 ^ 2 := by unfold dayMicros at h; omega
  have hm : micros / 60000000 % 60 < 10 ^ 2 := by omega
  simp only [readOffset, List.append_assoc, List.cons_append, readPadded_padded hh,
    readPadded_padded hm, readOffsetSeconds_chars, Option.map_some, Option.some.injEq]
  omega

theorem readSignedOffset_offsetChars {offset : Int} (h : offset.natAbs < dayMicros) :
    readSignedOffset (offsetChars offset) = some offset := by
  unfold offsetChars
  split
  · next hneg =>
    rw [readSignedOffset, readOffset_chars h, Option.map_some, Option.some.injEq]
    omega
  · next hpos =>
    rw [readSignedOffset, readOffset_chars h, Option.map_some, Option.some.injEq]
    omega

private theorem head?_offsetChars (offset : Int) : (offsetChars offset).head? ≠ some '.' := by
  unfold offsetChars
  split <;> simp

theorem fromisoformat_isoformat (t : Datetime) : fromisoformat t.isoformat = some t := by
  obtain ⟨date, hour, minute, second, micros, offset, hv⟩ := t
  obtain ⟨hh, hm, hs, hu, ho⟩ := hv
  have hh' : hour < 10 ^ 2 := by omega
  have hm' : minute < 10 ^ 2 := by omega
  have hs' : second < 10 ^ 2 := by omega
  simp only [fromisoformat, isoformat, String.toList_ofList, isoChars, readIso, List.append_assoc,
    List.cons_append, Date.readIso_isoChars, readPadded_padded hh', readPadded_padded hm',
    readPadded_padded hs', readFraction_fractionChars hu (head?_offsetChars offset),
    readSignedOffset_offsetChars ho, Option.bind_some]
  exact dif_pos ⟨hh, hm, hs, hu, ho⟩

theorem isoformat_injective : Function.Injective isoformat := by
  intro a b h
  have := congrArg fromisoformat h
  simpa [fromisoformat_isoformat] using this

end Datetime

/-- The nearest integer, the even one of two. -/
def roundHalfEven (q : ℚ) : ℤ :=
  let below := ⌊q⌋
  if q - below < 1 / 2 then below
  else if 1 / 2 < q - below then below + 1
  else if below % 2 = 0 then below else below + 1

/-- The nearest number with 53 significant bits. -/
def roundDouble (q : ℚ) : ℚ :=
  let unit := (2 : ℚ) ^ (Int.log 2 |q| - 52)
  if q = 0 then 0 else roundHalfEven (q / unit) * unit

/-- The instant of the first midnight of 1970. -/
def epochInstant : Int := 719163 * 86400000000

/-- The seconds since 1970. -/
def Datetime.timestamp (t : Datetime) : ℚ :=
  roundDouble ((t.instant - epochInstant : Int) / 1000000)

example : (⟨⟨1970, 1, 1, by decide⟩, 0, 0, 2, 500000, 0, by decide⟩ : Datetime).timestamp =
    5 / 2 := by
  decide +kernel

end Dayjaview
