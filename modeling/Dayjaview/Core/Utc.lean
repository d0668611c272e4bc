import Dayjaview.Core.Calendar
import Dayjaview.Core.Error

/-!
# Conversion to UTC

A timestamp is moved to UTC by moving its wall clock, by at most one day. The
instant stays the same; at the ends of the calendar the day is missing.
-/

namespace Dayjaview

namespace Date

/-- The day after, when the calendar has one. -/
def tomorrow (d : Date) : Option Date :=
  if d.day < daysInMonth d.year d.month then ofFields d.year d.month (d.day + 1)
  else if d.month < 12 then ofFields d.year (d.month + 1) 1
  else ofFields (d.year + 1) 1 1

/-- The day before, when the calendar has one. -/
def yesterday (d : Date) : Option Date :=
  if 1 < d.day then ofFields d.year d.month (d.day - 1)
  else if 1 < d.month then ofFields d.year (d.month - 1) (daysInMonth d.year (d.month - 1))
  else ofFields (d.year - 1) 12 31

theorem ofFields_eq_some {year month day : Nat} {d : Date} (h : ofFields year month day = some d) :
    d.year = year ∧ d.month = month ∧ d.day = day := by
  unfold ofFields at h
  split at h
  · cases h
    exact ⟨rfl, rfl, rfl⟩
  · cases h

theorem daysBeforeMonth_succ (year : Nat) {month : Nat} (h : 1 ≤ month) :
    daysBeforeMonth year (month + 1) = daysBeforeMonth year month + daysInMonth year month := by
  obtain ⟨m, rfl⟩ : ∃ m, month = m + 1 := ⟨month - 1, by omega⟩
  simp [daysBeforeMonth, List.range_succ]

/-- The days of the years before. -/
def daysBeforeYear (year : Nat) : Nat :=
  let y := year - 1
  365 * y + y / 4 - y / 100 + y / 400

theorem toOrdinal_eq (d : Date) :
    d.toOrdinal = daysBeforeYear d.year + daysBeforeMonth d.year d.month + d.day := rfl

theorem daysBeforeYear_succ {year : Nat} (h : 1 ≤ year) :
    daysBeforeYear (year + 1) = daysBeforeYear year + daysBeforeMonth year 12 + 31 := by
  obtain ⟨y, rfl⟩ : ∃ y, year = y + 1 := ⟨year - 1, by omega⟩
  have hmonths : daysBeforeMonth (y + 1) 12 = if isLeap (y + 1) then 335 else 334 := by
    simp only [daysBeforeMonth, List.range_succ, List.range_zero, List.nil_append, List.map_append,
      List.map_cons, List.map_nil, List.sum_append, List.sum_cons, List.sum_nil, daysInMonth]
    split <;> rfl
  have hfewer : y / 100 ≤ y / 4 := Nat.div_le_div_left (by decide) (by decide)
  have hleap : isLeap (y + 1) = true ↔ 4 ∣ y + 1 ∧ (¬ 100 ∣ y + 1 ∨ 400 ∣ y + 1) := by
    simp [isLeap, Nat.dvd_iff_mod_eq_zero]
  have hfour : 400 ∣ y + 1 → 100 ∣ y + 1 := (by decide : 100 ∣ 400).trans
  have hcentury : 100 ∣ y + 1 → 4 ∣ y + 1 := (by decide : 4 ∣ 100).trans
  simp only [hmonths, hleap, daysBeforeYear, Nat.add_sub_cancel, Nat.succ_div]
  by_cases h4 : 4 ∣ y + 1
  · by_cases h100 : 100 ∣ y + 1
    · by_cases h400 : 400 ∣ y + 1
      · simp only [h4, h100, h400, if_true, not_true_eq_false, false_or, and_self]
        omega
      · simp only [h4, h100, h400, if_true, if_false, not_true_eq_false, or_self, and_false]
        omega
    · have h400 : ¬ 400 ∣ y + 1 := fun h => h100 (hfour h)
      simp only [h4, h100, h400, if_true, if_false, not_false_eq_true, true_or, and_self]
      omega
  · have h100 : ¬ 100 ∣ y + 1 := fun h => h4 (hcentury h)
    have h400 : ¬ 400 ∣ y + 1 := fun h => h100 (hfour h)
    simp only [h4, h100, h400, if_false, false_and]
    omega

theorem toOrdinal_tomorrow {d d' : Date} (h : d.tomorrow = some d') :
    d'.toOrdinal = d.toOrdinal + 1 := by
  obtain ⟨hyear, -, hmonth, hmonth', hday, hday'⟩ := d.valid
  unfold tomorrow at h
  split_ifs at h with hlast hdecember
  · obtain ⟨hy, hm, hd⟩ := ofFields_eq_some h
    rw [toOrdinal_eq, toOrdinal_eq, hy, hm, hd]
    omega
  · obtain ⟨hy, hm, hd⟩ := ofFields_eq_some h
    rw [toOrdinal_eq, toOrdinal_eq, hy, hm, hd, daysBeforeMonth_succ _ hmonth]
    omega
  · obtain ⟨hy, hm, hd⟩ := ofFields_eq_some h
    have hmonth12 : d.month = 12 := by omega
    have hday31 : d.day = 31 := by
      rw [hmonth12] at hlast hday'
      simp only [daysInMonth] at hlast hday'
      omega
    rw [toOrdinal_eq, toOrdinal_eq, hy, hm, hd, hmonth12, hday31, daysBeforeYear_succ hyear]
    simp [daysBeforeMonth]

theorem toOrdinal_yesterday {d d' : Date} (h : d.yesterday = some d') :
    d'.toOrdinal + 1 = d.toOrdinal := by
  obtain ⟨hyear, -, hmonth, hmonth', hday, hday'⟩ := d.valid
  unfold yesterday at h
  split_ifs at h with hfirst hjanuary
  · obtain ⟨hy, hm, hd⟩ := ofFields_eq_some h
    rw [toOrdinal_eq, toOrdinal_eq, hy, hm, hd]
    omega
  · obtain ⟨hy, hm, hd⟩ := ofFields_eq_some h
    obtain ⟨m, hm'⟩ : ∃ m, d.month = m + 1 := ⟨d.month - 1, by omega⟩
    rw [toOrdinal_eq, toOrdinal_eq, hy, hm, hd, hm', Nat.add_sub_cancel,
      daysBeforeMonth_succ _ (by omega)]
    omega
  · have hvalid := d'.valid
    obtain ⟨hy, hm, hd⟩ := ofFields_eq_some h
    have hmonth1 : d.month = 1 := by omega
    have hday1 : d.day = 1 := by omega
    obtain ⟨y, hy'⟩ : ∃ y, d.year = y + 1 := ⟨d.year - 1, by omega⟩
    have hyear' : 1 ≤ y := by
      have := hvalid.1
      omega
    rw [toOrdinal_eq, toOrdinal_eq, hy, hm, hd, hmonth1, hday1, hy', Nat.add_sub_cancel,
      daysBeforeYear_succ hyear']
    simp [daysBeforeMonth]

end Date

namespace Datetime

/-- The microseconds of a wall clock since midnight. -/
def clockMicros (t : Datetime) : Nat :=
  ((t.hour * 60 + t.minute) * 60 + t.second) * 1000000 + t.microsecond

/-- The UTC timestamp some microseconds after the midnight of a date. -/
def ofClockMicros (date : Date) (micros : Nat) : Option Datetime :=
  ofFields date (micros / 3600000000) (micros / 60000000 % 60) (micros / 1000000 % 60)
    (micros % 1000000) 0

/-- The same instant by a clock in UTC. -/
def astimezoneUtc (t : Datetime) : Except Error Datetime :=
  let micros := (t.clockMicros : Int) - t.utcoffset
  let moved :=
    if micros < 0 then t.date.yesterday.bind (ofClockMicros · (micros + dayMicros).toNat)
    else if (dayMicros : Int) ≤ micros then
      t.date.tomorrow.bind (ofClockMicros · (micros - dayMicros).toNat)
    else ofClockMicros t.date micros.toNat
  match moved with
  | some utc => .ok utc
  | none => .error ⟨.overflowError, "date value out of range"⟩

theorem instant_eq (t : Datetime) :
    t.instant = t.date.toOrdinal * (dayMicros : Int) + t.clockMicros - t.utcoffset := by
  unfold instant clockMicros dayMicros
  push_cast
  ring

theorem instant_ofClockMicros {date : Date} {micros : Nat} {utc : Datetime}
    (h : ofClockMicros date micros = some utc) :
    utc.instant = date.toOrdinal * (dayMicros : Int) + micros := by
  unfold ofClockMicros ofFields at h
  split at h
  · cases h
    rw [instant_eq]
    have hclock : ((micros / 3600000000 * 60 + micros / 60000000 % 60) * 60 +
        micros / 1000000 % 60) * 1000000 + micros % 1000000 = micros := by omega
    simp [clockMicros, hclock]
  · cases h

theorem instant_astimezoneUtc {t utc : Datetime} (h : t.astimezoneUtc = .ok utc) :
    utc.instant = t.instant := by
  unfold astimezoneUtc at h
  dsimp only at h
  split at h
  · next hmoved =>
    cases h
    rw [t.instant_eq]
    split_ifs at hmoved with hbefore hafter
    · obtain ⟨date, hdate, hclock⟩ := Option.bind_eq_some_iff.mp hmoved
      have hordinal := Date.toOrdinal_yesterday hdate
      rw [instant_ofClockMicros hclock, ← hordinal]
      obtain ⟨-, -, -, -, hoffset⟩ := t.valid
      unfold dayMicros at *
      push_cast
      omega
    · obtain ⟨date, hdate, hclock⟩ := Option.bind_eq_some_iff.mp hmoved
      rw [instant_ofClockMicros hclock, Date.toOrdinal_tomorrow hdate]
      unfold dayMicros at *
      push_cast
      omega
    · rw [instant_ofClockMicros hmoved]
      unfold dayMicros at *
      omega
  · cases h

/-- The text of the instant in UTC, with the offset written as a letter. -/
def utcIso (t : Datetime) : Except Error String := do
  let utc ← t.astimezoneUtc
  return String.ofList (utc.date.isoChars ++ 'T' :: padded 2 utc.hour ++ ':' ::
    padded 2 utc.minute ++ ':' :: padded 2 utc.second ++ fractionChars utc.microsecond ++ ['Z'])

end Datetime

end Dayjaview
