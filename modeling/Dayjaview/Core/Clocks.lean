import Dayjaview.Core.Timedelta

/-!
# Clocks that can be changed

The calendar ends in the year 9999 and begins in the year 1. A timestamp that is a year away from
both ends can be read by every other clock.
-/

namespace Dayjaview

namespace Date

/-- The number of the last day of the calendar. -/
def lastOrdinal : Nat := 3652059

theorem ofFields_isSome {year month day : Nat} (h : ValidDate year month day) :
    (ofFields year month day).isSome := by
  simp [ofFields, h]

theorem toOrdinal_le_lastOrdinal (d : Date) : d.toOrdinal ≤ lastOrdinal := by
  obtain ⟨hyear, hyear', -, -, -, -⟩ := d.valid
  have hday := d.daysBeforeMonth_add_day_le
  have hsucc := daysBeforeYear_succ hyear
  have hmono := daysBeforeYear_mono (show 1 ≤ d.year + 1 by omega)
    (show d.year + 1 ≤ 10000 by omega)
  have hlast : daysBeforeYear 10000 = lastOrdinal := by decide
  rw [toOrdinal_eq]
  omega

variable {d : Date}

theorem tomorrow_isSome (h : d.toOrdinal < lastOrdinal) : d.tomorrow.isSome := by
  obtain ⟨hyear, hyear', hmonth, hmonth', hday, hday'⟩ := d.valid
  unfold tomorrow
  split_ifs with hlast hdecember
  · exact ofFields_isSome ⟨hyear, hyear', hmonth, hmonth', by omega, hlast⟩
  · have hdays : 1 ≤ daysInMonth d.year (d.month + 1) := by
      unfold daysInMonth
      repeat' split
      all_goals omega
    exact ofFields_isSome ⟨hyear, hyear', by omega, by omega, le_rfl, hdays⟩
  · have hmonth12 : d.month = 12 := by omega
    rw [hmonth12] at hlast hday'
    have hday31 : d.day = 31 := le_antisymm hday' (not_lt.mp hlast)
    have hyear9999 : d.year < 9999 := by
      by_contra hnot
      have hd : d.toOrdinal = lastOrdinal := by
        rw [toOrdinal_eq, show d.year = 9999 by omega, hmonth12, hday31]
        decide
      omega
    exact ofFields_isSome ⟨by omega, by omega, le_rfl, by decide, le_rfl, show 1 ≤ 31 by decide⟩

theorem yesterday_isSome_of_lt (h : 1 < d.toOrdinal) : d.yesterday.isSome := by
  refine yesterday_isSome (a := ⟨1, 1, 1, by decide⟩) ?_
  rw [← toOrdinal_strictMono.lt_iff_lt]
  exact h

theorem later_isSome {n : Nat} (h : d.toOrdinal + n ≤ lastOrdinal) :
    (d.later n).isSome := by
  induction n with
  | zero => rfl
  | succ n ih =>
    obtain ⟨mid, hmid⟩ := Option.isSome_iff_exists.mp (ih (by omega))
    have hordinal := toOrdinal_later hmid
    rw [later, hmid]
    exact tomorrow_isSome (by omega)

theorem addDays_isSome {n : Int} (h : 1 ≤ d.toOrdinal + n) (h' : d.toOrdinal + n ≤ lastOrdinal) :
    (d.addDays n).isSome := by
  cases n with
  | ofNat n =>
    refine later_isSome ?_
    simp only [Int.ofNat_eq_natCast] at h'
    omega
  | negSucc n =>
    refine earlier_isSome (a := ⟨1, 1, 1, by decide⟩) ?_
    rw [show (⟨1, 1, 1, by decide⟩ : Date).toOrdinal = 1 from rfl]
    omega

/-- A date that is a year away from the ends of the calendar. -/
def Central (d : Date) : Prop := 2 ≤ d.year ∧ d.year ≤ 9998

theorem Central.toOrdinal (h : d.Central) :
    366 ≤ d.toOrdinal ∧ d.toOrdinal + 365 ≤ lastOrdinal := by
  have hone := d.valid.2.2.2.2.1
  have hbefore := daysBeforeYear_mono (by decide : 1 ≤ 2) h.1
  have hday := d.daysBeforeMonth_add_day_le
  have hsucc := daysBeforeYear_succ d.valid.1
  have hafter := daysBeforeYear_mono (show 1 ≤ d.year + 1 by omega) (show d.year + 1 ≤ 9999 by
    have := h.2
    omega)
  have htwo : daysBeforeYear 2 = 365 := by decide
  have hlast : daysBeforeYear 9999 + 365 = lastOrdinal := by decide
  rw [toOrdinal_eq]
  omega

end Date

namespace Datetime

theorem ofClockMicros_isSome (date : Date) {micros : Nat} (h : micros < dayMicros) :
    (ofClockMicros date micros).isSome := by
  unfold ofClockMicros ofFields
  unfold dayMicros at *
  rw [dif_pos ⟨by omega, by omega, by omega, by omega, by decide⟩]
  rfl

variable {t : Datetime}

theorem astimezoneUtc_ok (h : 1 < t.date.toOrdinal) (h' : t.date.toOrdinal < Date.lastOrdinal) :
    ∃ utc, t.astimezoneUtc = .ok utc := by
  obtain ⟨-, -, -, -, hoffset⟩ := t.valid
  have hclock := t.clockMicros_lt
  unfold astimezoneUtc
  dsimp only
  have hsome : (if (t.clockMicros : Int) - t.utcoffset < 0 then
      t.date.yesterday.bind
      (ofClockMicros · ((t.clockMicros : Int) - t.utcoffset + dayMicros).toNat)
    else if (dayMicros : Int) ≤ t.clockMicros - t.utcoffset then
      t.date.tomorrow.bind (ofClockMicros · ((t.clockMicros : Int) - t.utcoffset - dayMicros).toNat)
    else ofClockMicros t.date ((t.clockMicros : Int) - t.utcoffset).toNat).isSome := by
    split_ifs with hbefore hafter
    · obtain ⟨date, hdate⟩ := Option.isSome_iff_exists.mp (Date.yesterday_isSome_of_lt h)
      rw [hdate]
      exact ofClockMicros_isSome date (by omega)
    · obtain ⟨date, hdate⟩ := Option.isSome_iff_exists.mp (Date.tomorrow_isSome h')
      rw [hdate]
      exact ofClockMicros_isSome date (by omega)
    · exact ofClockMicros_isSome t.date (by omega)
  obtain ⟨utc, hutc⟩ := Option.isSome_iff_exists.mp hsome
  rw [hutc]
  exact ⟨utc, rfl⟩

theorem date_near {t' : Datetime} (h : t'.instant = t.instant) :
    t.date.toOrdinal ≤ t'.date.toOrdinal + 2 ∧ t'.date.toOrdinal ≤ t.date.toOrdinal + 2 := by
  obtain ⟨-, -, -, -, hoffset⟩ := t.valid
  obtain ⟨-, -, -, -, hoffset'⟩ := t'.valid
  have hclock := t.clockMicros_lt
  have hclock' := t'.clockMicros_lt
  rw [instant_eq, instant_eq] at h
  unfold dayMicros at *
  omega

theorem ofInstant_ok (near : Date) {instant utcoffset : Int}
    (hoffset : utcoffset.natAbs < dayMicros) (h : 1 ≤ (instant + utcoffset) / dayMicros)
    (h' : (instant + utcoffset) / dayMicros ≤ Date.lastOrdinal) :
    ∃ t, ofInstant near instant utcoffset = .ok t := by
  unfold ofInstant
  dsimp only
  generalize instant + utcoffset = wall at *
  have hmod := Int.emod_lt_of_pos wall (show (0 : Int) < dayMicros by decide)
  obtain ⟨date, hdate⟩ := Option.isSome_iff_exists.mp
    (Date.addDays_isSome (d := near) (n := wall / dayMicros - near.toOrdinal) (by omega) (by omega))
  have hfields : (ofFields date ((wall % dayMicros).toNat / 3600000000)
      ((wall % dayMicros).toNat / 60000000 % 60) ((wall % dayMicros).toNat / 1000000 % 60)
      ((wall % dayMicros).toNat % 1000000) utcoffset).isSome := by
    unfold ofFields
    unfold dayMicros at *
    rw [dif_pos ⟨by omega, by omega, by omega, by omega, hoffset⟩]
    rfl
  obtain ⟨t, ht⟩ := Option.isSome_iff_exists.mp hfields
  rw [hdate, Option.bind_some, ht]
  exact ⟨t, rfl⟩

theorem astimezone_ok (h : t.date.Central) {utcoffset : Int}
    (hoffset : utcoffset.natAbs < dayMicros) : ∃ t', t.astimezone utcoffset = .ok t' := by
  obtain ⟨hfirst, hlast⟩ := h.toOrdinal
  obtain ⟨utc, hutc⟩ := t.astimezoneUtc_ok (by omega) (by omega)
  have hinstant := instant_astimezoneUtc hutc
  have hclock := t.clockMicros_lt
  obtain ⟨-, -, -, -, hoffset'⟩ := t.valid
  unfold astimezone
  rw [hutc]
  refine ofInstant_ok utc.date hoffset ?_ ?_
  · rw [hinstant, instant_eq]
    unfold dayMicros at *
    omega
  · rw [hinstant, instant_eq]
    unfold dayMicros at *
    omega

end Datetime

end Dayjaview
