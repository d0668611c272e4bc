import Dayjaview.Core.Utc

/-!
# Adding durations

A duration is added to the wall clock of a timestamp, which keeps its offset.
The date moves day by day and is missing beyond the ends of the calendar. Later
dates have larger ordinals, so that the wall clocks of one offset show their
instants in order.
-/

namespace Dayjaview

namespace Date

variable {n : Nat} {a d : Date}

theorem daysBeforeMonth_mono (year : Nat) {m : Nat} (hm : 1 ≤ m) (h : m ≤ n) :
    daysBeforeMonth year m ≤ daysBeforeMonth year n := by
  induction n, h using Nat.le_induction with
  | base => exact le_rfl
  | succ n hmn ih =>
    have hsucc := daysBeforeMonth_succ year (show 1 ≤ n by omega)
    omega

theorem daysBeforeMonth_add_le (year : Nat) {m : Nat} (hm : 1 ≤ m) (h : m < n) :
    daysBeforeMonth year m + daysInMonth year m ≤ daysBeforeMonth year n := by
  have hmono := daysBeforeMonth_mono year (show 1 ≤ m + 1 by omega) (show m + 1 ≤ n from h)
  have hsucc := daysBeforeMonth_succ year hm
  omega

theorem daysBeforeYear_mono {m : Nat} (hm : 1 ≤ m) (h : m ≤ n) :
    daysBeforeYear m ≤ daysBeforeYear n := by
  induction n, h using Nat.le_induction with
  | base => exact le_rfl
  | succ n hmn ih =>
    have hsucc := daysBeforeYear_succ (show 1 ≤ n by omega)
    omega

theorem daysBeforeMonth_add_day_le (d : Date) :
    daysBeforeMonth d.year d.month + d.day ≤ daysBeforeMonth d.year 12 + 31 := by
  obtain ⟨-, -, hmonth, hmonth', -, hday⟩ := d.valid
  rcases hmonth'.lt_or_eq with hlt | heq
  · have hle := daysBeforeMonth_add_le d.year hmonth hlt
    omega
  · rw [heq] at hday ⊢
    have hlast : daysInMonth d.year 12 = 31 := rfl
    omega

theorem toOrdinal_lt {b : Date} (h : a < b) : a.toOrdinal < b.toOrdinal := by
  have hkey : a.key < b.key := h
  simp only [key, Prod.Lex.toLex_lt_toLex] at hkey
  obtain ⟨hyear, -, hmonth, -, -, hday⟩ := a.valid
  obtain ⟨-, -, hmonth', -, hday', -⟩ := b.valid
  rw [toOrdinal_eq, toOrdinal_eq]
  rcases hkey with hlt | ⟨heq, hlt | ⟨heq', hlt⟩⟩
  · have hlast := a.daysBeforeMonth_add_day_le
    have hsucc := daysBeforeYear_succ hyear
    have hmono := daysBeforeYear_mono (show 1 ≤ a.year + 1 by omega) hlt
    omega
  · have hle := daysBeforeMonth_add_le a.year hmonth hlt
    rw [← heq]
    omega
  · rw [← heq, ← heq']
    omega

theorem toOrdinal_strictMono : StrictMono toOrdinal := fun _ _ h => toOrdinal_lt h

theorem toOrdinal_le_iff {b : Date} : a.toOrdinal ≤ b.toOrdinal ↔ a ≤ b :=
  toOrdinal_strictMono.le_iff_le

/-- The date some days later, when the calendar has it. -/
def later (d : Date) : Nat → Option Date
  | 0 => some d
  | n + 1 => (d.later n).bind tomorrow

/-- The date some days earlier, when the calendar has it. -/
def earlier (d : Date) : Nat → Option Date
  | 0 => some d
  | n + 1 => (d.earlier n).bind yesterday

/-- The date some days away, when the calendar has it. -/
def addDays (d : Date) : Int → Option Date
  | .ofNat n => d.later n
  | .negSucc n => d.earlier (n + 1)

theorem toOrdinal_later {d' : Date} (h : d.later n = some d') :
    d'.toOrdinal = d.toOrdinal + n := by
  induction n generalizing d' with
  | zero =>
    cases h
    rfl
  | succ n ih =>
    obtain ⟨mid, hmid, hlast⟩ := Option.bind_eq_some_iff.mp h
    have hstep := toOrdinal_tomorrow hlast
    have hbefore := ih hmid
    omega

theorem toOrdinal_earlier {d' : Date} (h : d.earlier n = some d') :
    d'.toOrdinal + n = d.toOrdinal := by
  induction n generalizing d' with
  | zero =>
    cases h
    rfl
  | succ n ih =>
    obtain ⟨mid, hmid, hlast⟩ := Option.bind_eq_some_iff.mp h
    have hstep := toOrdinal_yesterday hlast
    have hbefore := ih hmid
    omega

theorem one_le_toOrdinal (d : Date) : 1 ≤ d.toOrdinal := by
  obtain ⟨-, -, -, -, hday, -⟩ := d.valid
  rw [toOrdinal_eq]
  omega

theorem yesterday_isSome (h : a < d) : d.yesterday.isSome := by
  obtain ⟨hyear, hyear', hmonth, hmonth', hday, hday'⟩ := d.valid
  have hofFields : ∀ {year month day : Nat}, ValidDate year month day →
      (ofFields year month day).isSome := by
    intro year month day hvalid
    simp [ofFields, hvalid]
  unfold yesterday
  split_ifs with hfirst hjanuary
  · exact hofFields ⟨hyear, hyear', hmonth, hmonth', by omega, by omega⟩
  · have hdays : 1 ≤ daysInMonth d.year (d.month - 1) := by
      unfold daysInMonth
      repeat' split
      all_goals omega
    exact hofFields ⟨hyear, hyear', by omega, by omega, hdays, le_rfl⟩
  · have hyear1 : 1 < d.year := by
      by_contra hnot
      have hd : d.toOrdinal = 1 := by
        rw [toOrdinal_eq, show d.year = 1 by omega, show d.month = 1 by omega,
          show d.day = 1 by omega]
        rfl
      have hordinal := toOrdinal_lt h
      have hone := a.one_le_toOrdinal
      omega
    exact hofFields ⟨by omega, by omega, by omega, by omega, by omega, le_of_eq rfl⟩

theorem earlier_isSome (h : a.toOrdinal + n ≤ d.toOrdinal) :
    (d.earlier n).isSome := by
  induction n with
  | zero => rfl
  | succ n ih =>
    obtain ⟨mid, hmid⟩ := Option.isSome_iff_exists.mp (ih (by omega))
    have hordinal := toOrdinal_earlier hmid
    have hlt : a < mid := by
      rw [← toOrdinal_strictMono.lt_iff_lt]
      omega
    rw [earlier, hmid]
    exact yesterday_isSome hlt

theorem earlier_eq_some (h : a.toOrdinal + n = d.toOrdinal) :
    d.earlier n = some a := by
  obtain ⟨d', hd'⟩ := Option.isSome_iff_exists.mp (earlier_isSome h.le)
  have hordinal := toOrdinal_earlier hd'
  rw [hd', toOrdinal_strictMono.injective (show d'.toOrdinal = a.toOrdinal by omega)]

theorem toOrdinal_addDays {d' : Date} {n : Int} (h : d.addDays n = some d') :
    (d'.toOrdinal : Int) = d.toOrdinal + n := by
  cases n with
  | ofNat n =>
    have hlater := toOrdinal_later h
    simp only [Int.ofNat_eq_natCast]
    omega
  | negSucc n =>
    have hearlier := toOrdinal_earlier h
    omega

end Date

namespace Datetime

/-- The timestamp of an instant by a clock with an offset, the date counted from a near one. -/
def ofInstant (near : Date) (instant utcoffset : Int) : Except Error Datetime :=
  let wall := instant + utcoffset
  let clock := (wall % dayMicros).toNat
  match (near.addDays (wall / dayMicros - near.toOrdinal)).bind fun date =>
      ofFields date (clock / 3600000000) (clock / 60000000 % 60) (clock / 1000000 % 60)
        (clock % 1000000) utcoffset with
  | some t => .ok t
  | none => .error ⟨.overflowError, "date value out of range"⟩

/-- Add a duration, in microseconds. -/
def plus (t : Datetime) (delta : Int) : Except Error Datetime :=
  ofInstant t.date (t.instant + delta) t.utcoffset

/-- The same instant by a clock with another offset. -/
def astimezone (t : Datetime) (utcoffset : Int) : Except Error Datetime := do
  let utc ← t.astimezoneUtc
  ofInstant utc.date utc.instant utcoffset

theorem clockMicros_lt (t : Datetime) : t.clockMicros < dayMicros := by
  obtain ⟨hhour, hminute, hsecond, hmicro, -⟩ := t.valid
  unfold clockMicros dayMicros
  omega

theorem instant_ofInstant {near : Date} {instant utcoffset : Int} {t : Datetime}
    (h : ofInstant near instant utcoffset = .ok t) :
    t.instant = instant ∧ t.utcoffset = utcoffset := by
  unfold ofInstant at h
  dsimp only at h
  split at h
  · next hmoved =>
    cases h
    obtain ⟨date, hdate, hfields⟩ := Option.bind_eq_some_iff.mp hmoved
    have hordinal := Date.toOrdinal_addDays hdate
    unfold ofFields at hfields
    split at hfields
    · next hvalid =>
      cases hfields
      refine ⟨?_, rfl⟩
      generalize hwall : instant + utcoffset = wall at *
      have hsplit := Int.mul_ediv_add_emod wall dayMicros
      have hpos : 0 ≤ wall % (dayMicros : Int) := Int.emod_nonneg _ (by decide)
      generalize hclock : (wall % (dayMicros : Int)).toNat = clock at *
      have hmicros : ((clock / 3600000000 * 60 + clock / 60000000 % 60) * 60 +
          clock / 1000000 % 60) * 1000000 + clock % 1000000 = clock := by omega
      rw [instant_eq]
      simp only [clockMicros, hmicros, hordinal]
      linarith [Int.toNat_of_nonneg hpos]
    · cases hfields
  · cases h

theorem instant_plus {t t' : Datetime} {delta : Int} (h : t.plus delta = .ok t') :
    t'.instant = t.instant + delta := (instant_ofInstant h).1

theorem instant_astimezone {t t' : Datetime} {utcoffset : Int}
    (h : t.astimezone utcoffset = .ok t') :
    t'.instant = t.instant ∧ t'.utcoffset = utcoffset := by
  obtain ⟨utc, hutc, hmoved⟩ := bind_eq_ok.mp h
  obtain ⟨hinstant, hutcoffset⟩ := instant_ofInstant hmoved
  exact ⟨hinstant.trans (instant_astimezoneUtc hutc), hutcoffset⟩

theorem date_le_of_instant_le {a b : Datetime} (hoffset : a.utcoffset = b.utcoffset)
    (h : a ≤ b) : a.date ≤ b.date := by
  rw [← Date.toOrdinal_le_iff]
  have hle := le_def.mp h
  rw [a.instant_eq, b.instant_eq] at hle
  have ha := a.clockMicros_lt
  have hb := b.clockMicros_lt
  unfold dayMicros at *
  omega

end Datetime

end Dayjaview
