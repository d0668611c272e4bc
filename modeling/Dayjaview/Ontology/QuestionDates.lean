import Dayjaview.Core.DecimalDigits
import Dayjaview.Core.Patterns
import Dayjaview.Historical.Backfill
import Dayjaview.Ontology.EventClauses
import Dayjaview.Ontology.QueryPlans
import Mathlib.Order.Bounds.Basic

/-!
# The dates of a question

A question names days in full, by words, and by a month and a day. A day without a year is looked
for in the current year, and when it lies ahead in the year before. That is the latest such day,
but for the twenty-ninth of February. A year, a word or a day that leads out of the calendar ends
the search with an error.
-/

namespace Dayjaview.Ontology

open Pattern Scanning

/-- A pattern, and the characters that do not stand before its match. -/
structure DatePattern where
  barred : Char → Bool
  pattern : Pattern

def isAsciiDigit (c : Char) : Bool := c.isDigit

/-- A digit, or what stands between the numbers of a date. -/
def isDatePart (c : Char) : Bool := isAsciiDigit c || ['.', '/', '-'].elem c

def digit : Pattern := one isDecimal

def fourDigits : Pattern := sequence [digit, digit, digit, digit]

def twoDigits : Pattern := either (seq digit digit) digit

def spaces : Pattern := many isSpace

def ISO_DATE_RE : DatePattern :=
  ⟨isAsciiDigit, sequence [fourDigits, one ['-', '.', '/'].elem, twoDigits,
    one ['-', '.', '/'].elem, twoDigits, notNext isAsciiDigit]⟩

def KOREAN_DATE_RE : DatePattern :=
  ⟨fun _ => false, sequence [fourDigits, spaces, sign '년', spaces, twoDigits, spaces, sign '월',
    spaces, twoDigits, spaces, sign '일']⟩

def KOREAN_MONTH_DAY_RE : DatePattern :=
  ⟨isAsciiDigit, sequence [twoDigits, spaces, sign '월', spaces, twoDigits, spaces, sign '일']⟩

def SHORT_DATE_RE : DatePattern :=
  ⟨isDatePart, sequence [twoDigits, one ['/', '.'].elem, twoDigits, notNext isDatePart]⟩

/-- Where a match ends that begins at a place. -/
def DatePattern.fits (r : DatePattern) (text : List Char) (place : Nat) : Option Nat :=
  if (text.take place).getLast?.any r.barred then none
  else ((r.pattern.lengths (text.drop place)).head?).map (place + ·)

def numbersIn (text : List Char) : List Nat :=
  ((text.splitOnP fun c => !isDecimal c).filter fun run => !run.isEmpty).map digitsValue

/-- A date as it is written: where it stands and its numbers. -/
structure DateLiteral where
  start : Nat
  stop : Nat
  numbers : List Nat
  deriving DecidableEq

/-- What a literal takes of the question. -/
def DateLiteral.text (l : DateLiteral) (text : List Char) : String :=
  String.ofList ((text.take l.stop).drop l.start)

/-- The dates that are written in a way. -/
def DatePattern.literals (r : DatePattern) (text : List Char) : List DateLiteral :=
  (finditer (r.fits text) 0 text.length).map fun m =>
    ⟨m.1, m.2, numbersIn ((text.take m.2).drop m.1)⟩

/-- The day with some numbers; numbers that name no day are no error, but the year 0 is one. -/
def clampDay (year month day : Nat) : Except Error (Option Date) :=
  if ¬(1 ≤ month ∧ month ≤ 12) then .ok none
  else if ¬(1 ≤ day ∧ day ≤ daysInMonth year month) then .ok none
  else match Date.ofFields year month day with
    | some value => .ok (some value)
    | none => .error ⟨.valueError, s!"year {year} is out of range"⟩

/-- A date of a question, and where it is written. -/
structure FoundDate where
  slot : DateSlot
  start : Nat
  stop : Nat

/-- A literal touches a date that was found. -/
def Masked (found : List FoundDate) (l : DateLiteral) : Prop :=
  ∃ f ∈ found, l.start < f.stop ∧ f.start < l.stop

instance (found : List FoundDate) (l : DateLiteral) : Decidable (Masked found l) :=
  inferInstanceAs (Decidable (∃ f ∈ found, _))

/-- Take a day unless it touches one that was found. -/
def takeDate (text : List Char) (l : DateLiteral) (value : Date)
    (expression : Option RelativeExpression) (found : List FoundDate) : List FoundDate :=
  if Masked found l then found else found ++ [⟨⟨value, l.text text, expression⟩, l.start, l.stop⟩]

/-- Take a date that is written with its year. -/
def takeYearDate (text : List Char) (found : List FoundDate) (l : DateLiteral) :
    Except Error (List FoundDate) :=
  match l.numbers with
  | [year, month, day] => do
    match ← clampDay year month day with
    | some value => return takeDate text l value none found
    | none => return found
  | _ => .ok found

/-- Words for a day, with how many days it lies back. -/
def relativeMarkers (today : Date) : List (String × RelativeExpression × Nat) :=
  let back (weekday : Nat) : Nat :=
    let delta := (Historical.weekday today + 7 - weekday) % 7
    if delta = 0 then 7 else delta
  [("지난 월요일", .lastMonday, back 0), ("지난 화요일", .lastTuesday, back 1),
    ("지난 수요일", .lastWednesday, back 2), ("지난 목요일", .lastThursday, back 3),
    ("지난 금요일", .lastFriday, back 4), ("전 거래일", .previousTradingDay, 1),
    ("직전 거래일", .previousTradingDay, 1), ("지난 거래일", .previousTradingDay, 1),
    ("그저께", .dayBeforeYesterday, 2), ("그제", .dayBeforeYesterday, 2),
    ("그저깨", .dayBeforeYesterday, 2), ("어제", .yesterday, 1), ("어저께", .yesterday, 1),
    ("전일", .yesterday, 1), ("오늘", .today, 0), ("금일", .today, 0), ("지금", .today, 0),
    ("현재", .today, 0)]

/-- Take the day that a word stands for. -/
def takeRelative (text : List Char) (today : Date) (found : List FoundDate)
    (m : String × RelativeExpression × Nat) : Except Error (List FoundDate) :=
  match findText text m.1.toList with
  | none => .ok found
  | some place =>
    match today.earlier m.2.2 with
    | none => .error ⟨.overflowError, "date value out of range"⟩
    | some value =>
      .ok (takeDate text ⟨place, place + m.1.toList.length, []⟩ value (some m.2.1) found)

/-- Take a date that is written without its year. -/
def takeMonthDay (text : List Char) (today : Date) (found : List FoundDate) (l : DateLiteral) :
    Except Error (List FoundDate) :=
  match l.numbers with
  | [month, day] => do
    match ← clampDay today.year month day with
    | none => return found
    | some value =>
      if today < value then
        let earlier ← clampDay (today.year - 1) month day
        return takeDate text l (earlier.getD value) none found
      else return takeDate text l value none found
  | _ => .ok found

/-- The dates that are found before those without a year. -/
def datesBefore (text : List Char) (today : Date) : Except Error (List FoundDate) := do
  let found ← (KOREAN_DATE_RE.literals text).foldlM (takeYearDate text) []
  let found ← (ISO_DATE_RE.literals text).foldlM (takeYearDate text) found
  (relativeMarkers today).foldlM (takeRelative text today) found

/-- The dates that are written without a year. -/
def monthDays (text : List Char) : List DateLiteral :=
  KOREAN_MONTH_DAY_RE.literals text ++ SHORT_DATE_RE.literals text

def findDates (text : String) (today : Date) : Except Error (List FoundDate) := do
  let found ← datesBefore text.toList today
  let found ← (monthDays text.toList).foldlM (takeMonthDay text.toList today) found
  return found.insertionSort fun a b => a.start ≤ b.start

variable {text : List Char} {today value : Date} {found found' : List FoundDate} {l : DateLiteral}
  {month day : Nat}

/-- The latest day of a month and a day that does not lie ahead. -/
def IsLatest (today : Date) (month day : Nat) : Date → Prop :=
  IsGreatest {d : Date | d.month = month ∧ d.day = day ∧ d ≤ today}

/-- Some year has a month and a day. -/
def Possible (month day : Nat) : Prop := ∃ year, ValidDate year month day

/-- A date without a year is met, with the dates that are found so far, and touches none of them. -/
def Reached (text : String) (today : Date) (l : DateLiteral) (found : List FoundDate) : Prop :=
  (∃ before after, monthDays text.toList = before ++ l :: after ∧
    (datesBefore text.toList today >>= before.foldlM (takeMonthDay text.toList today)) =
      .ok found) ∧ ¬Masked found l

/-- The date that a literal is taken as. -/
def DateLiteral.taken (l : DateLiteral) (text : List Char) (value : Date) : FoundDate :=
  ⟨⟨value, l.text text, none⟩, l.start, l.stop⟩

/-- A month and a day of some year are taken as the latest day, which stays among the dates of the
question. -/
def TakenRight (text : String) (today : Date) (l : DateLiteral) (found all : List FoundDate) :
    Prop :=
  ∀ month day, l.numbers = [month, day] → Possible month day →
    ∃ value, IsLatest today month day value ∧
      takeMonthDay text.toList today found l = .ok (found ++ [l.taken text.toList value]) ∧
        l.taken text.toList value ∈ all

/-- The dates of a question are found, and those without a year are the latest days. -/
def FindsLatest (text : String) (today : Date) : Prop :=
  ∃ all, findDates text today = .ok all ∧
    ∀ l found, Reached text today l found → TakenRight text today l found all

/-- A month and a day come later in the year than a date. -/
def Ahead (today : Date) (month day : Nat) : Prop :=
  today.month < month ∨ today.month = month ∧ today.day < day

/-- The current year has a month and a day, and the year before does when the day lies ahead. -/
def InReach (today : Date) (month day : Nat) : Prop :=
  (month = 2 ∧ day = 29 → isLeap today.year = true) ∧
    (Ahead today month day → ¬(month = 2 ∧ day = 29) ∧ today.year ≠ 1)

/-- The month has such a day in a year, were the year one of the calendar. -/
def Named (year month day : Nat) : Prop :=
  (1 ≤ month ∧ month ≤ 12) ∧ 1 ≤ day ∧ day ≤ daysInMonth year month

/-- Nothing that is written leads out of the calendar: not a year, which is wrong as `0000` alone,
not a word for a day before its first day, and not a look at the year before its first year. -/
structure InCalendar (text : List Char) (today : Date) : Prop where
  years : ∀ l ∈ KOREAN_DATE_RE.literals text ++ ISO_DATE_RE.literals text, ∀ year month day,
    l.numbers = [year, month, day] → Named year month day → 1 ≤ year ∧ year ≤ 9999
  words : ∀ m ∈ relativeMarkers today, findText text m.1.toList ≠ none → m.2.2 < today.toOrdinal
  first : ∀ l ∈ monthDays text, ∀ month day, l.numbers = [month, day] →
    Named today.year month day → Ahead today month day → today.year ≠ 1

/-- Days are compared by year, month and day. -/
theorem Date.le_iff {a b : Date} :
    a ≤ b ↔ a.year < b.year ∨
      a.year = b.year ∧ (a.month < b.month ∨ a.month = b.month ∧ a.day ≤ b.day) := by
  show a.key ≤ b.key ↔ _
  simp only [Date.key, Prod.Lex.toLex_le_toLex]

variable {year : Nat}

/-- Only the last day of February is not a day of every year. -/
theorem Possible.validDate (h : Possible month day)
    (hleap : month = 2 ∧ day = 29 → isLeap year = true) (hyear : 1 ≤ year ∧ year ≤ 9999) :
    ValidDate year month day := by
  obtain ⟨year', -, -, hmonth, hmonth', hday, hday'⟩ := h
  refine ⟨hyear.1, hyear.2, hmonth, hmonth', hday, ?_⟩
  unfold daysInMonth at hday' ⊢
  by_cases hfeb : month = 2
  · subst hfeb
    simp only at hday' ⊢
    by_cases hlast : day = 29
    · rw [if_pos (hleap ⟨rfl, hlast⟩), hlast]
    · split_ifs at hday' ⊢ <;> omega
  · split at hday' <;> omega

/-- A leap year comes after a common year. -/
theorem isLeap_pred (h : isLeap year = true) (hyear : 1 ≤ year) :
    isLeap (year - 1) = false := by
  unfold isLeap at h ⊢
  have hfour : year % 4 = 0 := by
    simpa using (Bool.and_eq_true_iff.mp h).1
  have hmod : (year - 1) % 4 ≠ 0 := by omega
  simp [hmod]

/-- A day of the calendar is made from its numbers. -/
theorem clampDay_eq (h : ValidDate year month day) :
    clampDay year month day = .ok (some ⟨year, month, day, h⟩) := by
  obtain ⟨-, -, hmonth, hmonth', hday, hday'⟩ := id h
  rw [clampDay, if_neg (not_not.mpr ⟨hmonth, hmonth'⟩), if_neg (not_not.mpr ⟨hday, hday'⟩),
    Date.ofFields, dif_pos h]

/-- A month that has no such day names none. -/
theorem clampDay_of_not_named (h : ¬Named year month day) :
    clampDay year month day = .ok none := by
  unfold clampDay
  split_ifs with hmonth hday
  · exact absurd ⟨hmonth, hday⟩ h
  · rfl
  · rfl

/-- A day that a month has is an error in a year out of the calendar only. -/
theorem clampDay_isOk_iff :
    (∃ value, clampDay year month day = .ok value) ↔
      (Named year month day → 1 ≤ year ∧ year ≤ 9999) := by
  by_cases hnamed : Named year month day
  · obtain ⟨⟨hmonth, hmonth'⟩, hday, hday'⟩ := id hnamed
    constructor
    · rintro ⟨value, h⟩ -
      rw [clampDay, if_neg (not_not.mpr ⟨hmonth, hmonth'⟩), if_neg (not_not.mpr ⟨hday, hday'⟩),
        Date.ofFields] at h
      split_ifs at h with hvalid
      exact ⟨hvalid.1, hvalid.2.1⟩
    · intro h
      obtain ⟨hyear, hyear'⟩ := h hnamed
      exact ⟨_, clampDay_eq ⟨hyear, hyear', hmonth, hmonth', hday, hday'⟩⟩
  · exact ⟨fun _ h => absurd h hnamed, fun _ => ⟨none, clampDay_of_not_named hnamed⟩⟩

/-- A common year has no twenty-ninth of February. -/
theorem clampDay_common (h : isLeap year = false) : clampDay year 2 29 = .ok none := by
  refine clampDay_of_not_named fun hnamed => ?_
  have hday := hnamed.2.2
  rw [daysInMonth, h] at hday
  exact absurd hday (by decide)

private theorem isLatest_of_thisYear (h : ValidDate today.year month day)
    (hle : ⟨today.year, month, day, h⟩ ≤ today) :
    IsLatest today month day ⟨today.year, month, day, h⟩ := by
  refine ⟨⟨rfl, rfl, hle⟩, ?_⟩
  rintro other ⟨hmonth, hday, hother⟩
  rw [Date.le_iff] at hother ⊢
  dsimp only
  omega

private theorem isLatest_of_lastYear (h : ValidDate (today.year - 1) month day)
    (hahead : Ahead today month day) :
    IsLatest today month day ⟨today.year - 1, month, day, h⟩ := by
  have hyear := h.1
  refine ⟨⟨rfl, rfl, Date.le_iff.mpr (.inl ?_)⟩, ?_⟩
  · dsimp only
    omega
  · rintro other ⟨hmonth, hday, hother⟩
    unfold Ahead at hahead
    rw [Date.le_iff] at hother ⊢
    dsimp only
    omega

/-- A day of the current year lies ahead as its month and day do. -/
theorem lt_iff_ahead (h : ValidDate today.year month day) :
    today < ⟨today.year, month, day, h⟩ ↔ Ahead today month day := by
  rw [← not_le, Date.le_iff, Ahead]
  dsimp only
  omega

private theorem takeMonthDay_none (hnumbers : l.numbers = [month, day])
    (h : clampDay today.year month day = .ok none) :
    takeMonthDay text today found l = .ok found := by
  rw [takeMonthDay, hnumbers]
  simp only [h]
  rfl

private theorem takeMonthDay_past (hfree : ¬Masked found l) (hnumbers : l.numbers = [month, day])
    (h : clampDay today.year month day = .ok (some value)) (hle : value ≤ today) :
    takeMonthDay text today found l = .ok (found ++ [l.taken text value]) := by
  rw [takeMonthDay, hnumbers]
  simp only [h]
  show (if today < value then _ else _) = _
  rw [if_neg (not_lt.mpr hle), takeDate, if_neg hfree]
  rfl

private theorem takeMonthDay_ahead (hfree : ¬Masked found l) (hnumbers : l.numbers = [month, day])
    (h : clampDay today.year month day = .ok (some value)) (hlt : today < value)
    {earlier : Option Date} (hearlier : clampDay (today.year - 1) month day = .ok earlier) :
    takeMonthDay text today found l = .ok (found ++ [l.taken text (earlier.getD value)]) := by
  rw [takeMonthDay, hnumbers]
  simp only [h]
  show (if today < value then _ else _) = _
  rw [if_pos hlt, hearlier]
  show Except.ok (takeDate text l (earlier.getD value) none found) = _
  rw [takeDate, if_neg hfree]
  rfl

/-- A date without a year is taken as the latest day exactly when the two years have it. -/
theorem takesLatest_iff (hfree : ¬Masked found l) (hnumbers : l.numbers = [month, day])
    (hpossible : Possible month day) :
    (∃ value, IsLatest today month day value ∧
      takeMonthDay text today found l = .ok (found ++ [l.taken text value])) ↔
      InReach today month day := by
  obtain ⟨hyear, hyear', -⟩ := today.valid
  by_cases hleap : month = 2 ∧ day = 29 → isLeap today.year = true
  · have hvalid := hpossible.validDate hleap ⟨hyear, hyear'⟩
    have hclamp := clampDay_eq hvalid
    by_cases hahead : Ahead today month day
    · have hlt := (lt_iff_ahead hvalid).mpr hahead
      constructor
      · rintro ⟨value, hlatest, htaken⟩
        refine ⟨hleap, fun _ => ⟨?_, ?_⟩⟩
        · -- The year before has no such day, and the day that lies ahead is taken.
          rintro ⟨rfl, rfl⟩
          have hcommon := clampDay_common (isLeap_pred (hleap ⟨rfl, rfl⟩) hyear)
          rw [takeMonthDay_ahead hfree hnumbers hclamp hlt hcommon] at htaken
          have hvalue : (⟨today.year, 2, 29, hvalid⟩ : Date) = value := by
            simpa [DateLiteral.taken] using htaken
          exact absurd (hvalue ▸ hlatest.1.2.2) (not_le.mpr hlt)
        · intro hfirst
          obtain ⟨hmonth, hday, hle⟩ := hlatest.1
          have hpositive := value.valid.1
          rw [Date.le_iff] at hle
          unfold Ahead at hahead
          omega
      · rintro ⟨-, hback⟩
        obtain ⟨hlast, hfirst⟩ := hback hahead
        have hbefore := hpossible.validDate (fun h => absurd h hlast)
          (show 1 ≤ today.year - 1 ∧ _ by omega)
        exact ⟨_, isLatest_of_lastYear hbefore hahead,
          takeMonthDay_ahead hfree hnumbers hclamp hlt (clampDay_eq hbefore)⟩
    · have hle := not_lt.mp fun hlt => hahead ((lt_iff_ahead hvalid).mp hlt)
      exact ⟨fun _ => ⟨hleap, fun h => absurd h hahead⟩,
        fun _ => ⟨_, isLatest_of_thisYear hvalid hle, takeMonthDay_past hfree hnumbers hclamp hle⟩⟩
  · obtain ⟨⟨rfl, rfl⟩, hcommon⟩ := Classical.not_imp.mp hleap
    constructor
    · rintro ⟨value, -, htaken⟩
      rw [takeMonthDay_none hnumbers (clampDay_common (Bool.eq_false_iff.mpr hcommon))] at htaken
      simp at htaken
    · rintro ⟨h, -⟩
      exact absurd h hleap

private theorem subset_takeDate {expression : Option RelativeExpression} :
    found ⊆ takeDate text l value expression found := by
  unfold takeDate
  split
  · exact List.Subset.refl _
  · exact List.subset_append_left _ _

private theorem subset_takeMonthDay (h : takeMonthDay text today found l = .ok found') :
    found ⊆ found' := by
  unfold takeMonthDay at h
  split at h
  · obtain ⟨this, -, h⟩ := bind_eq_ok.mp h
    cases this with
    | none =>
      cases h
      exact List.Subset.refl _
    | some value =>
      dsimp only at h
      split at h
      · obtain ⟨earlier, -, h⟩ := bind_eq_ok.mp h
        cases h
        exact subset_takeDate
      · cases h
        exact subset_takeDate
  · cases h
    exact List.Subset.refl _

private theorem subset_foldlM (ls : List DateLiteral)
    (h : ls.foldlM (takeMonthDay text today) found = .ok found') : found ⊆ found' := by
  induction ls generalizing found with
  | nil =>
    cases h
    exact List.Subset.refl _
  | cons l ls ih =>
    obtain ⟨next, hnext, h⟩ := bind_eq_ok.mp h
    exact List.Subset.trans (subset_takeMonthDay hnext) (ih h)

/-- What is taken stays among the dates of the question. -/
theorem mem_findDates {text : String} {all : List FoundDate} {f : FoundDate}
    (h : Reached text today l found) (htaken : takeMonthDay text.toList today found l = .ok found')
    (hf : f ∈ found') (hall : findDates text today = .ok all) : f ∈ all := by
  obtain ⟨⟨before, after, hsplit, hfound⟩, -⟩ := h
  obtain ⟨start, hstart, hall⟩ := bind_eq_ok.mp hall
  obtain ⟨rest, hrest, hall⟩ := bind_eq_ok.mp hall
  cases hall
  rw [hstart] at hfound
  have hbefore : before.foldlM (takeMonthDay text.toList today) start = .ok found := hfound
  rw [hsplit, List.foldlM_append, hbefore] at hrest
  obtain ⟨next, hnext, hrest⟩ :=
    bind_eq_ok.mp (show (l :: after).foldlM (takeMonthDay text.toList today) found = .ok rest from
      hrest)
  cases htaken.symm.trans hnext
  exact (List.perm_insertionSort _ _).mem_iff.mpr (subset_foldlM after hrest hf)

/-- A written date is no error when its year is one of the calendar. -/
theorem takeYearDate_isOk_iff :
    (∃ next, takeYearDate text found l = .ok next) ↔ ∀ year month day,
      l.numbers = [year, month, day] → Named year month day → 1 ≤ year ∧ year ≤ 9999 := by
  unfold takeYearDate
  split
  · next year month day hnumbers =>
    rw [hnumbers]
    refine Iff.trans ⟨?_, ?_⟩ (clampDay_isOk_iff.trans ⟨?_, fun h => h year month day rfl⟩)
    · rintro ⟨next, h⟩
      obtain ⟨value, hvalue, -⟩ := bind_eq_ok.mp h
      exact ⟨value, hvalue⟩
    · rintro ⟨value, hvalue⟩
      rw [hvalue]
      cases value with
      | none => exact ⟨_, rfl⟩
      | some value => exact ⟨_, rfl⟩
    · rintro h _ _ _ ⟨⟩
      exact h
  · next hnone =>
    exact ⟨fun _ year month day h => absurd h (hnone year month day), fun _ => ⟨_, rfl⟩⟩

/-- A word is no error when its day is one of the calendar. -/
theorem takeRelative_isOk_iff {m : String × RelativeExpression × Nat} :
    (∃ next, takeRelative text today found m = .ok next) ↔
      (findText text m.1.toList ≠ none → m.2.2 < today.toOrdinal) := by
  have hfirst : (⟨1, 1, 1, by decide⟩ : Date).toOrdinal = 1 := rfl
  unfold takeRelative
  cases findText text m.1.toList with
  | none => exact ⟨fun _ h => absurd rfl h, fun _ => ⟨_, rfl⟩⟩
  | some place =>
    dsimp only
    constructor
    · rintro ⟨next, h⟩ -
      split at h
      · cases h
      · next value hvalue =>
        have hordinal := Date.toOrdinal_earlier hvalue
        have hone := value.one_le_toOrdinal
        omega
    · intro h
      have hlt := h (Option.some_ne_none _)
      obtain ⟨value, hvalue⟩ := Option.isSome_iff_exists.mp (Date.earlier_isSome
        (a := ⟨1, 1, 1, by decide⟩) (d := today) (n := m.2.2) (by omega))
      rw [hvalue]
      exact ⟨_, rfl⟩

/-- A date without a year is no error unless the year before the first is looked at. -/
theorem takeMonthDay_isOk_iff :
    (∃ next, takeMonthDay text today found l = .ok next) ↔ ∀ month day, l.numbers = [month, day] →
      Named today.year month day → Ahead today month day → today.year ≠ 1 := by
  obtain ⟨hyear, hyear', -⟩ := today.valid
  unfold takeMonthDay
  split
  · next month day hnumbers =>
    rw [hnumbers]
    by_cases hnamed : Named today.year month day
    · obtain ⟨⟨hmonth, hmonth'⟩, hday, hday'⟩ := id hnamed
      have hvalid : ValidDate today.year month day := ⟨hyear, hyear', hmonth, hmonth', hday, hday'⟩
      simp only [clampDay_eq hvalid]
      change (∃ next, (if today < ⟨today.year, month, day, hvalid⟩ then _ else _) =
        Except.ok next) ↔ _
      split_ifs with hlt
      · have hahead := (lt_iff_ahead hvalid).mp hlt
        constructor
        · rintro ⟨next, h⟩ _ _ ⟨⟩ - - hone
          -- the year 0 has every day of the year 1
          obtain ⟨value, hvalue, -⟩ := bind_eq_ok.mp h
          rw [hone] at hvalue hday'
          refine absurd (clampDay_isOk_iff.mp ⟨value, hvalue⟩ ⟨⟨hmonth, hmonth'⟩, hday, ?_⟩)
            (by simp)
          refine hday'.trans ?_
          interval_cases month <;> decide
        · intro h
          have hone := h month day rfl hnamed hahead
          obtain ⟨value, hvalue⟩ := clampDay_isOk_iff.mpr
            fun _ : Named (today.year - 1) month day => show 1 ≤ today.year - 1 ∧ _ by omega
          exact ⟨_, bind_eq_ok.mpr ⟨value, hvalue, rfl⟩⟩
      · refine ⟨?_, fun _ => ⟨_, rfl⟩⟩
        rintro - _ _ ⟨⟩ - h
        exact absurd ((lt_iff_ahead hvalid).mpr h) hlt
    · rw [clampDay_of_not_named hnamed]
      refine ⟨?_, fun _ => ⟨_, rfl⟩⟩
      rintro - _ _ ⟨⟩ h
      exact absurd h hnamed
  · next hnone => exact ⟨fun _ month day h => absurd h (hnone month day), fun _ => ⟨_, rfl⟩⟩

/-- The dates of a question are found exactly when nothing leads out of the calendar. -/
theorem findDates_isOk_iff (text : String) (today : Date) :
    (∃ all, findDates text today = .ok all) ↔ InCalendar text.toList today := by
  have hyears : ∀ (ls : List DateLiteral) found,
      (∃ next, ls.foldlM (takeYearDate text.toList) found = .ok next) ↔
      ∀ l ∈ ls, ∀ year month day, l.numbers = [year, month, day] → Named year month day →
        1 ≤ year ∧ year ≤ 9999 := by
    intro as found
    refine foldlM_isOk_iff fun found a => ?_
    exact takeYearDate_isOk_iff
  have hwords : ∀ (ms : List (String × RelativeExpression × Nat)) found,
      (∃ next, ms.foldlM (takeRelative text.toList today) found = .ok next) ↔
      ∀ m ∈ ms, findText text.toList m.1.toList ≠ none → m.2.2 < today.toOrdinal := by
    intro as found
    refine foldlM_isOk_iff fun found a => ?_
    exact takeRelative_isOk_iff
  have hfirst : ∀ (ls : List DateLiteral) found,
      (∃ next, ls.foldlM (takeMonthDay text.toList today) found = .ok next) ↔
      ∀ l ∈ ls, ∀ month day, l.numbers = [month, day] → Named today.year month day →
        Ahead today month day → today.year ≠ 1 := by
    intro as found
    refine foldlM_isOk_iff fun found a => ?_
    exact takeMonthDay_isOk_iff
  constructor
  · rintro ⟨all, h⟩
    obtain ⟨found, hbefore, h⟩ := bind_eq_ok.mp h
    obtain ⟨all, hall, -⟩ := bind_eq_ok.mp h
    obtain ⟨korean, hkorean, hbefore⟩ := bind_eq_ok.mp hbefore
    obtain ⟨iso, hiso, hrelative⟩ := bind_eq_ok.mp hbefore
    refine ⟨fun l hl => ?_, (hwords _ _).mp ⟨_, hrelative⟩, (hfirst _ _).mp ⟨_, hall⟩⟩
    rcases List.mem_append.mp hl with hl | hl
    · exact (hyears _ _).mp ⟨_, hkorean⟩ l hl
    · exact (hyears _ _).mp ⟨_, hiso⟩ l hl
  · intro h
    obtain ⟨korean, hkorean⟩ := (hyears (KOREAN_DATE_RE.literals text.toList) []).mpr
      fun l hl => h.years l (List.mem_append_left _ hl)
    obtain ⟨iso, hiso⟩ := (hyears (ISO_DATE_RE.literals text.toList) korean).mpr
      fun l hl => h.years l (List.mem_append_right _ hl)
    obtain ⟨found, hrelative⟩ := (hwords _ iso).mpr h.words
    obtain ⟨all, hall⟩ := (hfirst _ found).mpr h.first
    exact ⟨_, bind_eq_ok.mpr ⟨found, bind_eq_ok.mpr ⟨korean, hkorean, bind_eq_ok.mpr
      ⟨iso, hiso, hrelative⟩⟩, bind_eq_ok.mpr ⟨all, hall, rfl⟩⟩⟩

/-- The year 0 ends the search, also for the dates behind it. -/
example : (findDates "0000년 1월 1일 이후 2월 3일" ⟨2023, 3, 1, by decide⟩).isOk = false := by
  decide +kernel

/-- The dates of a question are found and those without a year are the latest days, exactly when
nothing leads out of the calendar and each of them is in reach. -/
theorem takenRight_iff (text : String) (today : Date) :
    FindsLatest text today ↔ InCalendar text.toList today ∧
      ∀ l found, Reached text today l found → ∀ month day, l.numbers = [month, day] →
        Possible month day → InReach today month day := by
  constructor
  · rintro ⟨all, hall, h⟩
    refine ⟨(findDates_isOk_iff text today).mp ⟨all, hall⟩, ?_⟩
    intro l found hreached month day hnumbers hpossible
    obtain ⟨value, hlatest, htaken, -⟩ := h l found hreached month day hnumbers hpossible
    exact (takesLatest_iff hreached.2 hnumbers hpossible).mp ⟨value, hlatest, htaken⟩
  · rintro ⟨hcalendar, h⟩
    obtain ⟨all, hall⟩ := (findDates_isOk_iff text today).mpr hcalendar
    refine ⟨all, hall, fun l found hreached month day hnumbers hpossible => ?_⟩
    obtain ⟨value, hlatest, htaken⟩ := (takesLatest_iff hreached.2 hnumbers hpossible).mpr
      (h l found hreached month day hnumbers hpossible)
    exact ⟨value, hlatest, htaken, mem_findDates hreached htaken (by simp) hall⟩

/-- In a common year the last day of February is not looked for. -/
theorem takenRight_fails : ¬∀ text today, FindsLatest text today := by
  intro h
  obtain ⟨all, -, hright⟩ := h "2월 29일" ⟨2023, 3, 1, by decide⟩
  have hreached : Reached "2월 29일" ⟨2023, 3, 1, by decide⟩ ⟨0, 6, [2, 29]⟩ [] :=
    ⟨⟨[], [], by decide +kernel, by rfl⟩, by decide⟩
  obtain ⟨value, -, htaken, -⟩ := hright _ _ hreached 2 29 rfl ⟨2024, by decide⟩
  cases htaken

end Dayjaview.Ontology
