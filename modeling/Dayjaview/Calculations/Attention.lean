import Dayjaview.Calculations.ThemeMetrics
import Dayjaview.Core.Spells
import Dayjaview.Pipeline.History

/-!
# Intervals of attention

The signals of a theme, at most one a trading day, are put together to intervals of
attention. A day without a signal is not confirmed to be without attention, so only a
confirmed absence of so many trading days in a row closes an interval.
-/

namespace Dayjaview.Calculations

open Dayjaview.Domain
open Dayjaview.Pipeline (AttentionDaySignal)

/-- The fields of the policy behind the intervals. -/
structure AttentionPolicy.Fields where
  version : String
  maturity : PolicyMaturity
  turnoverMultipleThreshold : Decimal
  stockMultipleThreshold : Decimal
  spreadRatioThreshold : Decimal
  minimumHighInterestStocks : Int
  weightedReturnThreshold : Decimal
  minimumValidMembers : Int
  closeAfterAbsentTradingDays : Int

/-- The checks of a policy, in order. -/
def AttentionPolicy.Fields.postInit (p : AttentionPolicy.Fields) : Except Error Unit := do
  ensure (p.version ≠ "") "attention policy version은 비어 있을 수 없습니다"
  ensure (¬ (p.turnoverMultipleThreshold ≤ Decimal.zero ∨ p.stockMultipleThreshold ≤ Decimal.zero))
    "거래 관심 배수 threshold는 0보다 커야 합니다"
  ensure (Decimal.zero < p.spreadRatioThreshold ∧ p.spreadRatioThreshold ≤ .ofNat 1)
    "spread_ratio_threshold는 0보다 크고 1 이하여야 합니다"
  ensure (1 ≤ p.minimumHighInterestStocks) "minimum_high_interest_stocks는 1 이상이어야 합니다"
  ensure (1 ≤ p.minimumValidMembers) "minimum_valid_members는 1 이상이어야 합니다"
  ensure (1 ≤ p.closeAfterAbsentTradingDays) "close_after_absent_trading_days는 1 이상이어야 합니다"

/-- The policy behind the intervals. -/
structure AttentionPolicy extends AttentionPolicy.Fields where
  valid : toFields.postInit = .ok ()

theorem AttentionPolicy.one_le_close (p : AttentionPolicy) : 1 ≤ p.closeAfterAbsentTradingDays := by
  have h := p.valid
  simp only [AttentionPolicy.Fields.postInit, check_bind_eq_ok, ensure_eq_ok] at h
  exact h.2.2.2.2.2

def ATTENTION_POLICY_V1 : AttentionPolicy where
  version := "attention-interval-2026.08.1"
  maturity := .backtestPending
  turnoverMultipleThreshold := ⟨false, 20, -1⟩
  stockMultipleThreshold := ⟨false, 20, -1⟩
  spreadRatioThreshold := ⟨false, 30, -2⟩
  minimumHighInterestStocks := 2
  weightedReturnThreshold := ⟨false, 1, -2⟩
  minimumValidMembers := 3
  closeAfterAbsentTradingDays := 10
  valid := by decide

structure AttentionInterval where
  firstAttentionDate : Date
  lastAttentionDate : Date
  closedConfirmationDate : Option Date
  gapTradingDays : Option Nat
  gapUnavailableReason : Option UnavailableReason
  membershipVersions : List String
  calculationVersions : List String
  baselineVersions : List String
  attentionPolicyVersion : String

def AttentionInterval.isOpen (i : AttentionInterval) : Bool := i.closedConfirmationDate.isNone

structure AttentionTimeline where
  policyVersion : String
  policyMaturity : String
  intervals : List AttentionInterval

/-- The last interval, if it is open. -/
def AttentionTimeline.currentInterval (t : AttentionTimeline) : Option AttentionInterval :=
  t.intervals.getLast?.filter AttentionInterval.isOpen

/-- The gap before the open interval. -/
def AttentionTimeline.currentGapTradingDays (t : AttentionTimeline) : Option Nat :=
  t.currentInterval.bind AttentionInterval.gapTradingDays

/-- An interval that is still open; its versions are collected in no order. -/
structure MutableInterval where
  firstAttentionDate : Date
  lastAttentionDate : Date
  gapTradingDays : Option Nat
  gapUnavailableReason : Option UnavailableReason
  membershipVersions : List String
  calculationVersions : List String
  baselineVersions : List String
  attentionPolicyVersion : String
  closedConfirmationDate : Option Date := none

/-- The interval with its versions in order. -/
def MutableInterval.freeze (i : MutableInterval) : AttentionInterval where
  firstAttentionDate := i.firstAttentionDate
  lastAttentionDate := i.lastAttentionDate
  closedConfirmationDate := i.closedConfirmationDate
  gapTradingDays := i.gapTradingDays
  gapUnavailableReason := i.gapUnavailableReason
  membershipVersions := sortedTexts i.membershipVersions
  calculationVersions := sortedTexts i.calculationVersions
  baselineVersions := sortedTexts i.baselineVersions
  attentionPolicyVersion := i.attentionPolicyVersion

/-- The trading days, each once and in increasing order. -/
def validateCalendar (tradingDays : List Date) : Except Error (List Date) := do
  ensure (tradingDays.dedup.insertionSort (· ≤ ·) = tradingDays)
    "trading_days는 중복 없이 오름차순이어야 합니다"
  return tradingDays

def indexSignals (calendar : List Date) (policy : AttentionPolicy) :
    List AttentionDaySignal → Dict Date AttentionDaySignal →
      Except Error (Dict Date AttentionDaySignal)
  | [], signalByDate => .ok signalByDate
  | signal :: signals, signalByDate => do
    ensure (signal.marketDate ∈ calendar) "attention signal 날짜가 trading calendar에 없습니다"
    ensure (signalByDate.get? signal.marketDate = none)
      "같은 거래일의 attention signal이 중복되었습니다"
    ensure (signal.attentionPolicyVersion = policy.version)
      "attention signal과 policy version이 일치하지 않습니다"
    indexSignals calendar policy signals (signalByDate.set signal.marketDate signal)

def newInterval (signal : AttentionDaySignal) (gapTradingDays : Option Nat)
    (gapUnavailableReason : Option UnavailableReason) : MutableInterval where
  firstAttentionDate := signal.marketDate
  lastAttentionDate := signal.marketDate
  gapTradingDays
  gapUnavailableReason
  membershipVersions := signal.membershipVersion.toList
  calculationVersions := [signal.calculationVersion]
  baselineVersions := [signal.baselineVersion]
  attentionPolicyVersion := signal.attentionPolicyVersion

/-- The trading days since the last interval, if all of them are known to be without attention. -/
def gapSince (calendar : List Date) (signalByDate : Dict Date AttentionDaySignal)
    (previous : Option AttentionInterval) (marketDate : Date) :
    Option Nat × Option UnavailableReason :=
  match previous with
  | none => (none, some .noPriorAttentionInterval)
  | some previous =>
    let previousPosition := calendar.idxOf previous.lastAttentionDate
    let currentPosition := calendar.idxOf marketDate
    let between := (calendar.take currentPosition).drop (previousPosition + 1)
    if between.all fun day => (signalByDate.get? day).any fun s => s.isAttention == some false
    then (some between.length, none)
    else (none, some .incompleteAttentionHistory)

/-- The intervals found so far. -/
structure TimelineScan where
  completed : List AttentionInterval
  active : Option MutableInterval
  absentStreak : Nat

/-- Go on to the next trading day. -/
def TimelineScan.next (calendar : List Date) (signalByDate : Dict Date AttentionDaySignal)
    (policy : AttentionPolicy) (s : TimelineScan) (marketDate : Date) : TimelineScan :=
  match s.active, signalByDate.get? marketDate with
  | none, none => s
  | none, some signal =>
    if signal.isAttention = some true then
      let (gap, gapReason) := gapSince calendar signalByDate s.completed.getLast? marketDate
      { s with active := some (newInterval signal gap gapReason), absentStreak := 0 }
    else s
  -- an unknown day cannot prove an absence
  | some _, none => { s with absentStreak := 0 }
  | some active, some signal =>
    match signal.isAttention with
    | some true =>
      { s with
        active := some { active with
          lastAttentionDate := marketDate
          membershipVersions := signal.membershipVersion.toList ++ active.membershipVersions
          calculationVersions := signal.calculationVersion :: active.calculationVersions
          baselineVersions := signal.baselineVersion :: active.baselineVersions }
        absentStreak := 0 }
    | some false =>
      let absentStreak := s.absentStreak + 1
      if policy.closeAfterAbsentTradingDays ≤ (absentStreak : Int) then
        { completed := s.completed ++
            [MutableInterval.freeze { active with closedConfirmationDate := some marketDate }]
          active := none
          absentStreak := 0 }
      else { s with absentStreak }
    | none => { s with absentStreak := 0 }

/-- The intervals of attention behind some signals. -/
def buildAttentionTimeline (signals : List AttentionDaySignal) (tradingDays : List Date)
    (policy : AttentionPolicy) : Except Error AttentionTimeline := do
  let calendar ← validateCalendar tradingDays
  let signalByDate ← indexSignals calendar policy signals .empty
  let s := calendar.foldl (TimelineScan.next calendar signalByDate policy) ⟨[], none, 0⟩
  return {
    policyVersion := policy.version
    policyMaturity := policy.maturity.value
    intervals := s.completed ++ (s.active.map MutableInterval.freeze).toList }

def knownAttention (signals : List AttentionDaySignal) (day : Date) : Option Bool :=
  (signals.find? fun s => s.marketDate == day).bind AttentionDaySignal.isAttention

/-- The number of trading days between two days, if all of them are known to be without
attention. -/
def gapBetween (calendar : List Date) (known : Date → Option Bool) (earlier later : Date) :
    Option Nat :=
  let between := calendar.filter fun d => earlier < d ∧ d < later
  if ∀ d ∈ between, known d = some false then some between.length else none

/-- The interval without its versions. -/
def AttentionInterval.spell (i : AttentionInterval) : Spell Date :=
  ⟨i.firstAttentionDate, i.lastAttentionDate, i.closedConfirmationDate, i.gapTradingDays⟩

/-- The scan without its versions. -/
def TimelineScan.spells (s : TimelineScan) : SpellScan Date :=
  ⟨s.completed.map AttentionInterval.spell, s.active.map fun a => a.freeze.spell, s.absentStreak⟩

/-- The number of days that closes an interval. -/
def AttentionPolicy.closeAfter (p : AttentionPolicy) : Nat := p.closeAfterAbsentTradingDays.toNat

theorem validateCalendar_eq_ok {tradingDays calendar : List Date} :
    validateCalendar tradingDays = .ok calendar ↔
      tradingDays.Pairwise (· < ·) ∧ tradingDays = calendar := by
  have hsorted : tradingDays.dedup.insertionSort (· ≤ ·) = tradingDays ↔
      tradingDays.Pairwise (· < ·) := by
    constructor
    · intro h
      have hle : tradingDays.Pairwise (· ≤ ·) := by
        rw [← h]
        exact List.pairwise_insertionSort _ _
      have hnodup : tradingDays.Nodup := by
        rw [← h]
        exact (List.perm_insertionSort _ _).nodup_iff.mpr (List.nodup_dedup _)
      exact (hle.and hnodup).imp fun h => lt_of_le_of_ne h.1 h.2
    · intro h
      have hnodup : tradingDays.Nodup := h.imp fun hlt => hlt.ne
      rw [hnodup.dedup]
      exact (h.imp fun hlt => hlt.le).insertionSort_eq
  rw [validateCalendar, check_bind_eq_ok, ensure_eq_ok, hsorted]
  refine and_congr_right fun _ => ?_
  show Except.ok tradingDays = Except.ok calendar ↔ _
  rw [Except.ok.injEq]

theorem indexSignals_eq_ok {calendar : List Date} {policy : AttentionPolicy}
    {signals : List AttentionDaySignal} {d signalByDate : Dict Date AttentionDaySignal} :
    indexSignals calendar policy signals d = .ok signalByDate ↔
      (∀ s ∈ signals, s.marketDate ∈ calendar ∧ d.get? s.marketDate = none ∧
          s.attentionPolicyVersion = policy.version) ∧
        (signals.map AttentionDaySignal.marketDate).Nodup ∧
          signals.foldl (fun d s => d.set s.marketDate s) d = signalByDate := by
  induction signals generalizing d with
  | nil => simp [indexSignals]
  | cons s signals ih =>
    simp only [indexSignals, check_bind_eq_ok, ensure_eq_ok, ih, List.forall_mem_cons,
      List.map_cons, List.nodup_cons, List.foldl_cons]
    constructor
    · rintro ⟨hday, hfree, hversion, hall, hnodup, hfold⟩
      have hnew : ∀ t ∈ signals, t.marketDate ≠ s.marketDate := by
        intro t ht heq
        have hnone := (hall t ht).2.1
        rw [heq, Dict.get?_set_self] at hnone
        cases hnone
      refine ⟨⟨⟨hday, hfree, hversion⟩, fun t ht => ?_⟩, ⟨?_, hnodup⟩, hfold⟩
      · obtain ⟨htday, htnone, htversion⟩ := hall t ht
        rw [Dict.get?_set_of_ne _ _ (hnew t ht)] at htnone
        exact ⟨htday, htnone, htversion⟩
      · rw [List.mem_map]
        rintro ⟨t, ht, heq⟩
        exact hnew t ht heq
    · rintro ⟨⟨⟨hday, hfree, hversion⟩, hall⟩, ⟨hnew, hnodup⟩, hfold⟩
      refine ⟨hday, hfree, hversion, fun t ht => ?_, hnodup, hfold⟩
      obtain ⟨htday, htnone, htversion⟩ := hall t ht
      have hne : t.marketDate ≠ s.marketDate := fun heq =>
        hnew (heq ▸ List.mem_map_of_mem ht)
      exact ⟨htday, (Dict.get?_set_of_ne _ _ hne).trans htnone, htversion⟩

theorem get?_indexed {signals : List AttentionDaySignal} {d : Dict Date AttentionDaySignal}
    (hfree : ∀ s ∈ signals, d.get? s.marketDate = none)
    (hnodup : (signals.map AttentionDaySignal.marketDate).Nodup) (day : Date) :
    (signals.foldl (fun d s => d.set s.marketDate s) d).get? day =
      (signals.find? fun s => s.marketDate == day).or (d.get? day) := by
  induction signals generalizing d with
  | nil => simp
  | cons s signals ih =>
    rw [List.map_cons, List.nodup_cons] at hnodup
    have hne : ∀ t ∈ signals, t.marketDate ≠ s.marketDate := fun t ht heq =>
      hnodup.1 (heq ▸ List.mem_map_of_mem ht)
    rw [List.foldl_cons, ih (fun t ht => ?_) hnodup.2, List.find?_cons, Dict.get?_set]
    · by_cases hday : s.marketDate = day
      · subst hday
        have hnone : signals.find? (fun t => t.marketDate == s.marketDate) = none := by
          rw [List.find?_eq_none]
          intro t ht
          simpa using hne t ht
        simp [hnone]
      · simp [beq_eq_false_iff_ne.mpr hday, Ne.symm hday]
    · rw [Dict.get?_set_of_ne _ _ (hne t ht)]
      exact hfree t (List.mem_cons_of_mem _ ht)

theorem known_indexed {calendar : List Date} {policy : AttentionPolicy}
    {signals : List AttentionDaySignal} {signalByDate : Dict Date AttentionDaySignal}
    (h : indexSignals calendar policy signals .empty = .ok signalByDate) (day : Date) :
    (signalByDate.get? day).bind AttentionDaySignal.isAttention = knownAttention signals day := by
  obtain ⟨hall, hnodup, rfl⟩ := indexSignals_eq_ok.mp h
  rw [get?_indexed (fun s hs => (hall s hs).2.1) hnodup, knownAttention, Dict.get?_empty,
    Option.or_none]

theorem idxOf_middle {days more : List Date} {day : Date} (h : day ∉ days) :
    (days ++ day :: more).idxOf day = days.length := by
  rw [List.idxOf_append_of_notMem h, List.idxOf_cons_self, Nat.add_zero]

theorem slice_eq_filter {calendar : List Date} (hcalendar : calendar.Pairwise (· < ·))
    {earlier later : Date} (hearlier : earlier ∈ calendar) (hlater : later ∈ calendar)
    (hlt : earlier < later) :
    (calendar.take (calendar.idxOf later)).drop (calendar.idxOf earlier + 1) =
      calendar.filter fun d => earlier < d ∧ d < later := by
  obtain ⟨before, rest, rfl, hnot⟩ := List.eq_append_cons_of_mem hearlier
  obtain ⟨-, hrest, hbefore⟩ := List.pairwise_append.mp hcalendar
  have hlater' : later ∈ rest := by
    rcases List.mem_append.mp hlater with hmem | hmem
    · exact absurd (hbefore later hmem earlier (List.mem_cons_self ..)) (not_lt.mpr hlt.le)
    · exact (List.mem_cons.mp hmem).resolve_left hlt.ne'
  obtain ⟨between, after, rfl, hnot'⟩ := List.eq_append_cons_of_mem hlater'
  obtain ⟨hfrom, htail⟩ := List.pairwise_cons.mp hrest
  obtain ⟨-, hafter, hbetween⟩ := List.pairwise_append.mp htail
  have hassoc : before ++ earlier :: (between ++ later :: after) =
      (before ++ earlier :: between) ++ later :: after := by simp
  have hnotin : later ∉ before ++ earlier :: between := by
    rw [List.mem_append, List.mem_cons]
    rintro (hmem | heq | hmem)
    · exact absurd (hbefore later hmem earlier (List.mem_cons_self ..)) (not_lt.mpr hlt.le)
    · exact hlt.ne' heq
    · exact hnot' hmem
  have hfilter : (before ++ earlier :: (between ++ later :: after)).filter
      (fun d => decide (earlier < d ∧ d < later)) = between := by
    rw [List.filter_append, List.filter_cons, List.filter_append, List.filter_cons]
    have hfirst : before.filter (fun d => decide (earlier < d ∧ d < later)) = [] := by
      refine List.filter_eq_nil_iff.mpr fun d hd => ?_
      have := hbefore d hd earlier (List.mem_cons_self ..)
      simp [this.le]
    have hmiddle : between.filter (fun d => decide (earlier < d ∧ d < later)) = between := by
      refine List.filter_eq_self.mpr fun d hd => decide_eq_true ⟨hfrom d (by simp [hd]), ?_⟩
      exact hbetween d hd later (List.mem_cons_self ..)
    have hlast : after.filter (fun d => decide (earlier < d ∧ d < later)) = [] := by
      refine List.filter_eq_nil_iff.mpr fun d hd => ?_
      have := (List.pairwise_cons.mp hafter).1 d hd
      simp [this.le]
    rw [hfirst, hmiddle, hlast]
    simp
  rw [hfilter, idxOf_middle hnot, hassoc, idxOf_middle hnotin, List.take_left,
    show before ++ earlier :: between = (before ++ [earlier]) ++ between by simp,
    List.drop_left' (by simp)]

variable {calendar : List Date} {signals : List AttentionDaySignal} {policy : AttentionPolicy}
  {signalByDate : Dict Date AttentionDaySignal}

theorem gapSince_fst (hcalendar : calendar.Pairwise (· < ·))
    (hindex : indexSignals calendar policy signals .empty = .ok signalByDate)
    {previous : Option AttentionInterval} {day : Date} (hday : day ∈ calendar)
    (hprevious : ∀ p ∈ previous, p.lastAttentionDate ∈ calendar ∧ p.lastAttentionDate < day) :
    (gapSince calendar signalByDate previous day).1 =
      previous.bind fun p => gapBetween calendar (knownAttention signals) p.lastAttentionDate
      day := by
  cases previous with
  | none => rfl
  | some p =>
    obtain ⟨hmem, hlt⟩ := hprevious p rfl
    have hknown : ∀ d, (signalByDate.get? d).any (fun s => s.isAttention == some false) = true ↔
        knownAttention signals d = some false := by
      intro d
      rw [← known_indexed hindex d]
      cases signalByDate.get? d <;> simp
    simp only [gapSince, slice_eq_filter hcalendar hmem hday hlt, Option.bind_some, gapBetween]
    simp only [List.all_eq_true, hknown]
    split <;> rfl

theorem marketDate_of_indexed (hindex : indexSignals calendar policy signals .empty =
      .ok signalByDate)
    {day : Date} {signal : AttentionDaySignal} (h : signalByDate.get? day = some signal) :
    signal.marketDate = day := by
  obtain ⟨hall, hnodup, rfl⟩ := indexSignals_eq_ok.mp hindex
  rw [get?_indexed (fun s hs => (hall s hs).2.1) hnodup, Dict.get?_empty, Option.or_none] at h
  simpa using List.find?_some h

theorem AttentionPolicy.one_le_closeAfter (p : AttentionPolicy) : 1 ≤ p.closeAfter := by
  have := p.one_le_close
  unfold AttentionPolicy.closeAfter
  omega

theorem closeAfter_le_iff (policy : AttentionPolicy) (streak : Nat) :
    policy.closeAfter ≤ streak ↔ policy.closeAfterAbsentTradingDays ≤ (streak : Int) := by
  unfold AttentionPolicy.closeAfter
  omega

theorem spells_next {s : TimelineScan} (hcalendar : calendar.Pairwise (· < ·))
    (hindex : indexSignals calendar policy signals .empty = .ok signalByDate) {day : Date}
    (hday : day ∈ calendar)
    (hcompleted : ∀ p ∈ s.completed, p.lastAttentionDate ∈ calendar ∧ p.lastAttentionDate < day) :
    (s.next calendar signalByDate policy day).spells = s.spells.step (knownAttention signals)
      (gapBetween calendar (knownAttention signals)) policy.closeAfter day := by
  have hknown := known_indexed hindex day
  have hgap := gapSince_fst hcalendar hindex hday fun p hp => hcompleted p (List.mem_of_getLast? hp)
  obtain ⟨completed, active, streak⟩ := s
  unfold TimelineScan.next SpellScan.step TimelineScan.spells
  cases hsignal : signalByDate.get? day with
  | none =>
    rw [hsignal, Option.bind_none] at hknown
    cases active with
    | none => simp [← hknown]
    | some active => simp [← hknown]
  | some signal =>
    rw [hsignal, Option.bind_some] at hknown
    have hdate := marketDate_of_indexed hindex hsignal
    simp only [← hknown]
    cases active with
    | none =>
      dsimp only at hgap ⊢
      split
      · next hmarked =>
        simp [newInterval, MutableInterval.freeze, AttentionInterval.spell, hgap, hdate,
          List.getLast?_map, Option.bind_map, Function.comp_def]
      · rfl
    | some active =>
      dsimp only [Option.map_some]
      rcases signal.isAttention with _ | attention
      · rfl
      · cases attention with
        | true => rfl
        | false =>
          simp only [closeAfter_le_iff]
          split
          · simp [MutableInterval.freeze, AttentionInterval.spell]
          · rfl

theorem spells_foldl (hcalendar : calendar.Pairwise (· < ·))
    (hindex : indexSignals calendar policy signals .empty = .ok signalByDate) {days : List Date}
    (hdays : days <+: calendar) :
    (days.foldl (TimelineScan.next calendar signalByDate policy) ⟨[], none, 0⟩).spells =
      SpellScan.run (knownAttention signals) (gapBetween calendar (knownAttention signals))
        policy.closeAfter days := by
  have hK := policy.one_le_closeAfter
  induction days using List.reverseRecOn with
  | nil => rfl
  | append_singleton days day ih =>
    have hbefore : days <+: calendar := (List.prefix_append _ _).trans hdays
    have hsorted := hcalendar.sublist hdays.sublist
    have hlater := (List.pairwise_append.mp hsorted).2.2
    have htracks : (SpellScan.run (knownAttention signals)
        (gapBetween calendar (knownAttention signals)) policy.closeAfter days).Tracks days _ _ _ :=
      SpellScan.tracks_run hK (List.pairwise_append.mp hsorted).1
    rw [SpellScan.run, List.foldl_append, List.foldl_append, List.foldl_cons, List.foldl_cons,
      List.foldl_nil, List.foldl_nil, ← SpellScan.run, ← ih hbefore]
    refine spells_next hcalendar hindex (hdays.subset (by simp)) fun p hp => ?_
    rw [← ih hbefore] at htracks
    have hlast := (htracks.describes.fits p.spell
      (List.mem_append_left _ (List.mem_map_of_mem hp))).last.1
    exact ⟨hbefore.subset hlast, hlater _ hlast day (List.mem_singleton_self day)⟩

variable {timeline : AttentionTimeline}

theorem buildAttentionTimeline_eq_ok :
    buildAttentionTimeline signals calendar policy = .ok timeline ↔
      (calendar.Pairwise (· < ·) ∧ (∀ s ∈ signals, s.marketDate ∈ calendar ∧
          s.attentionPolicyVersion = policy.version) ∧
        (signals.map AttentionDaySignal.marketDate).Nodup) ∧
      ∃ signalByDate, indexSignals calendar policy signals .empty = .ok signalByDate ∧
        timeline = ⟨policy.version, policy.maturity.value,
          let s := calendar.foldl (TimelineScan.next calendar signalByDate policy) ⟨[], none, 0⟩
          s.completed ++ (s.active.map MutableInterval.freeze).toList⟩ := by
  simp only [buildAttentionTimeline, bind_eq_ok, validateCalendar_eq_ok]
  constructor
  · rintro ⟨_, ⟨hcalendar, rfl⟩, signalByDate, hindex, htimeline⟩
    obtain ⟨hall, hnodup, -⟩ := indexSignals_eq_ok.mp hindex
    exact ⟨⟨hcalendar, fun s hs => ⟨(hall s hs).1, (hall s hs).2.2⟩, hnodup⟩, signalByDate, hindex,
      (Except.ok.inj htimeline).symm⟩
  · rintro ⟨⟨hcalendar, -, -⟩, signalByDate, hindex, rfl⟩
    exact ⟨calendar, ⟨hcalendar, rfl⟩, signalByDate, hindex, rfl⟩

theorem exists_index (hsignals : ∀ s ∈ signals, s.marketDate ∈ calendar ∧
      s.attentionPolicyVersion = policy.version)
    (honce : (signals.map AttentionDaySignal.marketDate).Nodup) :
    ∃ signalByDate, indexSignals calendar policy signals .empty = .ok signalByDate :=
  ⟨_, indexSignals_eq_ok.mpr ⟨fun s hs => ⟨(hsignals s hs).1, by simp, (hsignals s hs).2⟩,
    honce, rfl⟩⟩

theorem map_spell_intervals (h : buildAttentionTimeline signals calendar policy = .ok timeline) :
    timeline.intervals.map AttentionInterval.spell = (SpellScan.run (knownAttention signals)
      (gapBetween calendar (knownAttention signals)) policy.closeAfter calendar).spells := by
  obtain ⟨⟨hcalendar, -, -⟩, signalByDate, hindex, rfl⟩ := buildAttentionTimeline_eq_ok.mp h
  rw [← spells_foldl hcalendar hindex (List.prefix_refl _)]
  simp only [TimelineScan.spells, SpellScan.spells, List.map_append, List.append_cancel_left_eq]
  cases (calendar.foldl (TimelineScan.next calendar signalByDate policy) ⟨[], none, 0⟩).active <;>
    rfl

/-- The timeline has exactly the intervals that the signals describe: they are disjoint and in
order, begin and end with attention and contain every day with attention, are closed by the first
days in a row that are known to be without attention, and count the days since the interval before
when all of them are known. -/
theorem timeline_characterised (hcalendar : calendar.Pairwise (· < ·))
    (hsignals : ∀ s ∈ signals, s.marketDate ∈ calendar ∧ s.attentionPolicyVersion = policy.version)
    (honce : (signals.map AttentionDaySignal.marketDate).Nodup) :
    ∃ timeline, buildAttentionTimeline signals calendar policy = .ok timeline ∧
      (∀ spells, Spell.Describes calendar (knownAttention signals) policy.closeAfter
          (gapBetween calendar (knownAttention signals)) spells ↔
        spells = timeline.intervals.map AttentionInterval.spell) ∧
      (∀ i ∈ timeline.intervals.dropLast, i.isOpen = false) ∧
      ∀ i ∈ timeline.intervals, ∀ g, i.gapTradingDays = some g → policy.closeAfter ≤ g := by
  obtain ⟨signalByDate, hindex⟩ := exists_index hsignals honce
  obtain ⟨timeline, hbuild⟩ : ∃ timeline,
      buildAttentionTimeline signals calendar policy = .ok timeline :=
    ⟨_, buildAttentionTimeline_eq_ok.mpr ⟨⟨hcalendar, hsignals, honce⟩, signalByDate, hindex, rfl⟩⟩
  have hspells := map_spell_intervals hbuild
  have hdescribes : Spell.Describes calendar (knownAttention signals) policy.closeAfter
      (gapBetween calendar (knownAttention signals))
      (timeline.intervals.map AttentionInterval.spell) :=
    (SpellScan.describes_iff policy.one_le_closeAfter hcalendar).mpr hspells
  refine ⟨timeline, hbuild, fun spells => ?_, fun i hi => ?_, fun i hi g hg => ?_⟩
  · rw [hspells]
    exact SpellScan.describes_iff policy.one_le_closeAfter hcalendar
  · have hne := List.ne_nil_of_mem (List.mem_of_mem_dropLast hi)
    rw [← List.dropLast_append_getLast hne, List.map_append] at hdescribes
    obtain ⟨d, hd, -⟩ := hdescribes.closed (List.mem_map_of_mem hi)
    rw [AttentionInterval.isOpen, show i.closedConfirmationDate = some d from hd]
    rfl
  · obtain ⟨front, back, hsplit⟩ := List.append_of_mem hi
    rw [hsplit, List.map_append, List.map_cons] at hdescribes
    have hgap := hdescribes.gaps _ _ _ rfl
    rw [show i.spell.gap = some g from hg] at hgap
    obtain ⟨p, hp, hcount⟩ := Option.bind_eq_some_iff.mp hgap.symm
    simp only [gapBetween] at hcount
    split at hcount
    · cases hcount
      exact hdescribes.le_length_between hp hcalendar
    · cases hcount

/-- Two days without attention close an interval. -/
def twoDayPolicy : AttentionPolicy :=
  { ATTENTION_POLICY_V1 with closeAfterAbsentTradingDays := 2, valid := by decide }

/-- What a signal says of a day. -/
def daySignal (day : Date) (isAttention : Option Bool) : AttentionDaySignal where
  marketDate := day
  isAttention
  membershipVersion := some "members-1"
  calculationVersion := "calc-1"
  baselineVersion := "base-1"
  attentionPolicyVersion := twoDayPolicy.version
  turnoverMultiple := none
  highInterestCount := none
  validCount := none
  highInterestRatio := none
  weightedReturn := none
  unavailableReason := none

/-- The trading days of the week. -/
def fiveDays : List Date :=
  [.august 3, .august 4, .august 5, .august 6, .august 7]

/-- Attention on the first two days and on the last one. -/
def fiveSignals : List AttentionDaySignal :=
  (fiveDays.zip [some true, some true, some false, some false, some true]).map fun e =>
    daySignal e.1 e.2

/-- Two silent days end the first interval, and the second one comes after a gap of two. -/
theorem timeline_characterised_fiveDays : ∃ timeline,
    buildAttentionTimeline fiveSignals fiveDays twoDayPolicy = .ok timeline ∧
      timeline.intervals.map AttentionInterval.spell =
        [⟨.august 3, .august 4, some (.august 6), none⟩,
          ⟨.august 7, .august 7, none, some 2⟩] := by
  obtain ⟨timeline, hbuild, -⟩ := @timeline_characterised fiveDays fiveSignals twoDayPolicy
    (by decide) (by decide) (by decide)
  refine ⟨timeline, hbuild, ?_⟩
  rw [map_spell_intervals hbuild]
  decide +kernel

theorem knownAttention_filter {p : Date → Bool} {day : Date} (hday : p day = true) :
    knownAttention (signals.filter fun s => p s.marketDate) day = knownAttention signals day := by
  rw [knownAttention, knownAttention, List.find?_filter]
  congr 2
  funext s
  by_cases h : s.marketDate = day
  · simp [h, hday]
  · simp [h]

theorem gapBetween_window {earlier window : List Date}
    (hcalendar : (earlier ++ window).Pairwise (· < ·))
    {known known' : Date → Option Bool} (hknown : ∀ d ∈ window, known' d = known d) {d d' : Date}
    (hd : d ∈ window) :
    gapBetween window known' d d' = gapBetween (earlier ++ window) known d d' := by
  have hnone : earlier.filter (fun x => decide (d < x ∧ x < d')) = [] := by
    refine List.filter_eq_nil_iff.mpr fun x hx => ?_
    have hlt := (List.pairwise_append.mp hcalendar).2.2 x hx d hd
    simp [hlt.le]
  simp only [gapBetween, List.filter_append, hnone, List.nil_append]
  congr 1
  refine propext (forall₂_congr fun x hx => ?_)
  rw [hknown x (List.mem_of_mem_filter hx)]

theorem currentGapTradingDays_eq
    (h : buildAttentionTimeline signals calendar policy = .ok timeline) :
    timeline.currentGapTradingDays = (SpellScan.run (knownAttention signals)
      (gapBetween calendar (knownAttention signals)) policy.closeAfter calendar).currentGap := by
  obtain ⟨⟨hcalendar, -, -⟩, signalByDate, hindex, rfl⟩ := buildAttentionTimeline_eq_ok.mp h
  have htracks : (SpellScan.run (knownAttention signals)
      (gapBetween calendar (knownAttention signals)) policy.closeAfter calendar).Tracks calendar
      _ _ _ :=
    SpellScan.tracks_run policy.one_le_closeAfter hcalendar
  rw [← spells_foldl hcalendar hindex (List.prefix_refl _)] at htracks ⊢
  generalize calendar.foldl (TimelineScan.next calendar signalByDate policy) ⟨[], none, 0⟩ = s at *
  obtain ⟨completed, active, streak⟩ := s
  cases active with
  | none =>
    rcases List.eq_nil_or_concat completed with rfl | ⟨front, last, rfl⟩
    · rfl
    · obtain ⟨d, hd⟩ := htracks.completed last.spell (List.mem_map_of_mem (by simp))
      have hclosed : last.isOpen = false := by
        rw [AttentionInterval.isOpen, show last.closedConfirmationDate = some d from hd]
        rfl
      simp [AttentionTimeline.currentGapTradingDays, AttentionTimeline.currentInterval,
        SpellScan.currentGap, TimelineScan.spells, hclosed]
  | some a =>
    have hopen : a.freeze.isOpen = true := by
      rw [AttentionInterval.isOpen, show a.freeze.closedConfirmationDate = none from
        htracks.active a.freeze.spell rfl]
      rfl
    simp only [AttentionTimeline.currentGapTradingDays, AttentionTimeline.currentInterval,
      SpellScan.currentGap, TimelineScan.spells, Option.map_some, Option.toList_some,
      List.getLast?_concat, Option.bind_some]
    rw [Option.filter_some, if_pos hopen]
    rfl

/-- A current gap that the last trading days show is the one of the whole calendar. -/
theorem window_gap {timeline : AttentionTimeline}
    (h : buildAttentionTimeline signals calendar policy = .ok timeline) {window : List Date}
    (hwindow : window <:+ calendar) :
    ∃ recent, buildAttentionTimeline (signals.filter fun s => s.marketDate ∈ window) window policy =
        .ok recent ∧
      ∀ g, recent.currentGapTradingDays = some g → timeline.currentGapTradingDays = some g := by
  obtain ⟨⟨hcalendar, hsignals, honce⟩, -⟩ := buildAttentionTimeline_eq_ok.mp h
  obtain ⟨earlier, rfl⟩ := hwindow
  have hsorted := (List.pairwise_append.mp hcalendar).2.1
  have hinside : ∀ s ∈ signals.filter fun s => s.marketDate ∈ window,
      s.marketDate ∈ window ∧ s.attentionPolicyVersion = policy.version := fun s hs =>
    ⟨of_decide_eq_true (List.mem_filter.mp hs).2, (hsignals s (List.mem_filter.mp hs).1).2⟩
  have honce' : ((signals.filter fun s => s.marketDate ∈ window).map
      AttentionDaySignal.marketDate).Nodup := honce.sublist (List.filter_sublist.map _)
  obtain ⟨signalByDate, hindex⟩ := exists_index hinside honce'
  have hrecent :=
    buildAttentionTimeline_eq_ok.mpr ⟨⟨hsorted, hinside, honce'⟩, signalByDate, hindex, rfl⟩
  have hknown : ∀ d ∈ window, knownAttention (signals.filter fun s => s.marketDate ∈ window) d =
      knownAttention signals d := fun d hd =>
    knownAttention_filter (p := fun d => decide (d ∈ window)) (decide_eq_true hd)
  refine ⟨_, hrecent, fun g hg => ?_⟩
  rw [currentGapTradingDays_eq hrecent] at hg
  rw [currentGapTradingDays_eq h]
  refine SpellScan.Synchronised.currentGap
    (SpellScan.synchronised_run policy.one_le_closeAfter hsorted hknown fun d hd d' _ => ?_) hg
  exact gapBetween_window hcalendar hknown hd

/-- The last four days of the week show the gap of the week. -/
theorem window_gap_fiveDays : ∃ timeline recent,
    buildAttentionTimeline fiveSignals fiveDays twoDayPolicy = .ok timeline ∧
      buildAttentionTimeline (fiveSignals.filter fun s => s.marketDate ∈ fiveDays.drop 1)
        (fiveDays.drop 1) twoDayPolicy = .ok recent ∧
      recent.currentGapTradingDays = some 2 ∧ timeline.currentGapTradingDays = some 2 := by
  obtain ⟨timeline, hbuild⟩ : ∃ timeline,
      buildAttentionTimeline fiveSignals fiveDays twoDayPolicy = .ok timeline := ⟨_, rfl⟩
  obtain ⟨recent, hrecent, hgap⟩ := window_gap hbuild (List.drop_suffix 1 fiveDays)
  have hshown : recent.currentGapTradingDays = some 2 := by
    rw [currentGapTradingDays_eq hrecent]
    decide +kernel
  exact ⟨timeline, recent, hbuild, hrecent, hshown, hgap 2 hshown⟩

end Dayjaview.Calculations
