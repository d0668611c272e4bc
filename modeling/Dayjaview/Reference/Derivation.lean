import Dayjaview.Core.Grouping
import Dayjaview.Reference.Parsers

/-!
# Skipped trading days

The answers for all markets of a date are merged, and the one that was collected
last decides. A date with rows is passed over if a later answer about it has none.
Without such an answer no trading day is skipped.
-/

namespace Dayjaview.Reference

namespace TradingCalendar

variable {c : TradingCalendar} {marketDate d : Date} {decisionAt : Datetime}

/-- An observation is among the latest ones of a date that were known at a time. -/
def Decides (c : TradingCalendar) (d : Date) (decisionAt : Datetime) (o : TradingDayObservation) :
    Prop :=
  IsGreatestBy TradingDayObservation.rank (c.eligible d decisionAt) o

/-- The latest observations of a date agree. -/
def Agrees (c : TradingCalendar) (d : Date) (decisionAt : Datetime) (isTradingDay : Bool) : Prop :=
  (∃ o, c.Decides d decisionAt o) ∧ ∀ o, c.Decides d decisionAt o → o.isTradingDay = isTradingDay

theorem mem_eligible {o : TradingDayObservation} :
    o ∈ c.eligible d decisionAt ↔
      o ∈ c ∧ o.marketDate = d ∧ o.metadata.knownAt ≤ decisionAt := by
  simp [eligible]

theorem mem_latest_iff {latestKey : ℤ ×ₗ ℕ} {o : TradingDayObservation}
    (hmax : ((c.eligible d decisionAt).map (·.rank)).max? = some latestKey) :
    o ∈ (c.eligible d decisionAt).filter (·.rank = latestKey) ↔ c.Decides d decisionAt o := by
  obtain ⟨hmem, hle⟩ := List.max?_eq_some_iff.mp hmax
  rw [List.mem_filter, decide_eq_true_iff]
  constructor
  · rintro ⟨ho, rfl⟩
    exact ⟨ho, fun b hb => hle _ (List.mem_map_of_mem hb)⟩
  · rintro ⟨ho, hgreatest⟩
    obtain ⟨b, hb, rfl⟩ := List.mem_map.mp hmem
    exact ⟨ho, le_antisymm (hle _ (List.mem_map_of_mem ho)) (hgreatest b hb)⟩

theorem resolve_iff {version : String} (hversion : ∀ o ∈ c, o.version = version)
    (isTradingDay : Bool) :
    (c.resolve d decisionAt).state = .verified ∧
        (c.resolve d decisionAt).isTradingDay = some isTradingDay ↔
      c.Agrees d decisionAt isTradingDay := by
  unfold resolve
  dsimp only
  cases hmax : ((c.eligible d decisionAt).map (·.rank)).max? with
  | none =>
    have hempty : c.eligible d decisionAt = [] := by simpa using List.max?_eq_none_iff.mp hmax
    simp only [reduceCtorEq, false_and, false_iff]
    rintro ⟨⟨o, ho, -⟩, -⟩
    rw [hempty] at ho
    cases ho
  | some latestKey =>
    have hlatest := fun o => mem_latest_iff (o := o) hmax
    set latest := (c.eligible d decisionAt).filter (·.rank = latestKey)
    have hagrees : c.Agrees d decisionAt isTradingDay ↔
        (latest.map fun o => (o.isTradingDay, o.version)).dedup = [(isTradingDay, version)] := by
      rw [dedup_eq_singleton]
      constructor
      · rintro ⟨⟨o, ho⟩, hall⟩
        refine ⟨List.ne_nil_of_mem (List.mem_map_of_mem ((hlatest o).mpr ho)), ?_⟩
        intro a ha
        obtain ⟨o', ho', rfl⟩ := List.mem_map.mp ha
        have hdecides := (hlatest o').mp ho'
        rw [hall o' hdecides, hversion o' (mem_eligible.mp hdecides.1).1]
      · rintro ⟨hne, hall⟩
        obtain ⟨a, ha⟩ := List.exists_mem_of_ne_nil _ hne
        obtain ⟨o, ho, -⟩ := List.mem_map.mp ha
        refine ⟨⟨o, (hlatest o).mp ho⟩, fun o' ho' => ?_⟩
        exact (Prod.mk.inj (hall _ (List.mem_map_of_mem ((hlatest o').mpr ho')))).1
    rw [hagrees]
    dsimp only
    split
    · next b v heq =>
      rw [heq]
      have hv : v = version := by
        have hmem : (b, v) ∈ latest.map fun o => (o.isTradingDay, o.version) := by
          rw [← List.mem_dedup, heq]
          exact List.mem_singleton_self _
        obtain ⟨o, ho, hpair⟩ := List.mem_map.mp hmem
        rw [← (Prod.mk.inj hpair).2]
        exact hversion o (mem_eligible.mp ((hlatest o).mp ho).1).1
      simp [hv]
    · next hne =>
      simp only [reduceCtorEq, false_and, false_iff]
      exact fun heq => hne _ _ heq

/-- A date of a calendar is answered. -/
def Answers (c : TradingCalendar) (d : Date) (decisionAt : Datetime) (isTradingDay : Bool) : Prop :=
  (c.resolve d decisionAt).state = .verified ∧
    (c.resolve d decisionAt).isTradingDay = some isTradingDay

theorem answers_of_verified (h : (c.resolve d decisionAt).state = .verified) :
    ∃ isTradingDay, c.Answers d decisionAt isTradingDay := by
  unfold Answers
  rw [h]
  unfold resolve at h ⊢
  dsimp only at h ⊢
  cases hmax : ((c.eligible d decisionAt).map (·.rank)).max? with
  | none =>
    rw [hmax] at h
    cases h
  | some latestKey =>
    rw [hmax] at h
    dsimp only at h ⊢
    split at h
    · next b v heq => exact ⟨b, rfl, rfl⟩
    · cases h

theorem lookBack_iff {found : Date} (left offset : Nat) :
    (∃ resolution, c.lookBack marketDate decisionAt left offset = .ok (some found, resolution)) ↔
      ∃ n < left, marketDate.earlier (offset + n) = some found ∧
        c.Answers found decisionAt true ∧
        ∀ m < n, ∃ d, marketDate.earlier (offset + m) = some d ∧ c.Answers d decisionAt false := by
  induction left generalizing offset with
  | zero => simp [lookBack]
  | succ left ih =>
    rw [lookBack]
    cases hcandidate : marketDate.earlier offset with
    | none =>
      simp only [reduceCtorEq, exists_false, false_iff]
      rintro ⟨n, -, hfound, -, -⟩
      have hordinal := Date.toOrdinal_earlier hfound
      have hsome := Date.earlier_isSome (a := found) (d := marketDate) (n := offset) (by omega)
      rw [hcandidate] at hsome
      cases hsome
    | some candidate =>
      dsimp only
      by_cases hverified : (c.resolve candidate decisionAt).state = .verified
      · rw [if_neg (not_not.mpr hverified)]
        obtain ⟨b, hb⟩ := answers_of_verified hverified
        cases b with
        | true =>
          rw [if_pos hb.2]
          constructor
          · rintro ⟨resolution, heq⟩
            simp only [Except.ok.injEq, Prod.mk.injEq, Option.some.injEq] at heq
            obtain ⟨rfl, -⟩ := heq
            exact ⟨0, by omega, by simpa using hcandidate, hb, by omega⟩
          · rintro ⟨n, -, hfound, -, hclosed⟩
            cases n with
            | zero =>
              rw [Nat.add_zero, hcandidate] at hfound
              cases hfound
              exact ⟨_, rfl⟩
            | succ n =>
              obtain ⟨d, hd, hanswers⟩ := hclosed 0 (by omega)
              rw [Nat.add_zero, hcandidate] at hd
              cases hd
              have hsame := hanswers.2.symm.trans hb.2
              cases hsame
        | false =>
          rw [if_neg (by rw [hb.2]; simp), ih]
          constructor
          · rintro ⟨n, hn, hfound, htrue, hclosed⟩
            refine ⟨n + 1, by omega, by rw [← hfound]; congr 1; omega, htrue, fun m hm => ?_⟩
            cases m with
            | zero => exact ⟨candidate, by simpa using hcandidate, hb⟩
            | succ m =>
              obtain ⟨d, hd, hanswers⟩ := hclosed m (by omega)
              exact ⟨d, by rw [← hd]; congr 1; omega, hanswers⟩
          · rintro ⟨n, hn, hfound, htrue, hclosed⟩
            cases n with
            | zero =>
              rw [Nat.add_zero, hcandidate] at hfound
              cases hfound
              have hsame := htrue.2.symm.trans hb.2
              cases hsame
            | succ n =>
              refine ⟨n, by omega, by rw [← hfound]; congr 1; omega, htrue, fun m hm => ?_⟩
              obtain ⟨d, hd, hanswers⟩ := hclosed (m + 1) (by omega)
              exact ⟨d, by rw [← hd]; congr 1; omega, hanswers⟩
      · rw [if_pos hverified]
        simp only [Except.ok.injEq, Prod.mk.injEq, reduceCtorEq, false_and, exists_false, false_iff]
        rintro ⟨n, -, hfound, htrue, hclosed⟩
        cases n with
        | zero =>
          rw [Nat.add_zero, hcandidate] at hfound
          cases hfound
          exact hverified htrue.1
        | succ n =>
          obtain ⟨d, hd, hanswers⟩ := hclosed 0 (by omega)
          rw [Nat.add_zero, hcandidate] at hd
          cases hd
          exact hverified hanswers.1

/-- The trading day before a date is the nearest one such that every date in between is known
to be none. -/
theorem previousTradingDay_iff {found : Date} {maxLookbackDays : Int} :
    (∃ resolution, c.previousTradingDay marketDate decisionAt maxLookbackDays =
        .ok (some found, resolution)) ↔
      found < marketDate ∧ (marketDate.toOrdinal : Int) ≤ found.toOrdinal + maxLookbackDays ∧
        c.Answers found decisionAt true ∧
        ∀ d, found < d → d < marketDate → c.Answers d decisionAt false := by
  unfold previousTradingDay
  by_cases hdays : maxLookbackDays ≤ 0
  · rw [if_pos hdays]
    simp only [reduceCtorEq, exists_false, false_iff]
    rintro ⟨hlt, hle, -⟩
    have hordinal := Date.toOrdinal_lt hlt
    omega
  · rw [if_neg hdays, lookBack_iff]
    constructor
    · rintro ⟨n, hn, hfound, htrue, hclosed⟩
      have hordinal := Date.toOrdinal_earlier hfound
      refine ⟨?_, by omega, htrue, fun d hlow hhigh => ?_⟩
      · rw [← Date.toOrdinal_strictMono.lt_iff_lt]
        omega
      · have hlow' := Date.toOrdinal_lt hlow
        have hhigh' := Date.toOrdinal_lt hhigh
        obtain ⟨d', hd', hanswers⟩ := hclosed (marketDate.toOrdinal - d.toOrdinal - 1) (by omega)
        rw [Date.earlier_eq_some (a := d) (by omega)] at hd'
        cases hd'
        exact hanswers
    · rintro ⟨hlt, hle, htrue, hclosed⟩
      have hordinal := Date.toOrdinal_lt hlt
      refine ⟨marketDate.toOrdinal - found.toOrdinal - 1, by omega,
        Date.earlier_eq_some (by omega), htrue, fun m hm => ?_⟩
      obtain ⟨d, hd⟩ := Option.isSome_iff_exists.mp
        (Date.earlier_isSome (a := found) (d := marketDate) (n := 1 + m) (by omega))
      have hordinal' := Date.toOrdinal_earlier hd
      refine ⟨d, hd, hclosed d ?_ ?_⟩
      all_goals
        rw [← Date.toOrdinal_strictMono.lt_iff_lt]
        omega

end TradingCalendar

variable [Sha256]

/-- A snapshot of a date was known at a time. -/
def KnownOf (snapshots : List SourceSnapshot) (d : Date) (decisionAt : Datetime)
    (s : SourceSnapshot) : Prop :=
  s ∈ snapshots ∧ s.marketDate = .ok d ∧ s.metadata.knownAt ≤ decisionAt

/-- The rank of a snapshot: when it was known, and its revision. -/
def SourceSnapshot.rank (s : SourceSnapshot) : ℤ ×ₗ ℕ :=
  toLex (s.metadata.knownAt.instant, s.metadata.revision)

/-- A snapshot is among the latest ones of a date that were known at a time. -/
def LatestOf (snapshots : List SourceSnapshot) (d : Date) (decisionAt : Datetime)
    (s : SourceSnapshot) : Prop :=
  KnownOf snapshots d decisionAt s ∧ ∀ s', KnownOf snapshots d decisionAt s' → s'.rank ≤ s.rank

variable [JsonRuntime]

/-- The latest known snapshots of a date, of whatever markets, all have rows, or none has. -/
def LatestRows (snapshots : List SourceSnapshot) (d : Date) (decisionAt : Datetime) (rows : Bool) :
    Prop :=
  (∃ s, LatestOf snapshots d decisionAt s) ∧
    ∀ s, LatestOf snapshots d decisionAt s → s.hasRows = .ok rows

/-- A date does not skip a trading day before another date. -/
structure NeverSkips (snapshots : List SourceSnapshot) (decisionAt : Datetime)
    (marketDate found : Date) : Prop where
  rows : ∀ d s, KnownOf snapshots d decisionAt s → d < marketDate → s.hasRows = .ok true →
    ¬ found < d
  known : ∀ d, found < d → d < marketDate → ∃ s, KnownOf snapshots d decisionAt s

variable {version : String} {sessionOpen sessionClose : ClockTime} {snapshots : List SourceSnapshot}
  {calendar : TradingCalendar} {decisionAt : Datetime} {d marketDate : Date}

theorem observe_eq_ok {s : SourceSnapshot} {o : TradingDayObservation}
    (h : observe version sessionOpen sessionClose s = .ok o) :
    s.marketDate = .ok o.marketDate ∧ s.hasRows = .ok o.isTradingDay ∧ o.version = version ∧
      o.metadata.knownAt = s.metadata.knownAt ∧ o.rank = s.rank := by
  unfold observe at h
  dsimp only at h
  split at h
  · cases h
  · simp only [bind_eq_ok] at h
    obtain ⟨d, hdate, rows, hrows, metadata, hmetadata, hmake⟩ := h
    obtain ⟨_, rfl⟩ := checked_eq_ok.mp hmake
    obtain ⟨_, rfl⟩ := checked_eq_ok.mp hmetadata
    exact ⟨hdate, hrows, rfl, rfl, rfl⟩

theorem mem_calendar (hderive : deriveTradingCalendar snapshots version sessionOpen sessionClose =
    .ok calendar) :
    (∀ o ∈ calendar, ∃ s ∈ snapshots, observe version sessionOpen sessionClose s = .ok o) ∧
      ∀ s ∈ snapshots, ∃ o ∈ calendar, observe version sessionOpen sessionClose s = .ok o :=
  mem_of_mapM_eq_ok hderive

theorem mem_eligible_iff {o : TradingDayObservation} {s : SourceSnapshot}
    (h : observe version sessionOpen sessionClose s = .ok o) (hs : s ∈ snapshots)
    (ho : o ∈ calendar) :
    o ∈ calendar.eligible d decisionAt ↔ KnownOf snapshots d decisionAt s := by
  obtain ⟨hdate, -, -, hknown, -⟩ := observe_eq_ok h
  rw [TradingCalendar.mem_eligible, KnownOf, hdate, hknown]
  simp [hs, ho]

theorem answers_iff (hderive : deriveTradingCalendar snapshots version sessionOpen sessionClose =
    .ok calendar) (rows : Bool) :
    calendar.Answers d decisionAt rows ↔ LatestRows snapshots d decisionAt rows := by
  obtain ⟨hright, hleft⟩ := mem_calendar hderive
  have hversion : ∀ o ∈ calendar, o.version = version := by
    intro o ho
    obtain ⟨s, -, hs⟩ := hright o ho
    exact (observe_eq_ok hs).2.2.1
  have hdecides : ∀ s o, s ∈ snapshots → o ∈ calendar →
      observe version sessionOpen sessionClose s = .ok o →
      (calendar.Decides d decisionAt o ↔ LatestOf snapshots d decisionAt s) := by
    intro s o hs ho hobserve
    have hrank := (observe_eq_ok hobserve).2.2.2.2
    refine and_congr (mem_eligible_iff hobserve hs ho) ?_
    constructor
    · intro hgreatest s' hs'
      obtain ⟨o', ho', hobserve'⟩ := hleft s' hs'.1
      have hle := hgreatest o' ((mem_eligible_iff hobserve' hs'.1 ho').mpr hs')
      rwa [hrank, (observe_eq_ok hobserve').2.2.2.2] at hle
    · intro hgreatest o' ho'
      have hmem := (TradingCalendar.mem_eligible.mp ho').1
      obtain ⟨s', hs', hobserve'⟩ := hright o' hmem
      have hle := hgreatest s' ((mem_eligible_iff hobserve' hs' hmem).mp ho')
      rwa [hrank, (observe_eq_ok hobserve').2.2.2.2]
  rw [TradingCalendar.Answers, TradingCalendar.resolve_iff hversion]
  refine and_congr ?_ ?_
  · constructor
    · rintro ⟨o, ho⟩
      have hmem := (TradingCalendar.mem_eligible.mp ho.1).1
      obtain ⟨s, hs, hobserve⟩ := hright o hmem
      exact ⟨s, (hdecides s o hs hmem hobserve).mp ho⟩
    · rintro ⟨s, hs⟩
      obtain ⟨o, ho, hobserve⟩ := hleft s hs.1.1
      exact ⟨o, (hdecides s o hs.1.1 ho hobserve).mpr hs⟩
  · constructor
    · intro hall s hs
      obtain ⟨o, ho, hobserve⟩ := hleft s hs.1.1
      rw [(observe_eq_ok hobserve).2.1, hall o ((hdecides s o hs.1.1 ho hobserve).mpr hs)]
    · intro hall o ho
      have hmem := (TradingCalendar.mem_eligible.mp ho.1).1
      obtain ⟨s, hs, hobserve⟩ := hright o hmem
      have hrows := hall s ((hdecides s o hs hmem hobserve).mp ho)
      rw [(observe_eq_ok hobserve).2.1] at hrows
      exact Except.ok.inj hrows

/-- The trading day before a date skips none exactly if no date with rows is decided by
later snapshots without rows on the way to a trading day. -/
theorem previousTradingDay_neverSkips (hderive : deriveTradingCalendar snapshots version sessionOpen
    sessionClose = .ok calendar) (decisionAt : Datetime) (marketDate :
    Date) (maxLookbackDays : Int) :
    (∀ found resolution, calendar.previousTradingDay marketDate decisionAt maxLookbackDays =
        .ok (some found, resolution) → NeverSkips snapshots decisionAt marketDate found) ↔
      ∀ found, found < marketDate →
        (marketDate.toOrdinal : Int) ≤ found.toOrdinal + maxLookbackDays →
        LatestRows snapshots found decisionAt true →
        (∀ d, found < d → d < marketDate → LatestRows snapshots d decisionAt false) →
        ∀ d s, found < d → d < marketDate → KnownOf snapshots d decisionAt s →
          s.hasRows ≠ .ok true := by
  constructor
  · intro hall found hlt hle htrue hclosed d s hlow hhigh hs hrows
    obtain ⟨resolution, hfound⟩ := TradingCalendar.previousTradingDay_iff.mpr
      ⟨hlt, hle, (answers_iff hderive true).mpr htrue,
        fun d hlow hhigh => (answers_iff hderive false).mpr (hclosed d hlow hhigh)⟩
    exact (hall found resolution hfound).rows d s hs hhigh hrows hlow
  · intro hall found resolution hfound
    obtain ⟨hlt, hle, htrue, hclosed⟩ := TradingCalendar.previousTradingDay_iff.mp
      ⟨resolution, hfound⟩
    have hclosed' : ∀ d, found < d → d < marketDate → LatestRows snapshots d decisionAt false :=
      fun d hlow hhigh => (answers_iff hderive false).mp (hclosed d hlow hhigh)
    constructor
    · intro d s hs hhigh hrows hlow
      exact hall found hlt hle ((answers_iff hderive true).mp htrue) hclosed' d s hlow hhigh
        hs hrows
    · intro d hlow hhigh
      obtain ⟨⟨s, hs⟩, -⟩ := hclosed' d hlow hhigh
      exact ⟨s, hs.1⟩

def tradedPayload : String := "\x7b\"OutBlock_1\":[\x7b\"ISU_CD\":\"005930\"\x7d]\x7d"

def emptyPayload : String := "\x7b\"OutBlock_1\":[]\x7d"

/-- The digests of the two answers. -/
def payloadTable : List (String × String) :=
  [(tradedPayload, "cc4e9978c670db9a22222b96485774293390f3d66b2eb349893f2286a4241fce"),
    (emptyPayload, "82c0031bc13af348ac1e1304aca28f309632975110f2508534e93216791dfa90")]

omit [Sha256] [JsonRuntime]

theorem isFloatText_nan : isFloatText "NaN".toList = true := by decide

/-- A runtime whose written numbers do not matter. -/
@[reducible] def plainRuntime : JsonRuntime := ⟨1000, fun _ => ⟨"NaN".toList, isFloatText_nan⟩⟩

/-- An evening in August 2026. -/
def evening (day minute : Nat) : Datetime := (Date.august day).seoul 18 minute

/-- The metadata of an answer about a market and a day. -/
def dailyMetadata (key : String) (collectedAt : Datetime) : SourceMetadata.Fields where
  provider := .krxOpenApi
  dataset := .krxStockDaily
  endpoint := "https://data-dbg.krx.co.kr/svc/apis/sto/stk_bydd_trd"
  sourceKey := key
  asOf := collectedAt
  collectedAt := collectedAt
  parserVersion := "krx-daily-1"
  revision := 1
  lineage := ["krx:" ++ key]

theorem isSha256Text_traded :
    isSha256Text (@hexdigest (.ofTable payloadTable) tradedPayload) = true := by
  decide +kernel

theorem isSha256Text_empty :
    isSha256Text (@hexdigest (.ofTable payloadTable) emptyPayload) = true := by
  decide +kernel

/-- The third of August has rows, and so has one market of the fourth; the other market of
the fourth is collected later and has none. -/
def oneMarketEmpty : List (@SourceSnapshot (.ofTable payloadTable)) :=
  letI : Sha256 := .ofTable payloadTable
  [⟨⟨dailyMetadata "KOSPI:20260803" (evening 3 0), by decide⟩, tradedPayload, _,
      isSha256Text_traded, rfl⟩,
    ⟨⟨dailyMetadata "KOSPI:20260804" (evening 4 0), by decide⟩, tradedPayload, _,
      isSha256Text_traded, rfl⟩,
    ⟨⟨dailyMetadata "KOSDAQ:20260804" (evening 4 1), by decide⟩, emptyPayload, _,
      isSha256Text_empty, rfl⟩]

theorem previous_oneMarketEmpty :
    letI : Sha256 := .ofTable payloadTable
    letI : JsonRuntime := plainRuntime
    (deriveTradingCalendar oneMarketEmpty "krx-2026" >>= fun calendar =>
      (calendar.previousTradingDay (.august 5) (evening 5 0)).map (·.1)) =
      .ok (some (.august 3)) := by
  decide +kernel

theorem rows_oneMarketEmpty :
    letI : Sha256 := .ofTable payloadTable
    letI : JsonRuntime := plainRuntime
    ∃ s ∈ oneMarketEmpty, s.marketDate = .ok (.august 4) ∧
      s.metadata.knownAt ≤ evening 5 0 ∧ s.hasRows = .ok true :=
  ⟨_, List.mem_cons_of_mem _ (List.mem_cons_self ..), by decide +kernel, by decide +kernel,
    by decide +kernel⟩

/-- What decides for the fourth of August is the answer without rows. -/
theorem previousTradingDay_neverSkips_oneMarket :
    letI : Sha256 := .ofTable payloadTable
    letI : JsonRuntime := plainRuntime
    ∃ calendar, deriveTradingCalendar oneMarketEmpty "krx-2026" = .ok calendar ∧
      ((∀ found resolution, calendar.previousTradingDay (.august 5)
            (evening 5 0) 370 = .ok (some found, resolution) →
          NeverSkips oneMarketEmpty (evening 5 0) (Date.august 5) found) ↔
        ∀ found, found < Date.august 5 →
          ((Date.august 5).toOrdinal : Int) ≤ found.toOrdinal + 370 →
          LatestRows oneMarketEmpty found (evening 5 0) true →
          (∀ d, found < d → d < Date.august 5 →
            LatestRows oneMarketEmpty d (evening 5 0) false) →
          ∀ d s, found < d → d < Date.august 5 →
            KnownOf oneMarketEmpty d (evening 5 0) s → s.hasRows ≠ .ok true) := by
  let _ : Sha256 := .ofTable payloadTable
  let _ : JsonRuntime := plainRuntime
  obtain ⟨calendar, hderive, -⟩ := bind_eq_ok.mp previous_oneMarketEmpty
  exact ⟨calendar, hderive, previousTradingDay_neverSkips hderive (evening 5 0)
    (Date.august 5) 370⟩

/-- The fourth of August is skipped. -/
theorem previousTradingDay_skips :
    letI : Sha256 := .ofTable payloadTable
    letI : JsonRuntime := plainRuntime
    ¬ ∀ (snapshots : List SourceSnapshot) (version : String) (calendar : TradingCalendar)
      (decisionAt : Datetime) (marketDate found : Date) (resolution : CalendarResolution),
      deriveTradingCalendar snapshots version = .ok calendar →
      calendar.previousTradingDay marketDate decisionAt = .ok (some found, resolution) →
      NeverSkips snapshots decisionAt marketDate found := by
  let _ : Sha256 := .ofTable payloadTable
  let _ : JsonRuntime := plainRuntime
  intro hall
  obtain ⟨calendar, hderive, hprevious⟩ := bind_eq_ok.mp previous_oneMarketEmpty
  cases hlook : calendar.previousTradingDay (.august 5) (evening 5 0) with
  | error e =>
    rw [hlook] at hprevious
    cases hprevious
  | ok result =>
    obtain ⟨previous, resolution⟩ := result
    rw [hlook] at hprevious
    cases hprevious
    have hskips := hall _ _ calendar _ _ _ resolution hderive hlook
    obtain ⟨s, hs, hdate, hknown, hrows⟩ := rows_oneMarketEmpty
    exact hskips.rows (.august 4) s ⟨hs, hdate, hknown⟩ (by decide) hrows (by decide)

end Dayjaview.Reference
