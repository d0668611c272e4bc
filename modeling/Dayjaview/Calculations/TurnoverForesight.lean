import Dayjaview.Calculations.Turnover

/-!
# Values of earlier days that come late

The observations of earlier days are judged at the time they were made, not at the time of the
evaluation. A value of an earlier day that was observed after the evaluation is therefore
counted, and the turnover is another one than without it.
-/

namespace Dayjaview.Calculations

open Dayjaview.Domain

/-- The observations made by a time. -/
def observedBy (evaluationAt : Datetime) (o : StockTradingValueObservation) : Bool :=
  o.observedAt ≤ evaluationAt

/-- The memberships known by a time. -/
def knownBy (evaluationAt : Datetime) (m : ThemeMembershipSnapshot) : Bool :=
  m.knownAt ≤ evaluationAt

/-- The observations of a minute, a stock and a day. -/
def rowOf (timeBucket : TimeOfDay) (observations : List StockTradingValueObservation)
    (stockId : String) (day : Date) : Option StockTradingValueObservation :=
  observations.find? fun o =>
    o.timeBucket = timeBucket ∧ o.stockId = stockId ∧ o.marketDate = day

variable {indexed : Dict (String × Date) StockTradingValueObservation} {timeBucket : TimeOfDay}

private theorem indexObservations_filter_from (keep : StockTradingValueObservation → Bool)
    {observations : List StockTradingValueObservation}
    {index index' : Dict (String × Date) StockTradingValueObservation}
    (hindex : ∀ key, index'.get? key = (index.get? key).filter keep)
    (h : indexObservations timeBucket observations index = .ok indexed) :
    ∃ indexed', indexObservations timeBucket (observations.filter keep) index' = .ok indexed' ∧
      ∀ key, indexed'.get? key = (indexed.get? key).filter keep := by
  induction observations generalizing index index' with
  | nil =>
    cases h
    exact ⟨index', rfl, hindex⟩
  | cons o observations ih =>
    rw [indexObservations] at h
    by_cases hbucket : o.timeBucket = timeBucket
    · rw [if_neg (not_not.mpr hbucket)] at h
      dsimp only at h
      split at h
      · cases h
      · next hfresh =>
        have hnone : index.get? (o.stockId, o.marketDate) = none := by simpa using hfresh
        by_cases hkeep : keep o = true
        · rw [List.filter_cons_of_pos hkeep, indexObservations, if_neg (not_not.mpr hbucket)]
          dsimp only
          rw [hindex, hnone]
          refine ih (fun key => ?_) h
          by_cases hkey : key = (o.stockId, o.marketDate)
          · rw [hkey, Dict.get?_set_self, Dict.get?_set_self, Option.filter_some, if_pos hkeep]
          · rw [Dict.get?_set_of_ne _ _ hkey, Dict.get?_set_of_ne _ _ hkey, hindex]
        · rw [List.filter_cons_of_neg hkeep]
          refine ih (fun key => ?_) h
          by_cases hkey : key = (o.stockId, o.marketDate)
          · rw [hkey, Dict.get?_set_self, Option.filter_some, if_neg hkeep, hindex, hnone]
            rfl
          · rw [Dict.get?_set_of_ne _ _ hkey, hindex]
    · rw [if_pos hbucket] at h
      by_cases hkeep : keep o = true
      · rw [List.filter_cons_of_pos hkeep, indexObservations, if_pos hbucket]
        exact ih hindex h
      · rw [List.filter_cons_of_neg hkeep]
        exact ih hindex h

theorem indexObservations_filter (keep : StockTradingValueObservation → Bool)
    {observations : List StockTradingValueObservation}
    (h : indexObservations timeBucket observations .empty = .ok indexed) :
    ∃ indexed', indexObservations timeBucket (observations.filter keep) .empty = .ok indexed' ∧
      ∀ key, indexed'.get? key = (indexed.get? key).filter keep :=
  indexObservations_filter_from keep (fun _ => rfl) h

private theorem get?_indexObservations_from {observations : List StockTradingValueObservation}
    {index : Dict (String × Date) StockTradingValueObservation}
    (h : indexObservations timeBucket observations index = .ok indexed) :
    ∀ stockId day, indexed.get? (stockId, day) =
      (index.get? (stockId, day)).or (rowOf timeBucket observations stockId day) := by
  induction observations generalizing index with
  | nil =>
    cases h
    intro stockId day
    simp [rowOf]
  | cons o observations ih =>
    rw [indexObservations] at h
    intro stockId day
    by_cases hbucket : o.timeBucket = timeBucket
    · rw [if_neg (not_not.mpr hbucket)] at h
      dsimp only at h
      split at h
      · cases h
      · next hfresh =>
        have hnone : index.get? (o.stockId, o.marketDate) = none := by simpa using hfresh
        rw [ih h, rowOf, rowOf]
        by_cases hkey : o.stockId = stockId ∧ o.marketDate = day
        · obtain ⟨rfl, rfl⟩ := hkey
          rw [Dict.get?_set_self, hnone, List.find?_cons_of_pos (by simpa using hbucket)]
          rfl
        · have hne : (stockId, day) ≠ (o.stockId, o.marketDate) := fun heq =>
            hkey ⟨(Prod.mk.inj heq).1.symm, (Prod.mk.inj heq).2.symm⟩
          rw [Dict.get?_set_of_ne _ _ hne, List.find?_cons_of_neg]
          simpa [hbucket] using hkey
    · rw [if_pos hbucket] at h
      rw [ih h, rowOf, rowOf, List.find?_cons_of_neg (by simp [hbucket])]

theorem get?_indexObservations {observations : List StockTradingValueObservation}
    (h : indexObservations timeBucket observations .empty = .ok indexed) (stockId : String)
    (day : Date) :
    indexed.get? (stockId, day) = rowOf timeBucket observations stockId day := by
  rw [get?_indexObservations_from h, Dict.get?_empty, Option.none_or]

theorem selectMembershipSnapshot_filter {snapshots : List ThemeMembershipSnapshot}
    {themeId : String} {marketDate : Date} {decisionAt evaluationAt : Datetime}
    (h : decisionAt ≤ evaluationAt) :
    selectMembershipSnapshot (snapshots.filter (knownBy evaluationAt)) themeId marketDate
      decisionAt = selectMembershipSnapshot snapshots themeId marketDate decisionAt := by
  have hfilter : (snapshots.filter (knownBy evaluationAt)).filter
      (fun m => decide (m.Usable themeId marketDate decisionAt)) =
        snapshots.filter fun m => decide (m.Usable themeId marketDate decisionAt) := by
    rw [List.filter_filter]
    refine List.filter_congr fun m _ => ?_
    by_cases husable : m.Usable themeId marketDate decisionAt
    · have hknown : m.knownAt ≤ evaluationAt := Int.le_trans husable.2.2 h
      simp [husable, knownBy, hknown]
    · simp [husable]
  unfold selectMembershipSnapshot
  rw [hfilter]

/-- The value of an earlier day, if it may be used at its own time and the stock belonged to the
theme then. -/
def countedValue (snapshots : List ThemeMembershipSnapshot) (themeId stockId : String)
    (o : StockTradingValueObservation) : Option Decimal :=
  match selectMembershipSnapshot snapshots themeId o.marketDate o.observedAt with
  | .ok (some membership) =>
    if membership.contains stockId ∧ isUsable (some o) o.observedAt then o.cumulativeTradingValue
    else none
  | _ => none

/-- The values of a stock on some days that count, of those observations that are kept. -/
def baselineValues (snapshots : List ThemeMembershipSnapshot) (themeId : String)
    (timeBucket : TimeOfDay) (observations : List StockTradingValueObservation)
    (historyDates : List Date) (keep : StockTradingValueObservation → Bool) (stockId : String) :
    List Decimal :=
  historyDates.filterMap fun day =>
    ((rowOf timeBucket observations stockId day).filter keep).bind
      (countedValue snapshots themeId stockId)

/-- No value that counts was observed after the evaluation. -/
def NoneLate (snapshots : List ThemeMembershipSnapshot) (themeId : String) (timeBucket : TimeOfDay)
    (observations : List StockTradingValueObservation) (historyDates : List Date)
    (evaluationAt : Datetime) (stockId : String) : Prop :=
  ∀ day ∈ historyDates, ∀ o, rowOf timeBucket observations stockId day = some o →
    evaluationAt < o.observedAt → countedValue snapshots themeId stockId o = none

/-- Some values give no baseline: they are too few, or their median is not positive. -/
def Silent (policy : SameTimeBaselinePolicy) (values : List Decimal) : Prop :=
  (values.length : Int) < policy.minimumObservations ∨
    ∃ middle, turnoverMedian values = .ok middle ∧ middle ≤ Decimal.zero

theorem filterMap_fewer {α β : Type} {f g : α → Option β} {as : List α}
    (h : ∀ a ∈ as, g a = f a ∨ g a = none) :
    ((∀ a ∈ as, g a = f a) ∧ as.filterMap g = as.filterMap f) ∨
      ((∃ a ∈ as, g a ≠ f a) ∧ (as.filterMap g).length < (as.filterMap f).length) := by
  induction as with
  | nil => exact .inl ⟨by simp, rfl⟩
  | cons a as ih =>
    have hrest := ih fun b hb => h b (List.mem_cons_of_mem _ hb)
    have hle : (as.filterMap g).length ≤ (as.filterMap f).length := by
      rcases hrest with ⟨-, heq⟩ | ⟨-, hlt⟩
      · rw [heq]
      · omega
    by_cases hsame : g a = f a
    · rcases hrest with ⟨hall, heq⟩ | ⟨⟨b, hb, hne⟩, hlt⟩
      · refine .inl ⟨?_, ?_⟩
        · intro b hb
          rcases List.mem_cons.mp hb with rfl | hb
          · exact hsame
          · exact hall b hb
        · rw [List.filterMap_cons, List.filterMap_cons, hsame, heq]
      · refine .inr ⟨⟨b, List.mem_cons_of_mem _ hb, hne⟩, ?_⟩
        rw [List.filterMap_cons, List.filterMap_cons, hsame]
        cases f a with
        | none => exact hlt
        | some v => simpa using hlt
    · have hnone : g a = none := (h a (List.mem_cons_self ..)).resolve_left hsame
      refine .inr ⟨⟨a, List.mem_cons_self .., hsame⟩, ?_⟩
      rw [List.filterMap_cons, List.filterMap_cons, hnone]
      cases hf : f a with
      | none => exact absurd (hnone.trans hf.symm) hsame
      | some v =>
        dsimp only
        rw [List.length_cons]
        omega

section Values

variable {snapshots : List ThemeMembershipSnapshot} {themeId : String} {timeBucket : TimeOfDay}
  {observations : List StockTradingValueObservation} {historyDates : List Date}
  {evaluationAt : Datetime} {stockId : String}

theorem baselineValues_fewer :
    (NoneLate snapshots themeId timeBucket observations historyDates evaluationAt stockId ∧
      baselineValues snapshots themeId timeBucket observations historyDates
      (observedBy evaluationAt)
          stockId =
        baselineValues snapshots themeId timeBucket observations historyDates (fun _ => true)
          stockId) ∨
    (¬ NoneLate snapshots themeId timeBucket observations historyDates evaluationAt stockId ∧
      (baselineValues snapshots themeId timeBucket observations historyDates
          (observedBy evaluationAt) stockId).length <
        (baselineValues snapshots themeId timeBucket observations historyDates (fun _ => true)
          stockId).length) := by
  have hrow : ∀ day o, rowOf timeBucket observations stockId day = some o →
      ((rowOf timeBucket observations stockId day).filter (observedBy evaluationAt)).bind
          (countedValue snapshots themeId stockId) =
        if evaluationAt < o.observedAt then none else countedValue snapshots themeId stockId o := by
    intro day o hrow
    rw [hrow, Option.filter_some]
    by_cases hlate : evaluationAt < o.observedAt
    · have hnot : observedBy evaluationAt o = false := by
        simpa [observedBy] using not_le_of_gt hlate
      rw [hnot, if_pos hlate]
      rfl
    · have hle : o.observedAt ≤ evaluationAt := Int.not_lt.mp hlate
      have hin : observedBy evaluationAt o = true := by simpa [observedBy] using hle
      rw [hin, if_neg hlate]
      rfl
  have hall : ∀ day, ((rowOf timeBucket observations stockId day).filter fun _ => true).bind
      (countedValue snapshots themeId stockId) =
        (rowOf timeBucket observations stockId day).bind
        (countedValue snapshots themeId stockId) := by
    intro day
    cases rowOf timeBucket observations stockId day <;> rfl
  rcases filterMap_fewer
      (g := fun day => ((rowOf timeBucket observations stockId day).filter
        (observedBy evaluationAt)).bind (countedValue snapshots themeId stockId))
      (f := fun day => ((rowOf timeBucket observations stockId day).filter fun _ => true).bind
        (countedValue snapshots themeId stockId)) (fun day (_ : day ∈ historyDates) => by
        cases hday : rowOf timeBucket observations stockId day with
        | none => exact .inl rfl
        | some o =>
          have hvalue := hrow day o hday
          rw [hday] at hvalue
          rw [hvalue]
          split
          · exact .inr rfl
          · exact .inl rfl) with ⟨hsame, heq⟩ | ⟨⟨day, hday, hne⟩, hlt⟩
  · refine .inl ⟨fun day hday o ho hlate => ?_, heq⟩
    have hvalue := hsame day hday
    rw [hrow day o ho, if_pos hlate, hall, ho] at hvalue
    exact hvalue.symm
  · refine .inr ⟨fun hnone => hne ?_, hlt⟩
    rw [hall]
    cases ho : rowOf timeBucket observations stockId day with
    | none => rfl
    | some o =>
      have hvalue := hrow day o ho
      rw [ho] at hvalue
      rw [hvalue]
      split
      · next hlate => exact (hnone day hday o ho hlate).symm
      · rfl

theorem historicalValue_eq_ok {indexed : Dict (String × Date) StockTradingValueObservation}
    (hindexed : indexObservations timeBucket observations .empty = .ok indexed) {day : Date}
    {value : Option Decimal}
    (h : historicalValue snapshots themeId indexed stockId day = .ok value) :
    value = (rowOf timeBucket observations stockId day).bind
      (countedValue snapshots themeId stockId) := by
  unfold historicalValue at h
  rw [get?_indexObservations hindexed] at h
  cases ho : rowOf timeBucket observations stockId day with
  | none =>
    rw [ho] at h
    exact (Except.ok.inj h).symm
  | some o =>
    rw [ho] at h
    have hday : o.marketDate = day := by
      have hfound := List.find?_some ho
      simp only [decide_eq_true_eq] at hfound
      exact hfound.2.2
    obtain ⟨selected, hselected, h⟩ := bind_eq_ok.mp h
    rw [Option.bind_some, countedValue, hday, hselected]
    cases selected with
    | none => exact (Except.ok.inj h).symm
    | some membership =>
      dsimp only at h ⊢
      split at h
      · next hout =>
        rw [if_neg (by simp [hout])]
        exact (Except.ok.inj h).symm
      · split at h
        · next hunusable =>
          rw [if_neg (by simp [hunusable])]
          exact (Except.ok.inj h).symm
        · next hin husable =>
          rw [if_pos ⟨by simpa using hin, by simpa using husable⟩]
          exact (Except.ok.inj h).symm

theorem historicalValue_filter {indexed indexed' : Dict
      (String × Date) StockTradingValueObservation}
    (hindexed : indexObservations timeBucket observations .empty = .ok indexed)
    (hfilter : ∀ key, indexed'.get? key = (indexed.get? key).filter (observedBy evaluationAt))
    {day : Date} {value : Option Decimal}
    (h : historicalValue snapshots themeId indexed stockId day = .ok value) :
    historicalValue (snapshots.filter (knownBy evaluationAt)) themeId indexed' stockId day =
      .ok (((rowOf timeBucket observations stockId day).filter (observedBy evaluationAt)).bind
        (countedValue snapshots themeId stockId)) := by
  have hvalue := historicalValue_eq_ok hindexed h
  unfold historicalValue at h ⊢
  rw [hfilter]
  rw [get?_indexObservations hindexed] at h ⊢
  cases ho : rowOf timeBucket observations stockId day with
  | none => rfl
  | some o =>
    rw [ho] at h hvalue
    rw [Option.filter_some]
    by_cases hin : observedBy evaluationAt o = true
    · have hle : o.observedAt ≤ evaluationAt := by simpa [observedBy] using hin
      rw [if_pos hin]
      dsimp only at h ⊢
      rw [selectMembershipSnapshot_filter hle, ← hvalue]
      exact h
    · rw [if_neg hin]
      rfl

end Values

section Member

variable {policy : SameTimeBaselinePolicy} {stockId : String} {current : Decimal}
  {values : List Decimal} {outcome : Sum QualityFlag StockTurnoverMetric}

theorem turnoverOver_eq_ok (h : turnoverOver policy stockId current values = .ok outcome) :
    (outcome.getRight? = none ∧ Silent policy values) ∨
      ∃ metric, outcome = .inr metric ∧ metric.stockId = stockId ∧
        metric.observationCount = values.length := by
  unfold turnoverOver at h
  split at h
  · next hfew =>
    cases h
    exact .inl ⟨rfl, .inl hfew⟩
  · obtain ⟨middle, hmiddle, h⟩ := bind_eq_ok.mp h
    split at h
    · next hzero =>
      cases h
      exact .inl ⟨rfl, .inr ⟨middle, hmiddle, hzero⟩⟩
    · obtain ⟨multiple, -, h⟩ := bind_eq_ok.mp h
      cases h
      exact .inr ⟨_, rfl, rfl, rfl⟩

theorem turnoverOver_of_silent (h : Silent policy values) :
    ∃ flag, turnoverOver policy stockId current values = .ok (.inl flag) := by
  unfold turnoverOver
  rcases h with hfew | ⟨middle, hmiddle, hzero⟩
  · exact ⟨_, if_pos hfew⟩
  · split
    · exact ⟨_, rfl⟩
    · refine ⟨.zeroBaseline, ?_⟩
      rw [hmiddle]
      exact if_pos hzero

variable {snapshots : List ThemeMembershipSnapshot} {themeId : String} {timeBucket : TimeOfDay}
  {observations : List StockTradingValueObservation} {historyDates : List Date}
  {evaluationDate : Date} {evaluationAt : Datetime}
  {indexed indexed' : Dict (String × Date) StockTradingValueObservation} {member : ThemeMember}

/-- A member has the same metric without what comes late exactly if none of its values comes late or
if it has none either way. -/
def Unmoved (policy : SameTimeBaselinePolicy) (snapshots : List ThemeMembershipSnapshot)
    (themeId : String) (timeBucket : TimeOfDay) (observations : List StockTradingValueObservation)
    (historyDates : List Date) (evaluationAt : Datetime) (stockId : String) : Prop :=
  NoneLate snapshots themeId timeBucket observations historyDates evaluationAt stockId ∨
    (Silent policy (baselineValues snapshots themeId timeBucket observations historyDates
        (fun _ => true) stockId) ∧
      Silent policy (baselineValues snapshots themeId timeBucket observations historyDates
        (observedBy evaluationAt) stockId))

theorem isUsable_filter (o : Option StockTradingValueObservation) :
    isUsable (o.filter (observedBy evaluationAt)) evaluationAt = isUsable o evaluationAt := by
  cases o with
  | none => rfl
  | some o =>
    rw [Option.filter_some]
    by_cases hin : observedBy evaluationAt o = true
    · rw [if_pos hin]
    · have hlate : ¬ o.observedAt ≤ evaluationAt := by simpa [observedBy] using hin
      rw [if_neg hin]
      simp [isUsable, hlate]

theorem memberTurnover_filter
    (hindexed : indexObservations timeBucket observations .empty = .ok indexed)
    (hfilter : ∀ key, indexed'.get? key = (indexed.get? key).filter (observedBy evaluationAt))
    (h : memberTurnover policy snapshots themeId evaluationDate evaluationAt historyDates indexed
      member = .ok outcome) :
    (∃ outcome', memberTurnover policy (snapshots.filter (knownBy evaluationAt)) themeId
        evaluationDate evaluationAt historyDates indexed' member = .ok outcome' ∧
        outcome'.getRight? = outcome.getRight?) ↔
      (isUsable (rowOf timeBucket observations member.stockId evaluationDate) evaluationAt = true →
        Unmoved policy snapshots themeId timeBucket observations historyDates evaluationAt
          member.stockId) := by
  unfold memberTurnover at h ⊢
  dsimp only at h ⊢
  rw [hfilter, isUsable_filter]
  rw [get?_indexObservations hindexed] at h ⊢
  cases husable : isUsable (rowOf timeBucket observations member.stockId evaluationDate)
      evaluationAt with
  | false =>
    rw [husable, if_pos rfl] at h
    cases h
    rw [if_pos rfl]
    simp
  | true =>
    rw [husable, if_neg (by decide)] at h
    rw [if_neg (by decide)]
    obtain ⟨historical, hhistorical, h⟩ := bind_eq_ok.mp h
    have hvalues : historical.filterMap id = baselineValues snapshots themeId timeBucket
        observations historyDates (fun _ => true) member.stockId := by
      have hmap := map_eq_of_mapM_eq_ok (k := id) hhistorical
        fun day value hvalue => historicalValue_eq_ok hindexed hvalue
      rw [List.map_id] at hmap
      rw [hmap, List.filterMap_map]
      refine List.filterMap_congr fun day _ => ?_
      dsimp only [Function.comp_apply, id]
      cases rowOf timeBucket observations member.stockId day <;> rfl
    have hhistorical' : historyDates.mapM (historicalValue (snapshots.filter (knownBy evaluationAt))
        themeId indexed' member.stockId) = .ok (historyDates.map fun day =>
          ((rowOf timeBucket observations member.stockId day).filter (observedBy evaluationAt)).bind
            (countedValue snapshots themeId member.stockId)) := by
      refine mapM_eq_ok_map fun day hday => ?_
      obtain ⟨value, -, hvalue⟩ := (mem_of_mapM_eq_ok hhistorical).2 day hday
      exact historicalValue_filter hindexed hfilter hvalue
    have hvalues' : (historyDates.map fun day =>
          ((rowOf timeBucket observations member.stockId day).filter (observedBy evaluationAt)).bind
            (countedValue snapshots themeId member.stockId)).filterMap id =
        baselineValues snapshots themeId timeBucket observations historyDates
          (observedBy evaluationAt) member.stockId := by
      rw [List.filterMap_map]
      rfl
    have hcurrent : (rowOf timeBucket observations member.stockId evaluationDate).filter
        (observedBy evaluationAt) = rowOf timeBucket observations member.stockId
        evaluationDate := by
      cases ho : rowOf timeBucket observations member.stockId evaluationDate with
      | none => rfl
      | some o =>
        rw [ho] at husable
        have hle : o.observedAt ≤ evaluationAt := by
          simp only [isUsable, Option.any_some, Bool.and_eq_true, decide_eq_true_eq] at husable
          exact husable.1.1.1.1.1
        rw [Option.filter_some, if_pos (by simpa [observedBy] using hle)]
    rw [hhistorical', hcurrent]
    rw [hvalues] at h
    dsimp only [bind, Except.bind]
    rw [hvalues']
    refine ⟨?_, fun hunmoved => ?_⟩
    · rintro ⟨outcome', houtcome', hsame⟩ -
      rcases @baselineValues_fewer snapshots themeId timeBucket observations
          historyDates evaluationAt
        member.stockId with ⟨hnone, -⟩ | ⟨-, hlt⟩
      · exact .inl hnone
      · rcases turnoverOver_eq_ok h with ⟨hnone, hsilent⟩ | ⟨metric, rfl, -, hcount⟩
        · rcases turnoverOver_eq_ok houtcome' with ⟨-, hsilent'⟩ | ⟨metric', rfl, -, -⟩
          · exact .inr ⟨hsilent, hsilent'⟩
          · rw [hnone] at hsame
            cases hsame
        · rcases turnoverOver_eq_ok houtcome' with ⟨hnone, -⟩ | ⟨metric', rfl, -, hcount'⟩
          · rw [hnone] at hsame
            cases hsame
          · obtain rfl : metric' = metric := Option.some.inj hsame
            omega
    · rcases hunmoved rfl with hnone | ⟨hsilent, hsilent'⟩
      · rcases @baselineValues_fewer snapshots themeId timeBucket observations historyDates
          evaluationAt member.stockId with ⟨-, heq⟩ | ⟨hlate, -⟩
        · exact ⟨outcome, heq ▸ h, rfl⟩
        · exact absurd hnone hlate
      · obtain ⟨flag, hflag⟩ := @turnoverOver_of_silent policy member.stockId _ _ hsilent
        obtain ⟨flag', hflag'⟩ := @turnoverOver_of_silent policy member.stockId _ _ hsilent'
        refine ⟨.inl flag', hflag', ?_⟩
        rw [Except.ok.inj (h.symm.trans hflag)]
        rfl

end Member

/-- Two results have the same turnover, from the same stocks. -/
structure SameTurnover (r r' : ThemeTurnoverResult) : Prop where
  turnoverMultiple : r'.turnoverMultiple = r.turnoverMultiple
  stockMetrics : r'.stockMetrics = r.stockMetrics
  validCount : r'.validCount = r.validCount
  baselineStatus : r'.baselineStatus = r.baselineStatus

theorem themeTurnover_flags {policy : SameTimeBaselinePolicy} {version : String} {totalCount : Nat}
    {stockMetrics : List StockTurnoverMetric} {flags : List QualityFlag} {r : ThemeTurnoverResult}
    (h : themeTurnover policy version totalCount stockMetrics flags = .ok r)
    (flags' : List QualityFlag) :
    r.stockMetrics = stockMetrics ∧
      ∃ r', themeTurnover policy version totalCount stockMetrics flags' = .ok r' ∧
        SameTurnover r r' := by
  unfold themeTurnover at h ⊢
  dsimp only at h ⊢
  split at h
  · next hnone =>
    cases h
    rw [if_pos hnone]
    exact ⟨rfl, _, rfl, rfl, rfl, rfl, rfl⟩
  · next hsome =>
    rw [if_neg hsome]
    obtain ⟨denominator, hdenominator, h⟩ := bind_eq_ok.mp h
    obtain ⟨numerator, hnumerator, h⟩ := bind_eq_ok.mp h
    rw [hdenominator, hnumerator]
    dsimp only [bind, Except.bind]
    split at h
    · next hzero =>
      cases h
      rw [if_pos hzero]
      exact ⟨rfl, _, rfl, rfl, rfl, rfl, rfl⟩
    · next hpositive =>
      rw [if_neg hpositive]
      obtain ⟨multiple, hmultiple, h⟩ := bind_eq_ok.mp h
      rw [hmultiple]
      dsimp only
      split at h
      · next hfull =>
        cases h
        rw [if_pos hfull]
        exact ⟨rfl, _, rfl, rfl, rfl, rfl, rfl⟩
      · next hpart =>
        cases h
        rw [if_neg hpart]
        exact ⟨rfl, _, rfl, rfl, rfl, rfl, rfl⟩

theorem stockId_of_memberTurnover {policy : SameTimeBaselinePolicy}
    {snapshots : List ThemeMembershipSnapshot} {themeId : String} {evaluationDate : Date}
    {evaluationAt : Datetime} {historyDates : List Date} {member : ThemeMember}
    {metric : StockTurnoverMetric}
    (h : memberTurnover policy snapshots themeId evaluationDate evaluationAt historyDates indexed
      member = .ok (.inr metric)) : metric.stockId = member.stockId := by
  unfold memberTurnover at h
  dsimp only at h
  split at h
  · cases h
  · obtain ⟨historical, -, h⟩ := bind_eq_ok.mp h
    rcases turnoverOver_eq_ok h with ⟨hnone, -⟩ | ⟨metric', heq, hstock, -⟩
    · cases hnone
    · cases heq
      exact hstock

section Outcomes

variable {members : List ThemeMember}
  {f g : ThemeMember → Except Error (Sum QualityFlag StockTurnoverMetric)}
  {outcomes outcomes' : List (Sum QualityFlag StockTurnoverMetric)}

theorem getRight?_eq_some {outcome : Sum QualityFlag StockTurnoverMetric}
    {metric : StockTurnoverMetric} : outcome.getRight? = some metric ↔ outcome = .inr metric := by
  cases outcome <;> simp

theorem mem_metrics (h : members.mapM f = .ok outcomes) {metric : StockTurnoverMetric} :
    metric ∈ outcomes.filterMap Sum.getRight? ↔ ∃ member ∈ members, f member = .ok
      (.inr metric) := by
  rw [List.mem_filterMap]
  constructor
  · rintro ⟨outcome, houtcome, hmetric⟩
    obtain ⟨member, hmember, hf⟩ := (mem_of_mapM_eq_ok h).1 outcome houtcome
    rw [getRight?_eq_some.mp hmetric] at hf
    exact ⟨member, hmember, hf⟩
  · rintro ⟨member, hmember, hf⟩
    obtain ⟨outcome, houtcome, hf'⟩ := (mem_of_mapM_eq_ok h).2 member hmember
    obtain rfl := Except.ok.inj (hf.symm.trans hf')
    exact ⟨_, houtcome, rfl⟩

theorem metrics_eq (houtcomes : members.mapM f = .ok outcomes)
    (houtcomes' : members.mapM g = .ok outcomes')
    (h : ∀ member ∈ members, ∀ outcome outcome', f member = .ok outcome → g member = .ok outcome' →
      outcome'.getRight? = outcome.getRight?) :
    outcomes'.filterMap Sum.getRight? = outcomes.filterMap Sum.getRight? := by
  have hall := forall₂_of_mapM_eq_ok houtcomes
  have hall' := forall₂_of_mapM_eq_ok houtcomes'
  clear houtcomes houtcomes'
  induction hall generalizing outcomes' with
  | nil =>
    cases hall'
    rfl
  | @cons member outcome members outcomes hf _ ih =>
    cases hall' with
    | @cons _ outcome' _ outcomes' hg hrest =>
      have hsame := h member (List.mem_cons_self ..) outcome outcome' hf hg
      rw [List.filterMap_cons, List.filterMap_cons, hsame,
        ih (fun m hm => h m (List.mem_cons_of_mem _ hm)) hrest]

theorem outcomes_of_metrics (hnodup : (members.map ThemeMember.stockId).Nodup)
    (hf : ∀ member metric, f member = .ok (.inr metric) → metric.stockId = member.stockId)
    (hg : ∀ member metric, g member = .ok (.inr metric) → metric.stockId = member.stockId)
    (houtcomes : members.mapM f = .ok outcomes) (houtcomes' : members.mapM g = .ok outcomes')
    (h : ∀ metric, metric ∈ outcomes'.filterMap Sum.getRight? ↔
      metric ∈ outcomes.filterMap Sum.getRight?) {member : ThemeMember} (hmember : member ∈ members)
    {outcome : Sum QualityFlag StockTurnoverMetric} (hout : f member = .ok outcome) :
    ∃ outcome', g member = .ok outcome' ∧ outcome'.getRight? = outcome.getRight? := by
  obtain ⟨outcome', -, hout'⟩ := (mem_of_mapM_eq_ok houtcomes').2 member hmember
  have hinj : ∀ m ∈ members, m.stockId = member.stockId → m = member := fun m hm heq =>
    List.inj_on_of_nodup_map hnodup hm hmember heq
  refine ⟨outcome', hout', Option.ext fun metric => ?_⟩
  rw [getRight?_eq_some, getRight?_eq_some]
  constructor
  · rintro rfl
    obtain ⟨other, hother, hmetric⟩ :=
      (mem_metrics houtcomes).mp
      ((h metric).mp ((mem_metrics houtcomes').mpr ⟨member, hmember, hout'⟩))
    rw [hinj other hother ((hf _ _ hmetric).symm.trans (hg _ _ hout'))] at hmetric
    exact Except.ok.inj (hout.symm.trans hmetric)
  · rintro rfl
    obtain ⟨other, hother, hmetric⟩ :=
      (mem_metrics houtcomes').mp
      ((h metric).mpr ((mem_metrics houtcomes).mpr ⟨member, hmember, hout⟩))
    rw [hinj other hother ((hg _ _ hmetric).symm.trans (hf _ _ hout))] at hmetric
    exact Except.ok.inj (hout'.symm.trans hmetric)

end Outcomes

/-- Without the observations and memberships that come after the evaluation, the turnover is the
same exactly if no member with a present value has a counted value of an earlier day that was
observed after the evaluation, except for members without a baseline either way. -/
theorem calculateThemeTurnover_foresight {themeId : String} {evaluationDate : Date}
    {evaluationAt : Datetime} {timeBucket : TimeOfDay} {tradingDays historyDates : List Date}
    {snapshots : List ThemeMembershipSnapshot} {observations : List StockTradingValueObservation}
    {policy : SameTimeBaselinePolicy} {r : ThemeTurnoverResult}
    (hdates : validateTradingDays tradingDays evaluationDate policy.lookbackTradingDays =
      .ok historyDates)
    (h : calculateThemeTurnover themeId evaluationDate evaluationAt timeBucket tradingDays snapshots
      observations policy = .ok r) :
    (∃ r', calculateThemeTurnover themeId evaluationDate evaluationAt timeBucket tradingDays
        (snapshots.filter (knownBy evaluationAt)) (observations.filter (observedBy evaluationAt))
        policy = .ok r' ∧ SameTurnover r r') ↔
      ∀ membership, selectMembershipSnapshot snapshots themeId evaluationDate evaluationAt =
          .ok (some membership) →
        ∀ member ∈ membership.members,
          isUsable (rowOf timeBucket observations member.stockId evaluationDate) evaluationAt =
          true →
            Unmoved policy snapshots themeId timeBucket observations historyDates evaluationAt
              member.stockId := by
  rw [calculateThemeTurnover, hdates] at h
  obtain ⟨dates, hok, h⟩ := bind_eq_ok.mp h
  cases hok
  obtain ⟨indexed, hindexed, h⟩ := bind_eq_ok.mp h
  obtain ⟨selected, hselected, h⟩ := bind_eq_ok.mp h
  obtain ⟨indexed', hindexed', hfilter⟩ := indexObservations_filter (observedBy evaluationAt)
    hindexed
  rw [calculateThemeTurnover, hdates, hindexed',
    selectMembershipSnapshot_filter (Int.le_refl _), hselected]
  dsimp only [bind, Except.bind]
  cases selected with
  | none =>
    cases h
    refine ⟨fun _ membership heq => ?_, fun _ => ⟨_, rfl, rfl, rfl, rfl, rfl⟩⟩
    cases heq
  | some membership =>
    dsimp only at h ⊢
    rw [membershipTurnover] at h ⊢
    obtain ⟨outcomes, houtcomes, h⟩ := bind_eq_ok.mp h
    have hnodup : ((membership.members.insertionSort fun a b => a.stockId ≤ b.stockId).map
        ThemeMember.stockId).Nodup := by
      have hvalid := membership.valid
      simp only [ThemeMembershipSnapshot.Fields.postInit, check_bind_eq_ok, ensure_eq_ok] at hvalid
      exact ((List.perm_insertionSort _ _).map _).nodup_iff.mpr hvalid.2.2
    have hmember : ∀ member ∈ membership.members.insertionSort fun a b => a.stockId ≤ b.stockId,
        ∀ outcome, memberTurnover policy snapshots themeId evaluationDate evaluationAt historyDates
          indexed member = .ok outcome → _ := fun member _ outcome houtcome =>
      memberTurnover_filter hindexed hfilter houtcome
    constructor
    · rintro ⟨r', hr', hsame⟩ membership' hmembership' member hmem
      cases hmembership'
      obtain ⟨outcomes', houtcomes', hr'⟩ := bind_eq_ok.mp hr'
      have hmetrics := (themeTurnover_flags h []).1
      have hmetrics' := (themeTurnover_flags hr' []).1
      have hmem' := (List.mem_insertionSort (fun a b => a.stockId ≤ b.stockId)).mpr hmem
      obtain ⟨outcome, -, houtcome⟩ := (mem_of_mapM_eq_ok houtcomes).2 member hmem'
      refine (hmember member hmem' outcome houtcome).mp ?_
      refine outcomes_of_metrics hnodup (fun _ _ => stockId_of_memberTurnover)
        (fun _ _ => stockId_of_memberTurnover) houtcomes houtcomes' (fun metric => ?_) hmem'
        houtcome
      have hlists := hmetrics'.symm.trans (hsame.stockMetrics.trans hmetrics)
      rw [← List.mem_insertionSort (fun a b => a.stockId ≤ b.stockId), hlists,
        List.mem_insertionSort]
    · intro hunmoved
      have hall : ∀ member ∈ membership.members.insertionSort fun a b => a.stockId ≤ b.stockId,
          ∀ outcome,
          memberTurnover policy snapshots themeId evaluationDate evaluationAt historyDates
            indexed member = .ok outcome → ∃ outcome', memberTurnover policy
              (snapshots.filter (knownBy evaluationAt)) themeId evaluationDate evaluationAt
              historyDates indexed' member = .ok outcome' ∧
                outcome'.getRight? = outcome.getRight? :=
        fun member hmem outcome houtcome => (hmember member hmem outcome houtcome).mpr
          (hunmoved membership rfl member ((List.mem_insertionSort _).mp hmem))
      obtain ⟨outcomes', houtcomes'⟩ := exists_mapM_eq_ok fun member hmem => by
        obtain ⟨outcome, -, houtcome⟩ := (mem_of_mapM_eq_ok houtcomes).2 member hmem
        obtain ⟨outcome', houtcome', -⟩ := hall member hmem outcome houtcome
        exact ⟨outcome', houtcome'⟩
      have hmetrics := metrics_eq houtcomes houtcomes' fun member hmem outcome outcome' hf hg => by
        obtain ⟨found, hfound, hsame⟩ := hall member hmem outcome hf
        rw [Except.ok.inj (hg.symm.trans hfound)]
        exact hsame
      obtain ⟨-, r', hr', hsame⟩ := themeTurnover_flags h (outcomes'.filterMap Sum.getLeft?)
      refine ⟨r', ?_, hsame⟩
      rw [houtcomes']
      dsimp only [bind, Except.bind]
      rw [hmetrics]
      exact hr'

/-- A policy that looks one day back. -/
def oneDayBack : SameTimeBaselinePolicy where
  version := "one-day"
  maturity := .backtestPending
  lookbackTradingDays := 1
  minimumObservations := 1
  valid := by decide

def monday : Date := .august 3

def friday : Date := ⟨2026, 7, 31, by decide⟩

/-- An hour of the day of the evaluation. -/
def mondayAt (hour : Nat) : Datetime := monday.seoul hour 0

/-- A theme of one stock, known on the trading day before. -/
def fridayMembership : ThemeMembershipSnapshot :=
  ⟨{ themeId := "theme-1", version := "m1", effectiveFrom := friday
     knownAt := friday.seoul 8 0
     members := [⟨"KRX:005930", .core, stock005930_ne⟩] }, by decide⟩

/-- The value traded in the stock up to ten on a day, observed at an hour of the day of the
evaluation. -/
def tenOClock (day : Date) (hour value : Nat)
    (hvalue : StockTradingValueObservation.Fields.postInit
      { stockId := "KRX:005930", marketDate := day, observedAt := mondayAt hour
        timeBucket := ⟨10, 0, 0, 0, by decide⟩
        cumulativeTradingValue := some (.ofNat value) } = .ok ()) : StockTradingValueObservation :=
  ⟨_, hvalue⟩

/-- The turnover at noon from the value of the day before observed at an hour. -/
def noonTurnover (snapshots : List ThemeMembershipSnapshot)
    (observations : List StockTradingValueObservation) : Except Error ThemeTurnoverResult :=
  calculateThemeTurnover "theme-1" monday (mondayAt 12) ⟨10, 0, 0, 0, by decide⟩
    [friday, monday] snapshots observations oneDayBack

/-- A value of the day before that is known at noon counts either way. -/
theorem calculateThemeTurnover_foresight_knownValue :
    ∃ r, noonTurnover [fridayMembership] [tenOClock friday 9 100 (by decide),
        tenOClock monday 10 200 (by decide)] = .ok r ∧
      ∃ r', noonTurnover ([fridayMembership].filter (knownBy (mondayAt 12)))
        ([tenOClock friday 9 100 (by decide),
          tenOClock monday 10 200 (by decide)].filter
            (observedBy (mondayAt 12))) = .ok r' ∧ SameTurnover r r' := by
  have hok : (noonTurnover [fridayMembership] [tenOClock friday 9 100 (by decide),
      tenOClock monday 10 200 (by decide)]).isOk = true := by decide +kernel
  cases h : noonTurnover [fridayMembership] [tenOClock friday 9 100 (by decide),
      tenOClock monday 10 200 (by decide)] with
  | error e =>
    rw [h] at hok
    cases hok
  | ok r =>
    have hdates : validateTradingDays [friday, monday] monday oneDayBack.lookbackTradingDays =
        .ok [friday] := by decide +kernel
    refine
      ⟨r, rfl, (calculateThemeTurnover_foresight hdates h).mpr fun membership _ member _ _ => ?_⟩
    refine .inl fun day hday o ho hlate => ?_
    obtain rfl := List.mem_singleton.mp hday
    have hmem := List.mem_of_find?_eq_some ho
    rcases List.mem_cons.mp hmem with rfl | hmem
    · exact absurd hlate (by decide)
    · obtain rfl := List.mem_singleton.mp hmem
      exact absurd hlate (by decide)

/-- A value of the day before that is observed an hour after the evaluation counts. -/
theorem turnover_differs_lateValue :
    (noonTurnover [fridayMembership] [tenOClock friday 13 100 (by decide),
        tenOClock monday 10 200 (by decide)]).map
          (fun r => (r.turnoverMultiple, r.validCount, r.baselineStatus)) =
        .ok (some (.ofNat 2), 1, .full) ∧
      (noonTurnover ([fridayMembership].filter (knownBy (mondayAt 12)))
        ([tenOClock friday 13 100 (by decide),
          tenOClock monday 10 200 (by decide)].filter
            (observedBy (mondayAt 12)))).map
          (fun r => (r.turnoverMultiple, r.validCount, r.baselineStatus)) =
        .ok (none, 0, .insufficient) := by
  constructor
  · decide +kernel
  · decide +kernel

end Dayjaview.Calculations
