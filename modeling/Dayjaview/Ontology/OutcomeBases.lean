import Dayjaview.Ontology.Outcomes

/-!
# The bases of returns

Which prices the returns of the reader compare, and when all of them have one basis.
-/

namespace Dayjaview.Ontology.SqliteOutcomeReader

open Historical

/-- A close that a corpus can hold. -/
def CorpusClose (price : Decimal) : Prop :=
  -6 ≤ price.exponent ∧ price.exponent ≤ 0 ∧ Decimal.digits price.coefficient ≤ adjustedPrec

section
variable {table : DailyTable} {corpus : Corpus}

theorem corpusClose_close (h : buildCorpus table = .ok corpus) {row : PriceRow}
    (hrow : row ∈ corpus.prices) : CorpusClose (close row) := by
  unfold close
  cases hadjusted : row.adjustedClose with
  | none =>
    refine ⟨?_, le_refl _, ?_⟩
    · show (-6 : Int) ≤ 0
      decide
    have hpow : 2 ^ 63 ≤ 10 ^ adjustedPrec := by decide
    rw [Decimal.digits_le_iff (by decide)]
    exact lt_of_lt_of_le row.small hpow
  | some adjusted =>
    obtain ⟨hexponent, hdigits⟩ := (price_spec h hrow).2 adjusted hadjusted
    exact ⟨by rw [Option.getD_some, hexponent], by rw [Option.getD_some, hexponent]; decide,
      hdigits⟩

theorem coefficient_close_ne_zero {row : PriceRow} (h : row.adjustedClose = none) :
    (close row).coefficient ≠ 0 := by
  rw [close, h]
  exact ne_of_gt row.positive

theorem percentChange_ok {target base : Decimal} (ht : CorpusClose target) (hb : CorpusClose base)
    (hzero : base.coefficient ≠ 0) : ∃ change, percentChange target base = .ok change := by
  obtain ⟨htlow, hthigh, htdigits⟩ := ht
  obtain ⟨hblow, hbhigh, -⟩ := hb
  have hpositive := Decimal.digits_pos base.coefficient
  have hraw := (Decimal.rawQuotient_below Decimal.defaultPrec target hzero).mono
    (n := 60) (by rw [adjustedPrec] at htdigits; omega)
  obtain ⟨quotient, hquotient⟩ := Decimal.finish_ok_of_below .halfEven
    Decimal.defaultPrec (hraw.mono (by decide : (60 : Int) ≤ Decimal.eMax))
  have hquotientBelow := Decimal.finish_below (by decide) hraw (by decide) hquotient
  have hone : (Decimal.ofNat 1).neg.Below (60 + 1) := .inr (by decide)
  have hprec : 0 < Decimal.defaultPrec := by decide
  obtain ⟨change, hchange, hchangeBelow⟩ := Decimal.add_ok_of_below hprec hquotientBelow hone
    (by decide) (by decide)
  have hhundred : (Decimal.ofNat 100).Below 3 := .inr (by decide)
  obtain ⟨percent, hpercent, -⟩ := Decimal.mul_ok_of_below hprec hchangeBelow hhundred (by decide)
    (by decide)
  refine ⟨percent, ?_⟩
  have hdiv : Decimal.div Decimal.defaultPrec target base = .ok quotient := by
    rw [Decimal.div, if_neg hzero, hquotient]
  exact bind_eq_ok.mpr ⟨quotient, hdiv, bind_eq_ok.mpr ⟨change, hchange, hpercent⟩⟩

end

section
variable {prices : List PriceRow} {stockId : String} {day : Date}

theorem mem_pricesUpTo {row : PriceRow} :
    row ∈ pricesUpTo prices stockId day ↔
      row ∈ prices ∧ row.stockId = stockId ∧ row.tradeDate ≤ day := by
  rw [pricesUpTo, mem_ranked, List.mem_filter, decide_eq_true_eq]

theorem mem_pricesAfter {row : PriceRow} :
    row ∈ pricesAfter prices stockId day ↔
      row ∈ prices ∧ row.stockId = stockId ∧ day < row.tradeDate := by
  rw [pricesAfter, mem_ranked, List.mem_filter, decide_eq_true_eq]

theorem pricesUpTo_of_lt (h : day < priceRangeFrom prices) :
    pricesUpTo prices stockId day = [] := by
  rw [List.eq_nil_iff_forall_not_mem]
  intro row hrow
  obtain ⟨hmem, -, hday⟩ := mem_pricesUpTo.mp hrow
  have hin : row.tradeDate ∈ prices.map (·.tradeDate) :=
    List.mem_map.mpr ⟨row, hmem, rfl⟩
  unfold priceRangeFrom at h
  cases hmin : (prices.map (·.tradeDate)).min? with
  | none =>
    rw [List.min?_eq_none_iff.mp hmin] at hin
    cases hin
  | some first =>
    rw [hmin, Option.getD_some] at h
    have hle := (List.min?_eq_some_iff.mp hmin).2 _ hin
    exact absurd (lt_of_lt_of_le h hle) (not_lt.mpr hday)

theorem mem_of_horizonRow {forward : List PriceRow} {horizon : Int} {target : PriceRow}
    (h : horizonRow forward horizon = some target) : target ∈ forward := by
  unfold horizonRow at h
  split at h
  · cases h
  · exact List.mem_of_getElem? h

theorem horizonRow_take {forward : List PriceRow} {horizon : Int} {wanted : Nat}
    (h : horizon ≤ wanted) :
    horizonRow (forward.take wanted) horizon = horizonRow forward horizon := by
  unfold horizonRow
  rw [List.length_take]
  by_cases hout : horizon ≤ 0 ∨ (forward.length : Int) < horizon
  · rw [if_pos (by omega), if_pos hout]
  · rw [if_neg (by omega), if_neg hout, List.getElem?_take_of_lt (by omega)]

end

/-- The two prices that the return at a horizon compares. -/
def Compared (prices : List PriceRow) (stockCode : String) (occurredOn : Date) (horizon : Int)
    (base target : PriceRow) : Prop :=
  (pricesUpTo prices (stockIdOf stockCode) occurredOn).getLast? = some base ∧
    horizonRow (pricesAfter prices (stockIdOf stockCode) base.tradeDate) horizon = some target

/-- Every reported return compares two prices of one basis. -/
def ReturnsOneBasis (corpus : Corpus) (stockCode : String) (occurredOn : Date)
    (horizons : List Int) : Prop :=
  ∀ outcome, returns corpus.prices stockCode occurredOn horizons = .ok outcome →
    ∀ horizon change, outcome.returns.get? horizon = some (some change) →
      ∃ base target, Compared corpus.prices stockCode occurredOn horizon base target ∧
        percentChange (close target) (close base) = .ok change ∧ OneBasis corpus base target

/-- The days between the compared prices are clean, unless the database refuses the horizons. -/
def ReturnsClean (table : DailyTable) (prices : List PriceRow) (stockCode : String)
    (occurredOn : Date) (horizons : List Int) : Prop :=
  (∀ horizon ∈ horizons, horizon < 2 ^ 63) → ∀ horizon ∈ horizons, ∀ base target,
    Compared prices stockCode occurredOn horizon base target →
      table.Clean base.stockId base.tradeDate target.tradeDate

theorem get?_ofList_of_forall {κ α : Type} [DecidableEq κ] {items : List (κ × α)} {k : κ} {a : α}
    (hmem : (k, a) ∈ items) (hall : ∀ b, (k, b) ∈ items → b = a) :
    (Dict.ofList items).get? k = some a := by
  rcases Dict.get?_foldl_setBy Prod.fst Prod.snd items .empty k with ⟨e, he, rfl, hget⟩ | ⟨hno, -⟩
  · rw [Dict.ofList, hget, hall e.2 he]
  · exact absurd rfl (hno (k, a) hmem)

theorem limitRows_eq_ok {horizons : List Int} {rows forward : List PriceRow}
    (h : limitRows (horizons.max?.getD 0) rows = .ok forward) :
    (∀ horizon ∈ horizons, horizon < 2 ^ 63) ∧
      ∀ horizon ∈ horizons, horizonRow forward horizon = horizonRow rows horizon := by
  have hmax : ∀ horizon ∈ horizons, horizon ≤ horizons.max?.getD 0 := by
    intro horizon hin
    cases hmax : horizons.max? with
    | none =>
      rw [List.max?_eq_none_iff.mp hmax] at hin
      cases hin
    | some wanted => exact (List.max?_eq_some_iff.mp hmax).2 _ hin
  unfold limitRows at h
  split at h
  · cases h
  next hfits =>
  refine ⟨fun horizon hin => lt_of_le_of_lt (hmax horizon hin) (by omega), fun horizon hin => ?_⟩
  split at h
  · cases h
    rfl
  · cases h
    exact horizonRow_take (by have := hmax horizon hin; omega)

theorem limitRows_ok {horizons : List Int} (rows : List PriceRow)
    (hne : ∃ horizon ∈ horizons, 0 < horizon) (h : ∀ horizon ∈ horizons, horizon < 2 ^ 63) :
    ∃ forward, limitRows (horizons.max?.getD 0) rows = .ok forward := by
  obtain ⟨positive, hin, hpositive⟩ := hne
  cases hmax : horizons.max? with
  | none =>
    rw [List.max?_eq_none_iff.mp hmax] at hin
    cases hin
  | some wanted =>
    obtain ⟨hwanted, hle⟩ := List.max?_eq_some_iff.mp hmax
    have hlow := hle positive hin
    have hhigh := h wanted hwanted
    rw [Option.getD_some, limitRows, if_neg (by omega), if_neg (by omega)]
    exact ⟨_, rfl⟩

section
variable {prices : List PriceRow} {stockCode : String} {occurredOn : Date} {horizons : List Int}

theorem compared_of_returns {outcome : Outcome} {horizon : Int} {change : Decimal}
    (h : returns prices stockCode occurredOn horizons = .ok outcome)
    (hreturn : outcome.returns.get? horizon = some (some change)) :
    (∀ horizon ∈ horizons, horizon < 2 ^ 63) ∧ horizon ∈ horizons ∧
      ∃ base target, Compared prices stockCode occurredOn horizon base target ∧
        percentChange (close target) (close base) = .ok change := by
  have hempty : ∀ {k : Int} {a : Option Decimal},
      (Dict.ofList (horizons.map fun h => (h, (none : Option Decimal)))).get? k = some a →
      a = none := by
    intro k a hget
    obtain ⟨h', -, heq⟩ := List.mem_map.mp (Dict.mem_of_get?_ofList hget)
    exact (Prod.mk.inj heq).2.symm
  unfold returns at h
  dsimp only at h
  split at h
  · cases h
    cases hempty hreturn
  split at h
  · cases h
    cases hempty hreturn
  next base hbase =>
  split at h
  · cases h
    cases hempty hreturn
  obtain ⟨forward, hforward, h⟩ := bind_eq_ok.mp h
  obtain ⟨computed, hcomputed, h⟩ := bind_eq_ok.mp h
  cases h
  obtain ⟨hfits, hrows⟩ := limitRows_eq_ok hforward
  obtain ⟨horizon', hin, heq⟩ := (mem_of_mapM_eq_ok hcomputed).1 _ (Dict.mem_of_get?_ofList hreturn)
  unfold horizonReturnOf at heq
  split at heq
  · cases heq
  next target htarget =>
  obtain ⟨change', hchange, heq⟩ := bind_eq_ok.mp heq
  obtain ⟨rfl, hsome⟩ := Prod.mk.inj (Except.ok.inj heq)
  cases hsome
  rw [hrows _ hin] at htarget
  exact ⟨hfits, hin, base, target, ⟨hbase, htarget⟩, hchange⟩

end

section
variable {table : DailyTable} {corpus : Corpus}

variable {prices : List PriceRow} {stockId : String} {stockCodes : List String}

theorem mem_of_compared {stockCode : String} {occurredOn : Date} {horizon : Int}
    {base target : PriceRow} (h : Compared prices stockCode occurredOn horizon base target) :
    base ∈ prices ∧ target ∈ prices ∧ target.stockId = base.stockId ∧
      base.tradeDate < target.tradeDate := by
  obtain ⟨hbase, htarget⟩ := h
  obtain ⟨hbaseMem, hbaseStock, -⟩ := mem_pricesUpTo.mp (List.mem_of_getLast? hbase)
  obtain ⟨htargetMem, htargetStock, hday⟩ := mem_pricesAfter.mp (mem_of_horizonRow htarget)
  exact ⟨hbaseMem, htargetMem, htargetStock.trans hbaseStock.symm, hday⟩

theorem returns_of_compared (h : buildCorpus table = .ok corpus) {stockCode : String}
    {occurredOn : Date} {horizons : List Int} {horizon : Int} {base target : PriceRow}
    (hfits : ∀ horizon ∈ horizons, horizon < 2 ^ 63) (hin : horizon ∈ horizons)
    (hcompared : Compared corpus.prices stockCode occurredOn horizon base target)
    (hzero : (close base).coefficient ≠ 0) :
    ∃ outcome change, returns corpus.prices stockCode occurredOn horizons = .ok outcome ∧
      outcome.returns.get? horizon = some (some change) := by
  have hbase := (mem_of_compared hcompared).1
  have hpositive : 0 < horizon := by
    have htarget := hcompared.2
    by_contra hle
    rw [horizonRow, if_pos (.inl (not_lt.mp hle))] at htarget
    cases htarget
  obtain ⟨forward, hforward⟩ := limitRows_ok (pricesAfter corpus.prices
    (stockIdOf stockCode) base.tradeDate) ⟨horizon, hin, hpositive⟩ hfits
  have hrows := (limitRows_eq_ok hforward).2
  have hcomputes : ∀ h' ∈ horizons, ∃ e, horizonReturnOf base forward h' = .ok e := by
    intro h' hin'
    unfold horizonReturnOf
    cases hrow : horizonRow forward h' with
    | none => exact ⟨_, rfl⟩
    | some row =>
      rw [hrows h' hin'] at hrow
      obtain ⟨-, hmem, -⟩ := mem_of_compared ⟨hcompared.1, hrow⟩
      obtain ⟨change, hchange⟩ := percentChange_ok (corpusClose_close h hmem)
        (corpusClose_close h hbase) hzero
      exact ⟨_, bind_eq_ok.mpr ⟨change, hchange, rfl⟩⟩
  obtain ⟨computed, hcomputed⟩ := exists_mapM_eq_ok hcomputes
  have hrange : ¬ occurredOn < priceRangeFrom corpus.prices := by
    intro hlt
    have hlast := hcompared.1
    rw [pricesUpTo_of_lt hlt] at hlast
    cases hlast
  have hreturns : returns corpus.prices stockCode occurredOn horizons = .ok {
      baseDate := some base.tradeDate
      baseClose := some (close base)
      returns := Dict.ofList computed
      missing := if (Dict.ofList computed).values.any (·.isNone) then some .horizonNotReached
        else none } := by
    unfold returns
    dsimp only
    rw [if_neg hrange, hcompared.1]
    dsimp only
    rw [if_neg hzero]
    exact bind_eq_ok.mpr ⟨forward, hforward, bind_eq_ok.mpr ⟨computed, hcomputed, rfl⟩⟩
  obtain ⟨change, hchange⟩ := percentChange_ok (corpusClose_close h (mem_of_compared hcompared).2.1)
    (corpusClose_close h hbase) hzero
  have htarget : horizonRow forward horizon = some target := (hrows horizon hin).trans hcompared.2
  have hone : horizonReturnOf base forward horizon = .ok (horizon, some change) := by
    unfold horizonReturnOf
    rw [htarget]
    exact bind_eq_ok.mpr ⟨change, hchange, rfl⟩
  refine ⟨_, change, hreturns, get?_ofList_of_forall ?_ ?_⟩
  · obtain ⟨e, he, heq⟩ := (mem_of_mapM_eq_ok hcomputed).2 horizon hin
    rw [hone] at heq
    cases heq
    exact he
  · intro other hother
    obtain ⟨h', hin', heq⟩ := (mem_of_mapM_eq_ok hcomputed).1 _ hother
    have hsame : h' = horizon := by
      unfold horizonReturnOf at heq
      split at heq
      · exact (Prod.mk.inj (Except.ok.inj heq)).1
      · obtain ⟨_, -, heq⟩ := bind_eq_ok.mp heq
        exact (Prod.mk.inj (Except.ok.inj heq)).1
    rw [hsame, hone] at heq
    exact (Prod.mk.inj (Except.ok.inj heq)).2.symm

theorem returnsOneBasis_iff (h : buildCorpus table = .ok corpus) (stockCode : String)
    (occurredOn : Date) (horizons : List Int) :
    ReturnsOneBasis corpus stockCode occurredOn horizons ↔
      ReturnsClean table corpus.prices stockCode occurredOn horizons := by
  constructor
  · intro hone hfits horizon hin base target hcompared
    obtain ⟨hbase, htarget, hstock, hdays⟩ := mem_of_compared hcompared
    by_contra hclean
    have hzero := coefficient_close_ne_zero (unadjusted_of_not_clean h hbase hdays hclean)
    obtain ⟨outcome, change, hreturns, hget⟩ := returns_of_compared h hfits hin hcompared hzero
    obtain ⟨base', target', hcompared', -, hbasis⟩ := hone outcome hreturns horizon change hget
    obtain rfl := Option.some.inj (hcompared.1.symm.trans hcompared'.1)
    obtain rfl := Option.some.inj (hcompared.2.symm.trans hcompared'.2)
    exact hclean ((oneBasis_iff_clean h hbase htarget hstock hdays).mp hbasis)
  · intro hclean outcome houtcome horizon change hget
    obtain ⟨hfits, hin, base, target, hcompared, hchange⟩ := compared_of_returns houtcome hget
    obtain ⟨hbase, htarget, hstock, hdays⟩ := mem_of_compared hcompared
    exact ⟨base, target, hcompared, hchange, (oneBasis_iff_clean h hbase htarget hstock hdays).mpr
      (hclean hfits horizon hin base target hcompared)⟩

/-- The reported return of a day compares two prices of one basis. -/
def DailyOneBasis (corpus : Corpus) (stockCode : String) (on : Date) : Prop :=
  ∀ change, dailyReturn corpus.prices stockCode on = .ok (some change) →
    ∃ last previous, lastTwo corpus.prices (stockIdOf stockCode) on = some (last, previous) ∧
      percentChange (close last) (close previous) = .ok change ∧ OneBasis corpus previous last

/-- The days between the last two prices are clean. -/
def DailyClean (table : DailyTable) (prices : List PriceRow) (stockCode : String) (on : Date) :
    Prop :=
  ∀ last previous, lastTwo prices (stockIdOf stockCode) on = some (last, previous) →
    table.Clean previous.stockId previous.tradeDate last.tradeDate

theorem mem_of_lastTwo (h : buildCorpus table = .ok corpus) {on : Date} {last previous : PriceRow}
    (hlast : lastTwo corpus.prices stockId on = some (last, previous)) :
    previous ∈ corpus.prices ∧ last ∈ corpus.prices ∧ last.stockId = previous.stockId ∧
      previous.tradeDate < last.tradeDate := by
  unfold lastTwo at hlast
  split at hlast
  next last' previous' rest hrows =>
    obtain ⟨rfl, rfl⟩ := Prod.mk.inj (Option.some.inj hlast)
    have hmem : ∀ row ∈ last' :: previous' :: rest,
        row ∈ corpus.prices ∧ row.stockId = stockId ∧ row.tradeDate ≤ on := by
      intro row hrow
      rw [← hrows, List.mem_reverse] at hrow
      exact mem_pricesUpTo.mp hrow
    obtain ⟨hlastMem, hlastStock, -⟩ := hmem last' (by simp)
    obtain ⟨hpreviousMem, hpreviousStock, -⟩ := hmem previous' (by simp)
    refine ⟨hpreviousMem, hlastMem, hlastStock.trans hpreviousStock.symm, ?_⟩
    have hne : (pricesUpTo corpus.prices stockId on).Pairwise fun a b =>
        a.stockId = b.stockId → a.tradeDate ≠ b.tradeDate := by
      have hfilter := (prices_pairwise h).filter fun row =>
        row.stockId = stockId ∧ row.tradeDate ≤ on
      exact hfilter.perm ranked_perm.symm fun hab hs => (hab hs.symm).symm
    have hle : (pricesUpTo corpus.prices stockId on).Pairwise fun a b =>
        a.tradeDate ≤ b.tradeDate := pairwise_ranked
    have hpairs := hle.and hne
    rw [← List.reverse_reverse (pricesUpTo _ _ _), hrows,
      List.pairwise_reverse] at hpairs
    obtain ⟨hle, hdays⟩ := List.rel_of_pairwise_cons hpairs (List.mem_cons_self ..)
    exact lt_of_le_of_ne hle (hdays (hpreviousStock.trans hlastStock.symm))
  · cases hlast

theorem dailyOneBasis_iff (h : buildCorpus table = .ok corpus) (stockCode : String) (on : Date) :
    DailyOneBasis corpus stockCode on ↔ DailyClean table corpus.prices stockCode on := by
  constructor
  · intro hone last previous hrows
    obtain ⟨hprevious, hlast, hstock, hdays⟩ := mem_of_lastTwo h hrows
    by_contra hclean
    have hzero := coefficient_close_ne_zero (unadjusted_of_not_clean h hprevious hdays hclean)
    obtain ⟨change, hchange⟩ := percentChange_ok (corpusClose_close h hlast)
      (corpusClose_close h hprevious) hzero
    have hreturn : dailyReturn corpus.prices stockCode on = .ok (some change) := by
      unfold dailyReturn
      rw [hrows]
      dsimp only
      rw [if_neg hzero]
      exact bind_eq_ok.mpr ⟨change, hchange, rfl⟩
    obtain ⟨last', previous', hrows', -, hbasis⟩ := hone change hreturn
    obtain ⟨rfl, rfl⟩ := Prod.mk.inj (Option.some.inj (hrows.symm.trans hrows'))
    exact hclean ((oneBasis_iff_clean h hprevious hlast hstock hdays).mp hbasis)
  · intro hclean change hreturn
    unfold dailyReturn at hreturn
    split at hreturn
    · cases hreturn
    next last previous hrows =>
    split at hreturn
    · cases hreturn
    obtain ⟨change', hchange, heq⟩ := bind_eq_ok.mp hreturn
    cases heq
    obtain ⟨hprevious, hlast, hstock, hdays⟩ := mem_of_lastTwo h hrows
    exact ⟨last, previous, hrows, hchange,
      (oneBasis_iff_clean h hprevious hlast hstock hdays).mpr (hclean last previous hrows)⟩

theorem previousTradingDay_lt {on previous : Date}
    (h : previousTradingDay prices on = some previous) : previous < on := by
  unfold previousTradingDay at h
  have hnodup : (tradingDays prices).Nodup := ranked_perm.nodup_iff.mpr (List.nodup_dedup _)
  have hle : (tradingDays prices).Pairwise fun a b => a ≤ b := pairwise_ranked
  have hdays := hle.and hnodup
  split at h
  · cases h
  · cases h
  next order hindex =>
  obtain ⟨hlt, heq, -⟩ := List.idxOf?_eq_some_iff.mp hindex
  obtain ⟨hlt', heq'⟩ := List.getElem?_eq_some_iff.mp h
  obtain ⟨hle, hne⟩ := List.pairwise_iff_getElem.mp hdays order (order + 1) hlt' hlt (by omega)
  rw [heq, heq'] at hle hne
  exact lt_of_le_of_ne hle hne

theorem get?_closesOf (rows : List PriceRow) (stockId : String) (day : Date) :
    (((closesOf rows).get? stockId).bind fun closes => closes.get? day) =
      (rows.filter fun row => row.stockId = stockId ∧ row.tradeDate = day).getLast?.map close := by
  induction rows using List.reverseRecOn with
  | nil => rfl
  | append_singleton rows row ih =>
    have hstep : closesOf (rows ++ [row]) = (closesOf rows).set row.stockId
        ((((closesOf rows).get? row.stockId).getD .empty).set row.tradeDate (close row)) := by
      unfold closesOf
      rw [List.foldl_append]
      rfl
    rw [hstep, List.filter_append, Dict.get?_set]
    by_cases hstock : stockId = row.stockId
    · subst hstock
      rw [if_pos rfl, Option.bind_some, Dict.get?_set]
      by_cases hday : day = row.tradeDate
      · subst hday
        simp
      · have hsame : (((closesOf rows).get? row.stockId).getD .empty).get? day =
            ((closesOf rows).get? row.stockId).bind fun closes => closes.get? day := by
          cases (closesOf rows).get? row.stockId <;> rfl
        rw [if_neg hday, hsame, ih]
        simp [Ne.symm hday]
    · rw [if_neg hstock, ih]
      simp [Ne.symm hstock]

/-- Every averaged return of a member compares two prices of one basis. -/
def BasketOneBasis [RowOrder] (corpus : Corpus) (stockCodes : List String) (on : Date) : Prop :=
  ∀ members, memberReturns corpus.prices stockCodes on = .ok members →
    ∀ stockId change, (stockId, change) ∈ members →
      ∃ previous ∈ corpus.prices, ∃ last ∈ corpus.prices,
        previous.stockId = stockId ∧ last.stockId = stockId ∧
          previousTradingDay corpus.prices on = some previous.tradeDate ∧ last.tradeDate = on ∧
            percentChange (close last) (close previous) = .ok change ∧ OneBasis corpus previous last

/-- The days between the two prices of every member are clean. -/
def BasketClean (table : DailyTable) (prices : List PriceRow) (stockCodes : List String)
    (on : Date) : Prop :=
  ∀ previous ∈ prices, ∀ last ∈ prices, previous.stockId ∈ basketStocks stockCodes →
    last.stockId = previous.stockId → previousTradingDay prices on = some previous.tradeDate →
      last.tradeDate = on → table.Clean previous.stockId previous.tradeDate on

theorem eq_of_key (h : buildCorpus table = .ok corpus) {a b : PriceRow} (ha : a ∈ corpus.prices)
    (hb : b ∈ corpus.prices) (hstock : a.stockId = b.stockId) (hday : a.tradeDate = b.tradeDate) :
    a = b := by
  by_contra hne
  have hsymm : Std.Symm fun a b : PriceRow => a.stockId = b.stockId → a.tradeDate ≠ b.tradeDate :=
    ⟨fun _ _ hab hs hd => hab hs.symm hd.symm⟩
  exact (prices_pairwise h).forall ha hb hne hstock hday

theorem get?_closesOf_of_mem (h : buildCorpus table = .ok corpus) {rows : List PriceRow}
    (hrows : ∀ row ∈ rows, row ∈ corpus.prices) {row : PriceRow} (hrow : row ∈ rows) :
    (((closesOf rows).get? row.stockId).bind fun closes => closes.get? row.tradeDate) =
      some (close row) := by
  rw [get?_closesOf]
  have hin : row ∈ rows.filter fun r => r.stockId = row.stockId ∧ r.tradeDate = row.tradeDate :=
    List.mem_filter.mpr ⟨hrow, by simp⟩
  obtain ⟨found, hfound⟩ := Option.isSome_iff_exists.mp
    (List.getLast?_isSome.mpr (List.ne_nil_of_mem hin))
  obtain ⟨hmem, hkey⟩ := List.mem_filter.mp (List.mem_of_getLast? hfound)
  obtain ⟨hstock, hday⟩ := of_decide_eq_true hkey
  rw [hfound, eq_of_key h (hrows found hmem) (hrows row hrow) hstock hday, Option.map_some]

theorem exists_of_get?_closesOf {rows : List PriceRow} {day : Date} {closes : Dict Date Decimal}
    {price : Decimal} (hcloses : (stockId, closes) ∈ (closesOf rows).entries)
    (hget : closes.get? day = some price) :
    ∃ row ∈ rows, row.stockId = stockId ∧ row.tradeDate = day ∧ close row = price := by
  have hread := get?_closesOf rows stockId day
  rw [(Dict.mem_entries_iff _).mp hcloses, Option.bind_some, hget] at hread
  obtain ⟨row, hrow, hclose⟩ := Option.map_eq_some_iff.mp hread.symm
  obtain ⟨hmem, hkey⟩ := List.mem_filter.mp (List.mem_of_getLast? hrow)
  obtain ⟨hstock, hday⟩ := of_decide_eq_true hkey
  exact ⟨row, hmem, hstock, hday, hclose⟩

variable [RowOrder]

/-- The rows that a basket reads. -/
def basketRows (prices : List PriceRow) (stockCodes : List String) (previous on : Date) :
    List PriceRow :=
  RowOrder.order (prices.filter fun row =>
    row.stockId ∈ basketStocks stockCodes ∧ (row.tradeDate = previous ∨ row.tradeDate = on))

theorem mem_basketRows {previous on : Date} {row : PriceRow} :
    row ∈ basketRows prices stockCodes previous on ↔
      row ∈ prices ∧ row.stockId ∈ basketStocks stockCodes ∧
        (row.tradeDate = previous ∨ row.tradeDate = on) := by
  rw [basketRows, (RowOrder.perm _).mem_iff, List.mem_filter, decide_eq_true_eq]

theorem memberReturns_eq {on previous : Date} (h : previousTradingDay prices on = some previous) :
    memberReturns prices stockCodes on =
      ((closesOf (basketRows prices stockCodes previous on)).entries.mapM
        (memberReturn previous on)).map fun changes => changes.filterMap id := by
  unfold memberReturns
  rw [h]
  rfl

theorem memberReturns_ok (h : buildCorpus table = .ok corpus) (stockCodes : List String)
    (on previous : Date) : ∃ changes,
      (closesOf (basketRows corpus.prices stockCodes previous on)).entries.mapM
        (memberReturn previous on) = .ok changes := by
  refine exists_mapM_eq_ok fun ⟨stockId, closes⟩ hmember => ?_
  unfold memberReturn
  cases hbefore : closes.get? previous with
  | none => exact ⟨_, rfl⟩
  | some before =>
    cases hafter : closes.get? on with
    | none => exact ⟨_, rfl⟩
    | some after =>
      dsimp only
      by_cases hzero : before.coefficient = 0
      · rw [if_pos hzero]
        exact ⟨_, rfl⟩
      · rw [if_neg hzero]
        obtain ⟨first, hfirst, -, -, rfl⟩ := exists_of_get?_closesOf hmember hbefore
        obtain ⟨last, hlast, -, -, rfl⟩ := exists_of_get?_closesOf hmember hafter
        obtain ⟨change, hchange⟩ := percentChange_ok
          (corpusClose_close h (mem_basketRows.mp hlast).1)
          (corpusClose_close h (mem_basketRows.mp hfirst).1) hzero
        exact ⟨_, bind_eq_ok.mpr ⟨change, hchange, rfl⟩⟩

theorem exists_of_memberReturn {on previous : Date} {member : String × Dict Date Decimal}
    {change : Decimal}
    (hmember : member ∈ (closesOf (basketRows prices stockCodes previous on)).entries)
    (h : memberReturn previous on member = .ok (some (stockId, change))) :
    ∃ first ∈ prices, ∃ last ∈ prices, first.stockId = stockId ∧ last.stockId = stockId ∧
      stockId ∈ basketStocks stockCodes ∧ first.tradeDate = previous ∧ last.tradeDate = on ∧
        percentChange (close last) (close first) = .ok change := by
  obtain ⟨memberId, closes⟩ := member
  unfold memberReturn at h
  split at h
  next before after hbefore hafter =>
    split at h
    · cases h
    obtain ⟨change', hchange, heq⟩ := bind_eq_ok.mp h
    obtain ⟨hid, hvalue⟩ := Prod.mk.inj (Option.some.inj (Except.ok.inj heq))
    obtain rfl : memberId = stockId := hid
    obtain rfl : change' = change := hvalue
    obtain ⟨first, hfirst, hfirstStock, hfirstDay, rfl⟩ := exists_of_get?_closesOf hmember hbefore
    obtain ⟨last, hlast, hlastStock, hlastDay, rfl⟩ := exists_of_get?_closesOf hmember hafter
    obtain ⟨hfirstMem, hin, -⟩ := mem_basketRows.mp hfirst
    rw [hfirstStock] at hin
    exact ⟨first, hfirstMem, last, (mem_basketRows.mp hlast).1, hfirstStock, hlastStock, hin,
      hfirstDay, hlastDay, hchange⟩
  · cases h

theorem basketOneBasis_iff (h : buildCorpus table = .ok corpus) (stockCodes : List String)
    (on : Date) :
    BasketOneBasis corpus stockCodes on ↔ BasketClean table corpus.prices stockCodes on := by
  constructor
  · intro hone first hfirst last hlast hin hstock hprevious hday
    subst hday
    have hdays := previousTradingDay_lt hprevious
    by_contra hclean
    have hzero := coefficient_close_ne_zero (unadjusted_of_not_clean h hfirst hdays hclean)
    obtain ⟨change, hchange⟩ := percentChange_ok (corpusClose_close h hlast)
      (corpusClose_close h hfirst) hzero
    obtain ⟨changes, hchanges⟩ := memberReturns_ok h stockCodes last.tradeDate first.tradeDate
    -- The member is found in the closes with both of its days.
    generalize hrows : basketRows corpus.prices stockCodes first.tradeDate last.tradeDate = rows
      at hchanges
    have hsub : ∀ row ∈ rows, row ∈ corpus.prices := by
      intro row hrow
      rw [← hrows] at hrow
      exact (mem_basketRows.mp hrow).1
    have hfirstRow : first ∈ rows := by
      rw [← hrows]
      exact mem_basketRows.mpr ⟨hfirst, hin, .inl rfl⟩
    have hlastRow : last ∈ rows := by
      rw [← hrows]
      exact mem_basketRows.mpr ⟨hlast, hstock ▸ hin, .inr rfl⟩
    obtain ⟨closes, hcloses, hbefore⟩ := Option.bind_eq_some_iff.mp
      (get?_closesOf_of_mem h hsub hfirstRow)
    have hafter := get?_closesOf_of_mem h hsub hlastRow
    rw [hstock, hcloses, Option.bind_some] at hafter
    have hmember : memberReturn first.tradeDate last.tradeDate (first.stockId, closes) =
        .ok (some (first.stockId, change)) := by
      unfold memberReturn
      rw [hbefore, hafter]
      dsimp only
      rw [if_neg hzero]
      exact bind_eq_ok.mpr ⟨change, hchange, rfl⟩
    obtain ⟨found, hfound, heq⟩ := (mem_of_mapM_eq_ok hchanges).2 _
      ((Dict.mem_entries_iff _).mpr hcloses)
    rw [hmember] at heq
    cases heq
    have hmembers : memberReturns corpus.prices stockCodes last.tradeDate =
        .ok (changes.filterMap id) := by
      rw [memberReturns_eq hprevious, hrows, hchanges]
      rfl
    obtain ⟨first', hfirst', last', hlast', hstock', hlastStock', hprevious', hday', -, hbasis⟩ :=
      hone _ hmembers first.stockId change (List.mem_filterMap.mpr ⟨_, hfound, rfl⟩)
    have hdayFirst : first'.tradeDate = first.tradeDate :=
      Option.some.inj (hprevious'.symm.trans hprevious)
    rw [eq_of_key h hfirst' hfirst hstock' hdayFirst,
      eq_of_key h hlast' hlast (hlastStock'.trans hstock.symm) hday'] at hbasis
    exact hclean ((oneBasis_iff_clean h hfirst hlast hstock hdays).mp hbasis)
  · intro hclean members hmembers stockId change hmem
    cases hprevious : previousTradingDay corpus.prices on with
    | none =>
      unfold memberReturns at hmembers
      rw [hprevious] at hmembers
      cases hmembers
      cases hmem
    | some previous =>
      obtain ⟨changes, hchanges⟩ := memberReturns_ok h stockCodes on previous
      rw [memberReturns_eq hprevious, hchanges] at hmembers
      cases hmembers
      obtain ⟨found, hfound, hid⟩ := List.mem_filterMap.mp hmem
      obtain rfl : found = some (stockId, change) := hid
      obtain ⟨member, hmember, hreturn⟩ := (mem_of_mapM_eq_ok hchanges).1 _ hfound
      obtain ⟨first, hfirst, last, hlast, hstock, hlastStock, hin, hfirstDay, hlastDay, hchange⟩ :=
        exists_of_memberReturn hmember hreturn
      subst hfirstDay hlastDay
      have hsame := hlastStock.trans hstock.symm
      exact ⟨first, hfirst, last, hlast, hstock, hlastStock, rfl, rfl, hchange,
        (oneBasis_iff_clean h hfirst hlast hsame (previousTradingDay_lt hprevious)).mpr
          (hclean first hfirst last hlast (hstock ▸ hin) hsame hprevious rfl)⟩

/-- Every return that the reader reports compares two prices of one basis exactly if the
days between the prices that it compares are clean. -/
theorem one_basis_iff (h : buildCorpus table = .ok corpus) (stockCode : String)
    (stockCodes : List String) (occurredOn : Date) (horizons : List Int) :
    (ReturnsOneBasis corpus stockCode occurredOn horizons ↔
        ReturnsClean table corpus.prices stockCode occurredOn horizons) ∧
      (DailyOneBasis corpus stockCode occurredOn ↔
        DailyClean table corpus.prices stockCode occurredOn) ∧
      (BasketOneBasis corpus stockCodes occurredOn ↔
        BasketClean table corpus.prices stockCodes occurredOn) :=
  ⟨returnsOneBasis_iff h stockCode occurredOn horizons, dailyOneBasis_iff h stockCode occurredOn,
    basketOneBasis_iff h stockCodes occurredOn⟩

end

theorem thousand_pos : 0 < 1000 := by decide
theorem twenty_pos : 0 < 20 := by decide
theorem thousand_small : 1000 < 2 ^ 63 := by decide
theorem twenty_small : 20 < 2 ^ 63 := by decide

/-- A price of a thousand won on the first day. -/
def firstRow : DailyRow :=
  ⟨"KRX:005930", .january 24 2, 1000, some 0, thousand_pos, thousand_small⟩

/-- The same price on the next day, whose change is missing or zero. -/
def secondRow (change : Option Int) : DailyRow :=
  ⟨"KRX:005930", .january 24 3, 1000, change, thousand_pos, thousand_small⟩

/-- The price after a split into fifty shares. -/
def splitRow : DailyRow :=
  ⟨"KRX:005930", .january 24 4, 20, some 0, twenty_pos, twenty_small⟩

theorem keys_nodup_split (change : Option Int) :
    ([firstRow, secondRow change, splitRow].map DailyRow.key).Nodup := by
  have hkeys : [firstRow, secondRow change, splitRow].map DailyRow.key =
      [firstRow, secondRow none, splitRow].map DailyRow.key := rfl
  rw [hkeys]
  decide +kernel

/-- A stock whose price does not change until it is split. -/
def splitTable (change : Option Int) : DailyTable :=
  ⟨[firstRow, secondRow change, splitRow], keys_nodup_split change⟩

theorem clean_of_unbroken {table : DailyTable} (h : ∀ e ∈ table.steps, e.2.isBroken = false)
    (stockId : String) (first second : Date) : table.Clean stockId first second := by
  constructor
  · intro e he _ hbroken
    rw [h e he] at hbroken
    cases hbroken
  · rintro ⟨e, he, -, hbroken, -⟩
    rw [h e he] at hbroken
    cases hbroken

theorem splitTable_unbroken : ∀ e ∈ (splitTable (some 0)).steps, e.2.isBroken = false := by
  decide +kernel

/-- With the changes of all days the split is seen in every return. -/
theorem one_basis_split :
    letI : RowOrder := ⟨id, fun _ => .refl _⟩
    ∃ corpus, buildCorpus (splitTable (some 0)) = .ok corpus ∧
      dailyReturn corpus.prices "005930" splitRow.tradeDate = .ok (some ⟨false, 0, 0⟩) ∧
        ReturnsOneBasis corpus "005930" firstRow.tradeDate [1, 2] ∧
        DailyOneBasis corpus "005930" splitRow.tradeDate ∧
        BasketOneBasis corpus ["005930"] splitRow.tradeDate := by
  let _ : RowOrder := ⟨id, fun _ => .refl _⟩
  have hrun : (buildCorpus (splitTable (some 0)) >>= fun corpus =>
      dailyReturn corpus.prices "005930" splitRow.tradeDate) = .ok (some ⟨false, 0, 0⟩) := by
    decide +kernel
  obtain ⟨corpus, hcorpus, hreturn⟩ := bind_eq_ok.mp hrun
  have hclean := clean_of_unbroken splitTable_unbroken
  obtain ⟨hreturns, -, -⟩ := one_basis_iff hcorpus "005930" [] firstRow.tradeDate [1, 2]
  obtain ⟨-, hdaily, hbasket⟩ := one_basis_iff hcorpus "005930" ["005930"] splitRow.tradeDate []
  exact ⟨corpus, hcorpus, hreturn, hreturns.mpr fun _ _ _ _ _ _ => hclean _ _ _,
    hdaily.mpr fun _ _ _ => hclean _ _ _, hbasket.mpr fun _ _ _ _ _ _ _ _ => hclean _ _ _⟩

/-- Where a change is missing, the loaded close of the first day is compared with the
adjusted one of the next, and a price that did not move has lost almost all of its value. -/
theorem mixed_bases_of_break :
    ∃ corpus, buildCorpus (splitTable none) = .ok corpus ∧
      dailyReturn corpus.prices "005930" (secondRow none).tradeDate =
        .ok (some ⟨true, 98000000, -6⟩) ∧
        ¬ DailyOneBasis corpus "005930" (secondRow none).tradeDate := by
  have hrun : (buildCorpus (splitTable none) >>= fun corpus =>
      dailyReturn corpus.prices "005930" (secondRow none).tradeDate >>= fun change =>
        .ok (change, (lastTwo corpus.prices (stockIdOf "005930") (secondRow none).tradeDate).map
          fun rows => (rows.1.adjustedClose.isSome, rows.2.adjustedClose.isSome))) =
      .ok (some ⟨true, 98000000, -6⟩, some (true, false)) := by
    decide +kernel
  obtain ⟨corpus, hcorpus, hrest⟩ := bind_eq_ok.mp hrun
  obtain ⟨change, hchange, hpair⟩ := bind_eq_ok.mp hrest
  obtain ⟨rfl, hrows⟩ := Prod.mk.inj (Except.ok.inj hpair)
  refine ⟨corpus, hcorpus, hchange, fun hone => ?_⟩
  obtain ⟨last, previous, htwo, -, hbasis⟩ := hone _ hchange
  rw [htwo] at hrows
  obtain ⟨hlast, hprevious⟩ := Prod.mk.inj (Option.some.inj hrows)
  rcases hbasis.alike with ⟨hsome, -⟩ | ⟨-, hnone, -⟩
  · rw [hprevious] at hsome
    cases hsome
  · rw [hnone] at hlast
    cases hlast

end Dayjaview.Ontology.SqliteOutcomeReader
