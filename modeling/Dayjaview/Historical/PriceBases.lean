import Dayjaview.Historical.Corpus

/-!
# The bases of two prices

A price is adjusted exactly if the chain of its stock is not broken on a later day. So
two prices of a stock have one basis exactly if no break lies between them, and if,
before a later break, no factor does.
-/

namespace Dayjaview.Historical

/-- A price with six digits behind the point that fits the precision of the corpus. -/
def FitsCorpus (price : Decimal) : Prop :=
  price.exponent = -6 ∧ Decimal.digits price.coefficient ≤ adjustedPrec

theorem fitsCorpus_of_quantize {d r : Decimal}
    (h : d.quantize .halfUp adjustedPrec (-6) = .ok r) : FitsCorpus r := by
  unfold Decimal.quantize at h
  by_cases hzero : d.coefficient = 0
  · rw [if_pos hzero] at h
    cases h
    have hone : Decimal.digits 0 ≤ adjustedPrec := by decide
    exact ⟨rfl, hone⟩
  rw [if_neg hzero] at h
  by_cases hwide : (adjustedPrec : Int) < Decimal.digits d.coefficient + d.exponent - -6
  · rw [if_pos hwide] at h
    cases h
  rw [if_neg hwide] at h
  dsimp only at h
  generalize (if (-6 : Int) ≤ d.exponent then d.coefficient * 10 ^ (d.exponent - -6).toNat
    else Decimal.roundedQuotient .halfUp d.negative d.coefficient (-6 - d.exponent).toNat) =
      coefficient at h
  by_cases hdigits : adjustedPrec < Decimal.digits coefficient
  · rw [if_pos hdigits] at h
    cases h
  · rw [if_neg hdigits] at h
    cases h
    exact ⟨rfl, not_lt.mp hdigits⟩

theorem fitsCorpus_of_adjust {value : Nat} {cumulative : ℚ} {price : Decimal}
    (h : adjust value cumulative = .ok price) : FitsCorpus price := by
  unfold adjust at h
  obtain ⟨product, -, h⟩ := bind_eq_ok.mp h
  obtain ⟨exact, -, h⟩ := bind_eq_ok.mp h
  exact fitsCorpus_of_quantize h

theorem fitsCorpus_of_close {close : Nat} (h : close < 2 ^ 63) :
    FitsCorpus ⟨false, close * 10 ^ 6, -6⟩ := by
  refine ⟨rfl, ?_⟩
  rw [Decimal.digits_le_iff (by decide)]
  have hpow : 2 ^ 63 * 10 ^ 6 ≤ 10 ^ adjustedPrec := by decide
  dsimp only
  omega

theorem exists_of_mem_right {α β : Type} {R : α → β → Prop} {as : List α} {bs : List β}
    (h : List.Forall₂ R as bs) {b : β} (hb : b ∈ bs) : ∃ a ∈ as, R a b := by
  induction h with
  | nil => cases hb
  | cons hab _ ih =>
    rcases List.mem_cons.mp hb with rfl | hb
    · exact ⟨_, List.mem_cons_self .., hab⟩
    · obtain ⟨a, ha, hab⟩ := ih hb
      exact ⟨a, List.mem_cons_of_mem _ ha, hab⟩

structure AdjustedFrom (latestBreak : Option Date) (loaded : DailyRow) (price : PriceRow) :
    Prop where
  row : price.toDailyRow = loaded
  unadjusted_iff : price.adjustedClose = none ↔ latestBreak.any (loaded.tradeDate < ·) = true
  fits : ∀ adjusted, price.adjustedClose = some adjusted → FitsCorpus adjusted

theorem adjustSeries_spec {latestBreak : Option Date} {factors : List (Date × ℚ)}
    {rows : List DailyRow} {prices : List PriceRow}
    (h : adjustSeries latestBreak factors rows = .ok prices) :
    List.Forall₂ (AdjustedFrom latestBreak) rows prices := by
  induction rows generalizing factors prices with
  | nil =>
    cases h
    exact .nil
  | cons row rows ih =>
    rw [adjustSeries] at h
    by_cases hbefore : latestBreak.any (row.tradeDate < ·) = true
    · rw [if_pos hbefore] at h
      obtain ⟨rest, hrest, h⟩ := bind_eq_ok.mp h
      cases h
      have hrow : AdjustedFrom latestBreak row { row with adjustedClose := none } :=
        ⟨rfl, ⟨fun _ => hbefore, fun _ => rfl⟩, nofun⟩
      exact .cons hrow (ih hrest)
    · rw [if_neg hbefore] at h
      have hrow {price : Decimal} (hfits : FitsCorpus price) :
          AdjustedFrom latestBreak row { row with adjustedClose := some price } := by
        refine ⟨rfl, ⟨nofun, fun h => absurd h hbefore⟩, fun adjusted hadjusted => ?_⟩
        cases hadjusted
        exact hfits
      dsimp only at h
      split at h
      · obtain ⟨price, hprice, h⟩ := bind_eq_ok.mp h
        obtain ⟨rest, hrest, h⟩ := bind_eq_ok.mp h
        cases hprice
        cases h
        exact .cons (hrow (fitsCorpus_of_close row.small)) (ih hrest)
      · obtain ⟨price, hprice, h⟩ := bind_eq_ok.mp h
        obtain ⟨rest, hrest, h⟩ := bind_eq_ok.mp h
        cases h
        exact .cons (hrow (fitsCorpus_of_adjust hprice)) (ih hrest)

section
variable {table : DailyTable} {corpus : Corpus}

theorem price_spec (h : buildCorpus table = .ok corpus) {price : PriceRow}
    (hprice : price ∈ corpus.prices) :
    (price.adjustedClose = none ↔ ∃ e ∈ table.steps, e.1.stockId = price.stockId ∧
        e.2.isBroken = true ∧ price.tradeDate < e.1.tradeDate) ∧
      ∀ adjusted, price.adjustedClose = some adjusted → FitsCorpus adjusted := by
  unfold buildCorpus at h
  obtain ⟨-, h⟩ := check_bind_eq_ok.mp h
  obtain ⟨series, hseries, h⟩ := bind_eq_ok.mp h
  cases h
  obtain ⟨prices, hprices, hmem⟩ := List.mem_flatten.mp hprice
  obtain ⟨stockId, -, hadjusted⟩ := (mem_of_mapM_eq_ok hseries).1 prices hprices
  obtain ⟨row, hrow, hfrom⟩ := exists_of_mem_right (adjustSeries_spec hadjusted) hmem
  have hstock : row.stockId = stockId := by
    simpa using (List.mem_filter.mp hrow).2
  refine ⟨?_, hfrom.fits⟩
  rw [hfrom.unadjusted_iff, table.lt_lastBreak_iff, hfrom.row, hstock]

/-- The day lies after the first and not after the second. -/
def Between (first second day : Date) : Prop := first < day ∧ day ≤ second

/-- No break lies between two prices, and both are adjusted, or neither one is and no
factor lies between them. -/
structure OneBasis (corpus : Corpus) (base target : PriceRow) : Prop where
  unbroken : ∀ b ∈ corpus.breaks, b.stockId = base.stockId →
    ¬ Between base.tradeDate target.tradeDate b.breakDate
  alike : (base.adjustedClose.isSome = true ∧ target.adjustedClose.isSome = true) ∨
    (base.adjustedClose = none ∧ target.adjustedClose = none ∧
      ∀ f ∈ corpus.factors, f.stockId = base.stockId →
        ¬ Between base.tradeDate target.tradeDate f.effectiveDate)

/-- Between two days of a stock the chain is not broken, and if it is broken later, no
factor lies between them. -/
structure DailyTable.Clean (table : DailyTable) (stockId : String) (first second : Date) :
    Prop where
  unbroken : ∀ e ∈ table.steps, e.1.stockId = stockId → e.2.isBroken = true →
    ¬ Between first second e.1.tradeDate
  unfactored : (∃ e ∈ table.steps, e.1.stockId = stockId ∧ e.2.isBroken = true ∧
      second < e.1.tradeDate) →
    ∀ e ∈ table.steps, e.1.stockId = stockId → e.2.factor?.isSome = true →
      ¬ Between first second e.1.tradeDate

variable {e : DailyRow × PriceStep}

theorem breakRow?_eq_some {b : BreakRow} (h : breakRow? e = some b) :
    e.2.isBroken = true ∧ b.stockId = e.1.stockId ∧ b.breakDate = e.1.tradeDate := by
  obtain ⟨row, step⟩ := e
  cases step with
  | plain => cases h
  | factor f => cases h
  | broken reason =>
    cases h
    exact ⟨rfl, rfl, rfl⟩

theorem exists_breakRow? (h : e.2.isBroken = true) :
    ∃ b, breakRow? e = some b := by
  obtain ⟨row, step⟩ := e
  cases step with
  | plain => cases h
  | factor f => cases h
  | broken reason => exact ⟨_, rfl⟩

theorem factorRow?_eq_some {f : FactorRow} (h : factorRow? e = some f) :
    e.2.factor?.isSome = true ∧ f.stockId = e.1.stockId ∧ f.effectiveDate = e.1.tradeDate := by
  obtain ⟨row, step⟩ := e
  cases step with
  | plain => cases h
  | broken reason => cases h
  | factor x =>
    cases h
    exact ⟨rfl, rfl, rfl⟩

theorem exists_factorRow? (h : e.2.factor?.isSome = true) :
    ∃ f, factorRow? e = some f := by
  obtain ⟨row, step⟩ := e
  cases step with
  | plain => cases h
  | broken reason => cases h
  | factor f => exact ⟨_, rfl⟩

theorem forall_breaks_iff (h : buildCorpus table = .ok corpus) {p : String → Date → Prop} :
    (∀ b ∈ corpus.breaks, p b.stockId b.breakDate) ↔
      ∀ e ∈ table.steps, e.2.isBroken = true → p e.1.stockId e.1.tradeDate := by
  unfold buildCorpus at h
  obtain ⟨-, h⟩ := check_bind_eq_ok.mp h
  obtain ⟨series, -, h⟩ := bind_eq_ok.mp h
  cases h
  dsimp only
  rw [(scanOf_rows table.ordered).1, ← DailyTable.steps]
  constructor
  · intro hall e he hbroken
    obtain ⟨b, hb⟩ := exists_breakRow? hbroken
    obtain ⟨-, hstock, hday⟩ := breakRow?_eq_some hb
    have hp := hall b (List.mem_filterMap.mpr ⟨e, he, hb⟩)
    rwa [hstock, hday] at hp
  · intro hall b hb
    obtain ⟨e, he, hb⟩ := List.mem_filterMap.mp hb
    obtain ⟨hbroken, hstock, hday⟩ := breakRow?_eq_some hb
    rw [hstock, hday]
    exact hall e he hbroken

theorem forall_factors_iff (h : buildCorpus table = .ok corpus) {p : String → Date → Prop} :
    (∀ f ∈ corpus.factors, p f.stockId f.effectiveDate) ↔
      ∀ e ∈ table.steps, e.2.factor?.isSome = true → p e.1.stockId e.1.tradeDate := by
  unfold buildCorpus at h
  obtain ⟨-, h⟩ := check_bind_eq_ok.mp h
  obtain ⟨series, -, h⟩ := bind_eq_ok.mp h
  cases h
  dsimp only
  rw [(scanOf_rows table.ordered).2, ← DailyTable.steps]
  constructor
  · intro hall e he hfactor
    obtain ⟨f, hf⟩ := exists_factorRow? hfactor
    obtain ⟨-, hstock, hday⟩ := factorRow?_eq_some hf
    have hp := hall f (List.mem_filterMap.mpr ⟨e, he, hf⟩)
    rwa [hstock, hday] at hp
  · intro hall f hf
    obtain ⟨e, he, hf⟩ := List.mem_filterMap.mp hf
    obtain ⟨hfactor, hstock, hday⟩ := factorRow?_eq_some hf
    rw [hstock, hday]
    exact hall e he hfactor

theorem oneBasis_iff_clean (h : buildCorpus table = .ok corpus) {base target : PriceRow}
    (hbase : base ∈ corpus.prices) (htarget : target ∈ corpus.prices)
    (hstock : target.stockId = base.stockId) (hdays : base.tradeDate < target.tradeDate) :
    OneBasis corpus base target ↔
      table.Clean base.stockId base.tradeDate target.tradeDate := by
  have hbaseNone := (price_spec h hbase).1
  have htargetNone := (price_spec h htarget).1
  rw [hstock] at htargetNone
  have hbreaks := forall_breaks_iff h (p := fun stockId day => stockId = base.stockId →
    ¬ Between base.tradeDate target.tradeDate day)
  have hfactors := forall_factors_iff h (p := fun stockId day => stockId = base.stockId →
    ¬ Between base.tradeDate target.tradeDate day)
  constructor
  · intro hone
    have hunbroken := hbreaks.mp hone.unbroken
    refine ⟨fun e he hs hb => hunbroken e he hb hs, fun hlater e he hs hf => ?_⟩
    have hnone := htargetNone.mpr hlater
    rcases hone.alike with ⟨-, hsome⟩ | ⟨-, -, hnofactor⟩
    · rw [hnone] at hsome
      cases hsome
    · exact hfactors.mp hnofactor e he hf hs
  · intro hclean
    refine ⟨hbreaks.mpr fun e he hb hs => hclean.unbroken e he hs hb, ?_⟩
    by_cases hadjusted : base.adjustedClose = none
    · -- The break after the base is not between the two prices, so it is after the target.
      obtain ⟨e, he, hs, hb, hday⟩ := hbaseNone.mp hadjusted
      have hlater : target.tradeDate < e.1.tradeDate := by
        by_contra hle
        exact hclean.unbroken e he hs hb ⟨hday, not_lt.mp hle⟩
      refine .inr ⟨hadjusted, htargetNone.mpr ⟨e, he, hs, hb, hlater⟩, ?_⟩
      exact hfactors.mpr fun e' he' hf' hs' =>
        hclean.unfactored ⟨e, he, hs, hb, hlater⟩ e' he' hs' hf'
    · refine .inl ⟨Option.isSome_iff_ne_none.mpr hadjusted, Option.isSome_iff_ne_none.mpr ?_⟩
      intro hnone
      obtain ⟨e, he, hs, hb, hday⟩ := htargetNone.mp hnone
      exact hadjusted (hbaseNone.mpr ⟨e, he, hs, hb, lt_trans hdays hday⟩)

theorem unadjusted_of_not_clean (h : buildCorpus table = .ok corpus) {base : PriceRow}
    (hbase : base ∈ corpus.prices) {day : Date} (hdays : base.tradeDate < day)
    (hclean : ¬ table.Clean base.stockId base.tradeDate day) : base.adjustedClose = none := by
  rw [(price_spec h hbase).1]
  by_contra hnone
  refine hclean ⟨fun e he hs hb hbetween => hnone ⟨e, he, hs, hb, hbetween.1⟩, ?_⟩
  rintro ⟨e, he, hs, hb, hlater⟩
  exact absurd ⟨e, he, hs, hb, lt_trans hdays hlater⟩ hnone

theorem flatten_rows {scan : Scan} {rows : List DailyRow} {stockIds : List String}
    {series : List (List PriceRow)}
    (h : List.Forall₂ (fun stockId prices => adjustSeries (scan.breakMap.get? stockId)
      ((scan.factorMap.get? stockId).getD []) (rows.filter (·.stockId = stockId)) = .ok prices)
      stockIds series) :
    series.flatten.map PriceRow.toDailyRow = stockIds.flatMap fun stockId =>
      rows.filter (·.stockId = stockId) := by
  induction h with
  | nil => rfl
  | cons hprices _ ih =>
    have hrows := (adjustSeries_spec hprices).imp fun _ _ h => h.row.symm
    have heq := List.forall₂_map_right_iff.mpr hrows
    rw [List.forall₂_eq_eq_eq] at heq
    rw [List.flatten_cons, List.map_append, List.flatMap_cons, ih, ← heq]

theorem prices_rows (h : buildCorpus table = .ok corpus) :
    corpus.prices.map PriceRow.toDailyRow = (stocksOf table.ordered).flatMap fun stockId =>
      table.ordered.filter (·.stockId = stockId) := by
  unfold buildCorpus at h
  obtain ⟨-, h⟩ := check_bind_eq_ok.mp h
  obtain ⟨series, hseries, h⟩ := bind_eq_ok.mp h
  cases h
  exact flatten_rows (forall₂_of_mapM_eq_ok hseries)

theorem prices_pairwise (h : buildCorpus table = .ok corpus) :
    corpus.prices.Pairwise fun a b => a.stockId = b.stockId → a.tradeDate ≠ b.tradeDate := by
  have hrows : (corpus.prices.map PriceRow.toDailyRow).Pairwise fun a b =>
      a.stockId = b.stockId → a.tradeDate ≠ b.tradeDate := by
    rw [prices_rows h, List.pairwise_flatMap]
    constructor
    · intro stockId _
      exact (table.pairwise_days.imp fun h hs => ne_of_lt (h hs)).filter _
    · refine (List.nodup_dedup _).imp fun {s t} hne a ha b hb hs => ?_
      have hsa : a.stockId = s := by simpa using (List.mem_filter.mp ha).2
      have hsb : b.stockId = t := by simpa using (List.mem_filter.mp hb).2
      exact absurd (hsa.symm.trans (hs.trans hsb)) hne
  exact List.pairwise_map.mp hrows

end

end Dayjaview.Historical
