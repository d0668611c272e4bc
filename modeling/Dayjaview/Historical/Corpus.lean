import Dayjaview.Core.Calendar
import Dayjaview.Core.DecimalRange
import Dayjaview.Core.Dict
import Dayjaview.Core.Ranking
import Mathlib.Data.Prod.Lex
import Mathlib.Data.String.Basic

/-!
# The corpus of daily prices

The base price of a day that differs from the close before it stands for a corporate
action, whose factor is carried back to the earlier prices. Where no factor can be
made the chain is broken, and the prices before the last break stay unadjusted.
-/

namespace Dayjaview.Historical

/-- The price of a stock on a day, as it was loaded. -/
structure DailyRow where
  stockId : String
  tradeDate : Date
  close : Nat
  changeFromPrevious : Option Int
  positive : 0 < close
  small : close < 2 ^ 63

/-- What the price of the day before would have been, by the change of a day. -/
def DailyRow.base (row : DailyRow) : Int := row.close - row.changeFromPrevious.getD 0

def DailyRow.key (row : DailyRow) : String ×ₗ Date := toLex (row.stockId, row.tradeDate)

/-- The loaded rows, one for each stock and day. -/
structure DailyTable where
  rows : List DailyRow
  keys_nodup : (rows.map DailyRow.key).Nodup

def DailyTable.ordered (table : DailyTable) : List DailyRow := ranked DailyRow.key table.rows

/-- Why a chain of factors is broken. -/
inductive BreakReason where
  | noChangeField
  | nonPositiveBase
  | factorOutOfRange
  deriving DecidableEq

/-- What the base price of a day says about the day before it. -/
inductive PriceStep where
  | plain
  | factor (f : ℚ)
  | broken (reason : BreakReason)

/-- The smallest factor of a corporate action. -/
def factorMin : ℚ := 1 / 1000

/-- The largest factor of a corporate action. -/
def factorMax : ℚ := 1000

/-- The step to a row from the close before it. -/
def priceStep (previousClose : Nat) (row : DailyRow) : PriceStep :=
  match row.changeFromPrevious with
  | none => .broken .noChangeField
  | some change =>
    let base : Int := row.close - change
    if base ≤ 0 then .broken .nonPositiveBase
    else if base = previousClose then .plain
    else
      let factor : ℚ := base / previousClose
      if factorMin ≤ factor ∧ factor ≤ factorMax then .factor factor
      else .broken .factorOutOfRange

/-- A factor as it is stored, with the base price it comes from. -/
structure FactorRow where
  stockId : String
  effectiveDate : Date
  factor : ℚ
  basePrice : Int

structure BreakRow where
  stockId : String
  breakDate : Date
  reason : BreakReason

/-- What is found while the rows are gone through. -/
structure Scan where
  factorRows : List FactorRow
  breakRows : List BreakRow
  factorMap : Dict String (List (Date × ℚ))
  breakMap : Dict String Date
  previous : Option DailyRow

def Scan.start : Scan := ⟨[], [], .empty, .empty, none⟩

def Scan.record (s : Scan) (row : DailyRow) : PriceStep → Scan
  | .plain => s
  | .broken reason =>
    { s with
      breakRows := s.breakRows ++ [⟨row.stockId, row.tradeDate, reason⟩]
      breakMap := s.breakMap.set row.stockId row.tradeDate }
  | .factor f =>
    { s with
      factorRows := s.factorRows ++ [⟨row.stockId, row.tradeDate, f, row.base⟩]
      factorMap := s.factorMap.set row.stockId
        ((s.factorMap.get? row.stockId).getD [] ++ [(row.tradeDate, f)]) }

/-- The step to a row from the row before it; the first row of a stock has none. -/
def stepTo (previous : Option DailyRow) (row : DailyRow) : PriceStep :=
  match previous with
  | none => .plain
  | some before => if before.stockId = row.stockId then priceStep before.close row else .plain

def scanRow (s : Scan) (row : DailyRow) : Scan :=
  { s.record row (stepTo s.previous row) with previous := some row }

/-- What is found in some rows. -/
def scanOf (rows : List DailyRow) : Scan := rows.foldl scanRow .start

/-- The database has no integers from 2^63 on. -/
def integerOverflow : Error :=
  ⟨.overflowError, "Python int too large to convert to SQLite INTEGER"⟩

/-- Store the factors. The base price is the only part of a row that can be too large. -/
def storeFactors (rows : List FactorRow) : Except Error Unit :=
  if ∀ row ∈ rows, row.basePrice < 2 ^ 63 then .ok () else .error integerOverflow

/-- The precision of adjusted prices. -/
def adjustedPrec : Nat := 50

def adjust (value : Nat) (cumulative : ℚ) : Except Error Decimal := do
  let product ← Decimal.mul adjustedPrec (.ofNat value) (.ofInt cumulative.num)
  let exact ← Decimal.div adjustedPrec product (.ofNat cumulative.den)
  exact.quantize .halfUp adjustedPrec (-6)

/-- The price of a stock on a day. -/
structure PriceRow extends DailyRow where
  adjustedClose : Option Decimal

/-- The prices of a stock, from the factors of its later days and its last break. -/
def adjustSeries (latestBreak : Option Date) :
    List (Date × ℚ) → List DailyRow → Except Error (List PriceRow)
  | _, [] => .ok []
  | factors, row :: rows => do
    if latestBreak.any (row.tradeDate < ·) then
      let rest ← adjustSeries latestBreak factors rows
      return { row with adjustedClose := none } :: rest
    else
      -- The factors up to the day are passed over for the later rows, too.
      let factors := factors.dropWhile (·.1 ≤ row.tradeDate)
      let cumulative := (factors.map Prod.snd).prod
      let price ← if cumulative = 1 then .ok ⟨false, row.close * 10 ^ 6, -6⟩
        else adjust row.close cumulative
      let rest ← adjustSeries latestBreak factors rows
      return { row with adjustedClose := some price } :: rest

structure Corpus where
  prices : List PriceRow
  factors : List FactorRow
  breaks : List BreakRow

def stocksOf (rows : List DailyRow) : List String := (rows.map (·.stockId)).dedup

/-- Build the corpus from the loaded rows. -/
def buildCorpus (table : DailyTable) : Except Error Corpus := do
  let scan := scanOf table.ordered
  storeFactors scan.factorRows
  let prices ← (stocksOf table.ordered).mapM fun stockId =>
    adjustSeries (scan.breakMap.get? stockId) ((scan.factorMap.get? stockId).getD [])
      (table.ordered.filter (·.stockId = stockId))
  return { prices := prices.flatten, factors := scan.factorRows, breaks := scan.breakRows }

def stepsFrom (previous : Option DailyRow) : List DailyRow → List (DailyRow × PriceStep)
  | [] => []
  | row :: rows => (row, stepTo previous row) :: stepsFrom (some row) rows

def PriceStep.factor? : PriceStep → Option ℚ
  | .factor f => some f
  | _ => none

def PriceStep.isBroken : PriceStep → Bool
  | .broken _ => true
  | _ => false

/-- The steps of all rows of a table. -/
def DailyTable.steps (table : DailyTable) : List (DailyRow × PriceStep) :=
  stepsFrom none table.ordered

/-- The record of a break, if a step is one. -/
def breakRow? (e : DailyRow × PriceStep) : Option BreakRow :=
  match e.2 with
  | .broken reason => some ⟨e.1.stockId, e.1.tradeDate, reason⟩
  | _ => none

/-- The record of a factor, if a step is one. -/
def factorRow? (e : DailyRow × PriceStep) : Option FactorRow :=
  match e.2 with
  | .factor f => some ⟨e.1.stockId, e.1.tradeDate, f, e.1.base⟩
  | _ => none

def breaksOf (stockId : String) (steps : List (DailyRow × PriceStep)) :
    List (DailyRow × PriceStep) :=
  steps.filter fun e => e.1.stockId = stockId && e.2.isBroken

theorem map_fst_stepsFrom (previous : Option DailyRow) (rows : List DailyRow) :
    (stepsFrom previous rows).map Prod.fst = rows := by
  induction rows generalizing previous with
  | nil => rfl
  | cons row rows ih => rw [stepsFrom, List.map_cons, ih]

theorem foldl_scanRow_rows (s : Scan) (rows : List DailyRow) :
    (rows.foldl scanRow s).breakRows = s.breakRows ++
      (stepsFrom s.previous rows).filterMap breakRow? ∧ (rows.foldl scanRow s).factorRows =
        s.factorRows ++ (stepsFrom s.previous rows).filterMap factorRow? := by
  induction rows generalizing s with
  | nil => simp [stepsFrom]
  | cons row rows ih =>
    obtain ⟨hbreaks, hfactors⟩ := ih (scanRow s row)
    rw [List.foldl_cons, hbreaks, hfactors, stepsFrom, List.filterMap_cons, List.filterMap_cons]
    cases hstep : stepTo s.previous row <;>
      simp [scanRow, hstep, Scan.record, breakRow?, factorRow?]

theorem foldl_scanRow_breakMap (s : Scan) (rows : List DailyRow) (stockId : String) :
    (rows.foldl scanRow s).breakMap.get? stockId =
      (((breaksOf stockId (stepsFrom s.previous rows)).getLast?).map (·.1.tradeDate)).or
        (s.breakMap.get? stockId) := by
  induction rows generalizing s with
  | nil => simp [stepsFrom, breaksOf]
  | cons row rows ih =>
    have hprevious : (scanRow s row).previous = some row := rfl
    rw [List.foldl_cons, ih, stepsFrom, hprevious]
    cases hstep : stepTo s.previous row with
    | plain =>
      have hbreaks : breaksOf stockId ((row, .plain) :: stepsFrom (some row) rows) =
          breaksOf stockId (stepsFrom (some row) rows) := by
        simp [breaksOf, PriceStep.isBroken]
      rw [hbreaks]
      simp [scanRow, hstep, Scan.record]
    | factor f =>
      have hbreaks : breaksOf stockId ((row, .factor f) :: stepsFrom (some row) rows) =
          breaksOf stockId (stepsFrom (some row) rows) := by
        simp [breaksOf, PriceStep.isBroken]
      rw [hbreaks]
      simp [scanRow, hstep, Scan.record]
    | broken reason =>
      by_cases hstock : row.stockId = stockId
      · have hbreaks : breaksOf stockId ((row, .broken reason) :: stepsFrom (some row) rows) =
            (row, .broken reason) :: breaksOf stockId (stepsFrom (some row) rows) := by
          simp [breaksOf, PriceStep.isBroken, hstock]
        have hget : (scanRow s row).breakMap.get? stockId = some row.tradeDate := by
          simp [scanRow, hstep, Scan.record, hstock]
        rw [hbreaks, hget]
        cases hrest : breaksOf stockId (stepsFrom (some row) rows) with
        | nil => rfl
        | cons e rest =>
          obtain ⟨last, hlast⟩ := Option.isSome_iff_exists.mp
            (List.getLast?_isSome.mpr (List.cons_ne_nil e rest))
          rw [List.getLast?_cons_cons, hlast]
          rfl
      · have hbreaks : breaksOf stockId ((row, .broken reason) :: stepsFrom (some row) rows) =
            breaksOf stockId (stepsFrom (some row) rows) := by
          simp [breaksOf, hstock]
        have hget : (scanRow s row).breakMap.get? stockId = s.breakMap.get? stockId := by
          simp only [scanRow, hstep, Scan.record]
          exact Dict.get?_set_of_ne _ _ fun h => hstock h.symm
        rw [hbreaks, hget]

theorem scanOf_rows (rows : List DailyRow) :
    (scanOf rows).breakRows = (stepsFrom none rows).filterMap breakRow? ∧
      (scanOf rows).factorRows = (stepsFrom none rows).filterMap factorRow? := by
  obtain ⟨hbreaks, hfactors⟩ := foldl_scanRow_rows .start rows
  exact ⟨hbreaks, hfactors⟩

theorem scanOf_breakMap (rows : List DailyRow) (stockId : String) :
    (scanOf rows).breakMap.get? stockId =
      ((breaksOf stockId (stepsFrom none rows)).getLast?).map (·.1.tradeDate) := by
  rw [scanOf, foldl_scanRow_breakMap]
  exact Option.or_none

theorem DailyTable.pairwise_ordered (table : DailyTable) :
    table.ordered.Pairwise fun a b => a.key < b.key := by
  have hnodup : (table.ordered.map DailyRow.key).Nodup :=
    (ranked_perm.map DailyRow.key).nodup_iff.mpr table.keys_nodup
  have hle : table.ordered.Pairwise fun a b => a.key ≤ b.key := pairwise_ranked
  rw [List.Nodup, List.pairwise_map] at hnodup
  exact (hle.and hnodup).imp fun ⟨h, hne⟩ => lt_of_le_of_ne h hne

theorem DailyTable.pairwise_days (table : DailyTable) :
    table.ordered.Pairwise fun a b => a.stockId = b.stockId → a.tradeDate < b.tradeDate := by
  refine table.pairwise_ordered.imp fun {a b} h hstock => ?_
  rw [DailyRow.key, DailyRow.key, Prod.Lex.toLex_lt_toLex] at h
  rcases h with h | ⟨-, h⟩
  · exact absurd hstock (ne_of_lt h)
  · exact h

theorem DailyTable.lt_lastBreak_iff (table : DailyTable) (stockId : String) (day : Date) :
    ((scanOf table.ordered).breakMap.get? stockId).any (day < ·) = true ↔
      ∃ e ∈ table.steps, e.1.stockId = stockId ∧ e.2.isBroken = true ∧ day < e.1.tradeDate := by
  have hmem : ∀ e, e ∈ breaksOf stockId table.steps ↔
      e ∈ table.steps ∧ e.1.stockId = stockId ∧ e.2.isBroken = true := by
    intro e
    simp [breaksOf]
  have hdays : (breaksOf stockId table.steps).Pairwise fun a b => a.1.tradeDate <
      b.1.tradeDate := by
    have hsteps : table.steps.Pairwise fun a b =>
        a.1.stockId = b.1.stockId → a.1.tradeDate < b.1.tradeDate := by
      rw [← List.pairwise_map (f := Prod.fst) (R := fun a b : DailyRow =>
        a.stockId = b.stockId → a.tradeDate < b.tradeDate), DailyTable.steps, map_fst_stepsFrom]
      exact table.pairwise_days
    refine (hsteps.filter _).imp_of_mem fun {a b} ha hb h => ?_
    exact h (((hmem a).mp ha).2.1.trans ((hmem b).mp hb).2.1.symm)
  rw [scanOf_breakMap, ← DailyTable.steps]
  rcases List.eq_nil_or_concat (breaksOf stockId table.steps) with hnil | ⟨before, last, hlast⟩
  · rw [hnil]
    constructor
    · intro h
      cases h
    · rintro ⟨e, he, hstock, hbroken, -⟩
      have hin := (hmem e).mpr ⟨he, hstock, hbroken⟩
      rw [hnil] at hin
      cases hin
  · rw [hlast, List.concat_eq_append, List.getLast?_concat, Option.map_some, Option.any_some,
      decide_eq_true_eq]
    rw [hlast, List.concat_eq_append] at hmem hdays
    constructor
    · intro h
      obtain ⟨hstep, hstock, hbroken⟩ := (hmem last).mp (by simp)
      exact ⟨last, hstep, hstock, hbroken, h⟩
    · rintro ⟨e, he, hstock, hbroken, hday⟩
      have hin := (hmem e).mpr ⟨he, hstock, hbroken⟩
      rcases List.mem_append.mp hin with hin | hin
      · have hlater := (List.pairwise_append.mp hdays).2.2 e hin last (by simp)
        exact lt_trans hday hlater
      · rw [List.mem_singleton.mp hin] at hday
        exact hday

end Dayjaview.Historical
