import Dayjaview.Core.Grouping
import Dayjaview.Historical.PriceBases

/-!
# Prices after an event

The reader of the price corpus. A price is adjusted where it can be, and the close as
it was loaded elsewhere. Returns compare such prices of two days.
-/

namespace Dayjaview.Ontology

open Historical

inductive MissingReason where
  | beforeCorpusRange
  | noPriceOnOrBeforeEvent
  | baseCloseMissing
  | horizonNotReached
  deriving DecidableEq

theorem validDate_corpusRange : ValidDate 2010 1 1 := by decide

/-- The day from which there are prices. -/
def corpusRangeFrom : Date := ⟨2010, 1, 1, validDate_corpusRange⟩

/-- The returns after an event. -/
structure Outcome where
  baseDate : Option Date
  baseClose : Option Decimal
  returns : Dict Int (Option Decimal)
  missing : Option MissingReason

/-- The order in which the database answers a query that asks for none. -/
class RowOrder where
  order : List PriceRow → List PriceRow
  perm : ∀ rows, (order rows).Perm rows

namespace SqliteOutcomeReader

/-- The first day of the corpus. -/
def priceRangeFrom (prices : List PriceRow) : Date :=
  (prices.map (·.tradeDate)).min?.getD corpusRangeFrom

/-- The stock of the corpus that a stock code stands for. -/
def stockIdOf (stockCode : String) : String :=
  let code := strip stockCode
  if ':' ∈ code.toList then code else "KRX:" ++ code

/-- The close of a row, adjusted if it can be. -/
def close (row : PriceRow) : Decimal := row.adjustedClose.getD (.ofNat row.close)

/-- The prices of a stock up to a day, in order. -/
def pricesUpTo (prices : List PriceRow) (stockId : String) (day : Date) : List PriceRow :=
  ranked (·.tradeDate) (prices.filter fun row => row.stockId = stockId ∧ row.tradeDate ≤ day)

/-- The prices of a stock after a day, in order. -/
def pricesAfter (prices : List PriceRow) (stockId : String) (day : Date) : List PriceRow :=
  ranked (·.tradeDate) (prices.filter fun row => row.stockId = stockId ∧ day < row.tradeDate)

/-- The first rows of an answer; a negative number stands for all of them. -/
def limitRows (limit : Int) (rows : List PriceRow) : Except Error (List PriceRow) :=
  if limit < -2 ^ 63 ∨ 2 ^ 63 ≤ limit then
    .error ⟨.overflowError, "Python int too large to convert to SQLite INTEGER"⟩
  else if limit < 0 then .ok rows
  else .ok (rows.take limit.toNat)

/-- The change between two closes in percent. -/
def percentChange (target base : Decimal) : Except Error Decimal := do
  let quotient ← Decimal.div Decimal.defaultPrec target base
  let change ← Decimal.sub Decimal.defaultPrec quotient (.ofNat 1)
  Decimal.mul Decimal.defaultPrec change (.ofNat 100)

/-- The price a number of days after the event, if there is one. -/
def horizonRow (forward : List PriceRow) (horizon : Int) : Option PriceRow :=
  if horizon ≤ 0 ∨ (forward.length : Int) < horizon then none else forward[(horizon - 1).toNat]?

def horizonReturnOf (base : PriceRow) (forward : List PriceRow) (horizon : Int) :
    Except Error (Int × Option Decimal) :=
  match horizonRow forward horizon with
  | none => .ok (horizon, none)
  | some target => do
    let change ← percentChange (close target) (close base)
    return (horizon, some change)

/-- The returns of a stock after an event. -/
def returns (prices : List PriceRow) (stockCode : String) (occurredOn : Date)
    (horizons : List Int) : Except Error Outcome := do
  let empty := Dict.ofList (horizons.map (·, none))
  if occurredOn < priceRangeFrom prices then return ⟨none, none, empty, some .beforeCorpusRange⟩
  let wanted := horizons.max?.getD 0
  let stockId := stockIdOf stockCode
  match (pricesUpTo prices stockId occurredOn).getLast? with
  | none => return ⟨none, none, empty, some .noPriceOnOrBeforeEvent⟩
  | some base =>
    if (close base).coefficient = 0 then
      return ⟨some base.tradeDate, none, empty, some .baseCloseMissing⟩
    let forward ← limitRows wanted (pricesAfter prices stockId base.tradeDate)
    let computed ← horizons.mapM (horizonReturnOf base forward)
    let returns := Dict.ofList computed
    return {
      baseDate := some base.tradeDate
      baseClose := some (close base)
      returns := returns
      missing := if returns.values.any (·.isNone) then some .horizonNotReached else none }

def tradingDays (prices : List PriceRow) : List Date := ranked id (prices.map (·.tradeDate)).dedup

/-- The day of the corpus before a day of the corpus. -/
def previousTradingDay (prices : List PriceRow) (on : Date) : Option Date :=
  match (tradingDays prices).idxOf? on with
  | none | some 0 => none
  | some (order + 1) => (tradingDays prices)[order]?

/-- The closes of some rows by stock and day. -/
def closesOf (rows : List PriceRow) : Dict String (Dict Date Decimal) :=
  rows.foldl (fun closes row => closes.set row.stockId
    (((closes.get? row.stockId).getD .empty).set row.tradeDate (close row))) .empty

def basketStocks (stockCodes : List String) : List String :=
  (stockCodes.filter (· ≠ "")).map stockIdOf

/-- The return of a member with closes on both days. -/
def memberReturn (previous on : Date) (member : String × Dict Date Decimal) :
    Except Error (Option (String × Decimal)) :=
  match member.2.get? previous, member.2.get? on with
  | some before, some after =>
    if before.coefficient = 0 then .ok none
    else do
      let change ← percentChange after before
      return some (member.1, change)
  | _, _ => .ok none

variable [RowOrder]

/-- The returns of the members of a basket. -/
def memberReturns (prices : List PriceRow) (stockCodes : List String) (on : Date) :
    Except Error (List (String × Decimal)) :=
  match previousTradingDay prices on with
  | none => .ok []
  | some previous => do
    let stockIds := basketStocks stockCodes
    let rows := RowOrder.order (prices.filter fun row =>
      row.stockId ∈ stockIds ∧ (row.tradeDate = previous ∨ row.tradeDate = on))
    let changes ← (closesOf rows).entries.mapM (memberReturn previous on)
    return changes.filterMap id

omit [RowOrder]

/-- The last two prices of a stock up to a day, the later one first. -/
def lastTwo (prices : List PriceRow) (stockId : String) (day : Date) :
    Option (PriceRow × PriceRow) :=
  match (pricesUpTo prices stockId day).reverse with
  | last :: previous :: _ => some (last, previous)
  | _ => none

/-- The return of a stock on the day of an event. -/
def dailyReturn (prices : List PriceRow) (stockCode : String) (on : Date) :
    Except Error (Option Decimal) :=
  match lastTwo prices (stockIdOf stockCode) on with
  | none => .ok none
  | some (last, previous) =>
    if (close previous).coefficient = 0 then .ok none
    else do
      let change ← percentChange (close last) (close previous)
      return some change

end SqliteOutcomeReader

end Dayjaview.Ontology
