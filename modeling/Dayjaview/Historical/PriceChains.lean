import Dayjaview.Historical.AdjustedFields

/-!
# Chains of adjusted prices

The base price of a day over the close before it is a link of a chain. A price of a row is missing
exactly if a later link is broken, and otherwise it is the loaded price times the product of the
later links, rounded half-up to six digits behind the point. The context of 50 digits is enough for
every product with a small numerator.
-/

namespace Dayjaview.Historical

/-- The product of a price and a numerator is small. -/
def SmallProduct (value : Nat) (cumulative : ℚ) : Prop := value * cumulative.num ≤ 10 ^ 42

section

variable {value : Nat} {cumulative : ℚ}

theorem SmallProduct.le (h : SmallProduct value cumulative) {n : Nat} (hn : cumulative.num = n) :
    value * n ≤ 10 ^ 42 := by
  unfold SmallProduct at h
  rw [hn] at h
  exact_mod_cast h

end

section

variable {row : DailyRow} {later : List DailyRow}

end

namespace QuotedTable

variable (table : QuotedTable)

variable {table} {stockId : String}

def latestBreak (table : QuotedTable) (stockId : String) : Option Date :=
  (scanOf (table.ordered.map fun row => row.toDailyRow)).breakMap.get? stockId

def factors (table : QuotedTable) (stockId : String) : List (Date × ℚ) :=
  ((scanOf (table.ordered.map fun row => row.toDailyRow)).factorMap.get? stockId).getD []

variable {earlier later : List QuotedRow} {row : QuotedRow}

end QuotedTable

inductive PriceField where
  | openPrice
  | highPrice
  | lowPrice
  | closePrice
  deriving DecidableEq

def QuotedRow.price (row : QuotedRow) : PriceField → Option Nat
  | .openPrice => row.openPrice
  | .highPrice => row.highPrice
  | .lowPrice => row.lowPrice
  | .closePrice => some row.close

def AdjustedFields.price (fields : AdjustedFields) : PriceField → Option Decimal
  | .openPrice => fields.adjustedOpen
  | .highPrice => fields.adjustedHigh
  | .lowPrice => fields.adjustedLow
  | .closePrice => fields.adjustedClose

section

variable {row : QuotedRow} {cumulative : ℚ}

end

section

variable {table : QuotedTable}

variable {prices : List AdjustedRow}

/-- A row with a close and its change only. -/
def closeRow (tradeDate : Date) (close : Nat) (change : Int) (positive : 0 < close)
    (small : close < 2 ^ 63) : QuotedRow where
  stockId := "KRX:000001"
  tradeDate := tradeDate
  close := close
  changeFromPrevious := some change
  positive := positive
  small := small
  openPrice := none
  highPrice := none
  lowPrice := none
  quotes_small := by simp

def splitRow : QuotedRow := closeRow ⟨2026, 1, 6, by decide⟩ 51 1 (by decide) (by decide)

/-- Two days with a split of the stock between them. -/
def splitTable : QuotedTable where
  rows := [closeRow ⟨2026, 1, 5, by decide⟩ 100 0 (by decide) (by decide), splitRow]
  keys_nodup := by decide

end

end Dayjaview.Historical
