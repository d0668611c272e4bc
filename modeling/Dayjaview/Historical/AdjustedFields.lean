import Dayjaview.Core.DecimalQuantize
import Dayjaview.Historical.Corpus
import Mathlib.Data.List.TakeWhile

/-!
# The adjusted prices of all rows

The prices of a stock are gone through once more. The products of the factors up from each one are
computed before, and an index into them goes on with the days. Every price of a row before the last
break is missing, and the other ones are multiplied with the product of the later factors.
-/

namespace Dayjaview.Historical

/-- The prices of a stock on a day, as they were loaded. A price that was not paid is missing. -/
structure QuotedRow extends DailyRow where
  openPrice : Option Nat
  highPrice : Option Nat
  lowPrice : Option Nat
  quotes_small : ∀ value ∈ openPrice.toList ++ highPrice.toList ++ lowPrice.toList, value < 2 ^ 63

/-- The adjusted prices of a row. -/
structure AdjustedFields where
  adjustedOpen : Option Decimal
  adjustedHigh : Option Decimal
  adjustedLow : Option Decimal
  adjustedClose : Option Decimal

/-- The loaded rows, one for each stock and day. -/
structure QuotedTable where
  rows : List QuotedRow
  keys_nodup : (rows.map fun row => row.key).Nodup

namespace QuotedTable

def ordered (table : QuotedTable) : List QuotedRow := ranked (fun row => row.key) table.rows

/-- The rows of a stock by day. -/
def series (table : QuotedTable) (stockId : String) : List QuotedRow :=
  table.ordered.filter fun row => row.stockId = stockId

def stocks (table : QuotedTable) : List String := (table.ordered.map fun row => row.stockId).dedup

end QuotedTable

def AdjustedFields.missing : AdjustedFields := ⟨none, none, none, none⟩

/-- The index of the first factor after a day, from an index on. -/
def advance (factors : List (Date × ℚ)) (tradeDate : Date) (factorIndex : Nat) : Nat :=
  factorIndex + ((factors.drop factorIndex).takeWhile fun factor => factor.1 ≤ tradeDate).length

variable {factorIndex : Nat}

end Dayjaview.Historical
