import Dayjaview.Core.DecimalOverflow

/-!
# Rounding to a power of ten

A number that is rounded half-up to some digits behind the point has the value of the rounding, and
it can be rounded so when its digits fit the precision.
-/

namespace Dayjaview.Decimal

variable {prec places : Nat} {d r : Decimal}

end Dayjaview.Decimal
