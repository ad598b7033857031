import LoadSweep.Proofs.Chart.Domain
import LoadSweep.Proofs.Sample.Lines

/-! The text of runs is a table of their counters as whole numbers, each in the column of its metric. -/
namespace LoadSweep

open Double

namespace Sample

/-- The counter of a run that a metric is derived from. -/
def Run.counter (r : Run) : Metric → Float
  | .throughput => r.blocks
  | .latency => r.latency
  | .saturation => r.bytes

/-- The row of a swept run: the sample size, and the counters as whole numbers. -/
structure SweptRow (r : UInt32 × Run) (row : Row 4) : Prop where
  size : row[0]? = some (Float.ofNat r.1.toNat)
  counters : ∀ m, Whole (r.2.counter m) (row.get m.sweptColumn)

/-- The row of a baseline run: the counters as whole numbers. -/
structure BaselineRow (r : Run) (row : Row 3) : Prop where
  counters : ∀ m, Whole (r.counter m) (row.get m.baselineColumn)

variable {disk : Disk} {path : String}

end Sample
end LoadSweep
