import LoadSweep.Failure
import LoadSweep.Series

/-! The measurements are totals of one run; a metric is a rate. -/
namespace LoadSweep

/-- The seconds that a run lasts unless the settings say otherwise. -/
def defaultWindow : Float := 60

/-- Total latency of a run as seconds per second of the run. -/
def latencySeconds (total window : Float) : Float := total / window

def perSecond (count window : Float) : Float := count / window

/-- A mean number of sampled bytes as mebibits per second: eight bits to a byte, and each sample stands for a
thousand. -/
def saturationMebibits (bytes : Float) : Float := bytes * 8000 / 1048576

namespace Metric

/-- The metric of a mean, unless the mean is below zero or not finite. -/
def derive (m : Metric) (window value : Float) : Except Failure Float :=
  if !value.isFinite || value < 0 then .error (.outOfDomain m value)
  else .ok <| match m with
    | latency => latencySeconds value window
    | throughput => perSecond value window
    | saturation => saturationMebibits value

/-- The metric of each mean of a series, up to the first that has none. -/
def deriveSeries (m : Metric) (window : Float) (s : Series Float) : Except Failure (Series Float) :=
  s.tryMap (m.derive window)

end Metric
end LoadSweep
