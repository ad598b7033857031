/-! What a chart shows: one of three quantities, each taken from a fixed column of the measurements. -/
namespace LoadSweep

inductive Metric where
  | latency
  | throughput
  | saturation
  deriving DecidableEq, Repr

namespace Metric

/-- Every metric, in the order in which charts are made by default. -/
def all : List Metric := [latency, throughput, saturation]

/-- The name used in settings, logs and messages. -/
def name : Metric → String
  | latency => "latency"
  | throughput => "throughput"
  | saturation => "nic_saturation"

/-- The column of a swept data set; column 0 is the swept parameter. -/
def sweptColumn : Metric → Fin 4
  | throughput => 1
  | latency => 2
  | saturation => 3

/-- The column of a baseline data set, which has no swept parameter. -/
def baselineColumn : Metric → Fin 3
  | throughput => 0
  | latency => 1
  | saturation => 2

theorem baselineColumn_add_one (m : Metric) : m.baselineColumn.val + 1 = m.sweptColumn.val := by
  cases m <;> rfl

def title : Metric → String
  | latency => "Latency comparison"
  | throughput => "Throughput comparison"
  | saturation => "Network card saturation"

def axisLabel : Metric → String
  | latency => "Latency (sec)"
  | throughput => "Blocks per second"
  | saturation => "Network card saturation Mb/sec"

def unit : Metric → String
  | latency => "sec"
  | throughput => "blocks/sec"
  | saturation => "Mb/sec"

end Metric
end LoadSweep
