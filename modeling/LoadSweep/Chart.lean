import LoadSweep.Colour
import LoadSweep.Metric.Derive

/-! A chart compares, for one metric, the swept variant with the baseline at each load. -/
namespace LoadSweep

/-- The swept series and the baseline at one load, in units of the metric. -/
structure Curve where
  load : UInt32
  label : String
  colour : Colour
  marker : Marker
  series : Series Float
  baseline : Float

/-- A load whose keys are not those of the reference, the first load of the chart. -/
structure Divergence where
  reference : String
  level : String
  /-- Keys of the reference that the load lacks. -/
  missing : List Key
  /-- Keys that the reference lacks. -/
  extra : List Key
  deriving DecidableEq, Repr

namespace Divergence

def listKeys (keys : List Key) : String := ", ".intercalate (keys.map Key.text)

def text (d : Divergence) : String :=
  s!"{d.level} keys differ from {d.reference}"
    ++ (if d.missing.isEmpty then "" else s!"; missing [{listKeys d.missing}]")
    ++ (if d.extra.isEmpty then "" else s!"; extra [{listKeys d.extra}]")

/-- How a curve diverges from the reference, if it does. -/
def between? (reference curve : Curve) : Option Divergence :=
  let expected := reference.series.keys
  let keys := curve.series.keys
  if keys = expected then none
  else some {
    reference := reference.label
    level := curve.label
    missing := expected.filter (!keys.contains ·)
    extra := keys.filter (!expected.contains ·) }

/-- The divergences of curves from the first of them, in their order. -/
def among : List Curve → List Divergence
  | [] => []
  | first :: rest => rest.filterMap (between? first)

end Divergence

structure Chart where
  metric : Metric
  title : String
  xLabel : String
  yLabel : String
  sweptName : String
  baselineName : String
  /-- A range that the vertical axis shows at least. -/
  bounds : Option (Float × Float)
  curves : List Curve
  warnings : List Divergence

namespace Chart

/-- The name of a curve in the legend. -/
def sweptEntry (c : Chart) (curve : Curve) : String := s!"{c.sweptName} {curve.label}"

/-- The name of the baseline of a curve in the legend. -/
def baselineEntry (c : Chart) (curve : Curve) : String := s!"{c.baselineName} {curve.label}"

/-- The keys of all curves, each once and in ascending order. -/
def ticks (c : Chart) : List Key := unionKeys (c.curves.map (·.series))

end Chart
end LoadSweep
