import LoadSweep.Colour
import LoadSweep.Decimal.Written
import LoadSweep.Files.Path
import LoadSweep.Metric.Derive

/-! Everything that a comparison depends on besides the data sets themselves. -/
namespace LoadSweep

/-- A load at which both variants were measured. -/
structure Level where
  load : UInt32
  /-- Text instead of the load itself. -/
  given : Option String := none
  colour : Option Colour := none
  marker : Option Marker := none
  deriving DecidableEq, Repr

namespace Level

/-- The load in thousands: `2000` is `2Gb/sec` and `2500` is `2.5Gb/sec`. -/
def rate (load : UInt32) : String :=
  if load % 1000 = 0 then s!"{load / 1000}Gb/sec"
  else s!"{Decimal.plain (load.toFloat / 1000)}Gb/sec"

def label (l : Level) : String := l.given.getD (rate l.load)

end Level

inductive Reduction where
  | flat
  /-- The mean of the means of the groups of rows that agree in a column. -/
  | grouped (column : Nat)
  deriving DecidableEq, Repr

/-- A range of the vertical axis that the chart of a metric shows at least. -/
structure Bounds where
  metric : Metric
  low : Float
  high : Float
  deriving DecidableEq, Repr

structure Settings where
  directory : String
  /-- What the names of the swept data sets begin with. -/
  sweptVariant : String
  /-- What the names of the baseline data sets begin with. -/
  baselineVariant : String
  sweptName : String
  baselineName : String
  /-- What the names of data sets end with. -/
  ending : String
  window : Float
  axisLabel : String
  levels : List Level
  metrics : List Metric
  reduction : Reduction
  bounds : List Bounds
  deriving DecidableEq, Repr

namespace Settings

def standard : Settings where
  directory := "."
  sweptVariant := "sparse_bullshark"
  baselineVariant := "bullshark"
  sweptName := "Sparse Bullshark"
  baselineName := "Bullshark"
  ending := "csv"
  window := defaultWindow
  axisLabel := "Sample size"
  levels := [
    { load := 2000, colour := Colour.named? "red", marker := some .diamond },
    { load := 4000, colour := Colour.named? "green", marker := some .square },
    { load := 6000, colour := Colour.named? "blue", marker := some .triangle }]
  metrics := Metric.all
  reduction := .flat
  bounds := []

/-- The data set of a variant at a load: `directory/variant_load.ending`. -/
def datasetPath (s : Settings) (variant : String) (load : UInt32) : String :=
  Path.join s.directory s!"{variant}_{load}.{s.ending}"

def sweptPath (s : Settings) (l : Level) : String := s.datasetPath s.sweptVariant l.load

def baselinePath (s : Settings) (l : Level) : String := s.datasetPath s.baselineVariant l.load

/-- The first range given for a metric. -/
def boundsOf (s : Settings) (m : Metric) : Option (Float × Float) :=
  (s.bounds.find? (·.metric == m)).map fun b => (b.low, b.high)

inductive Invalid where
  | noLevels
  | repeatedLoad (load : UInt32)
  | badWindow (window : Float)
  | noEnding
  | invertedBounds (b : Bounds)
  deriving DecidableEq, Repr

def Invalid.message : Invalid → String
  | noLevels => "config lists no load levels"
  | repeatedLoad load => s!"load level {load} is listed twice"
  | badWindow window => s!"window_secs must be a positive number, got {Decimal.plain window}"
  | noEnding => "extension must not be empty"
  | invertedBounds b =>
    s!"y bounds for {b.metric.name} are inverted: [{Decimal.plain b.low}, {Decimal.plain b.high}]"

/-- The first load that stands behind an equal one. -/
def repeated? (seen : List UInt32) : List Level → Option UInt32
  | [] => none
  | l :: ls => if seen.contains l.load then some l.load else repeated? (l.load :: seen) ls

/-- Reports the first flaw that makes settings unusable. -/
def check (s : Settings) : Except Invalid Unit :=
  if s.levels.isEmpty then .error .noLevels
  else match repeated? [] s.levels with
    | some load => .error (.repeatedLoad load)
    | none =>
      if !(s.window.isFinite && 0 < s.window) then .error (.badWindow s.window)
      else if s.ending.isEmpty then .error .noEnding
      else match s.bounds.find? fun b => !(b.low < b.high) with
        | some b => .error (.invertedBounds b)
        | none => .ok ()

end Settings
end LoadSweep
