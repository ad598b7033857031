import LoadSweep.Chart.Report
import LoadSweep.Colour.Shade
import LoadSweep.Files
import LoadSweep.Settings
import LoadSweep.Table.Grouping
import LoadSweep.Table.Reader
import LoadSweep.Trace

/-! For each load the swept data set is read and averaged by its first column, then the baseline data set is read and
reduced, and both are turned into the metric. The first failure of the first failing load abandons the chart. -/
namespace LoadSweep

def Table.load (disk : Disk) (path : String) (width : Nat) : Traced Failure Table := do
  match disk path with
  | none => Traced.of (.error (.missingFile path))
  | some source =>
    let t ← Table.read path width source
    Traced.logged .debug s!"read {t.length} rows x {t.width} columns from {path}"
    return t

def Reduction.apply (r : Reduction) (t : Table) (value : Nat) : Except Failure Float :=
  match r with
  | flat => t.overallMean value
  | grouped column => t.meanOfGroupMeans column value

namespace Chart

/-- The swept series and the baseline of a level. -/
def measure (disk : Disk) (s : Settings) (m : Metric) (l : Level) : Traced Failure (Series Float × Float) := do
  let swept ← Table.load disk (s.sweptPath l) 4
  let means ← swept.groupMean 0 m.sweptColumn
  let baseline ← Table.load disk (s.baselinePath l) 3
  let mean ← s.reduction.apply baseline m.baselineColumn
  return (← m.deriveSeries s.window means, ← m.derive s.window mean)

/-- The curve of the level at position `i` of `n`. -/
def curveOf (disk : Disk) (s : Settings) (m : Metric) (n i : Nat) (l : Level) : Traced Failure Curve := do
  let (series, baseline) ← measure disk s m l
  Traced.logged .info
    s!"{m.name} @ {l.label}: {series.size} sample sizes, baseline {valueText baseline} {m.unit}"
  return {
    load := l.load
    label := l.label
    colour := l.colour.getD (Colour.spread n i)
    marker := l.marker.getD (Marker.nth i)
    series := series
    baseline := baseline }

/-- The curves of levels, the first of them at position `i` of `n`. -/
def curvesFrom (disk : Disk) (s : Settings) (m : Metric) (n i : Nat) : List Level → Traced Failure (List Curve)
  | [] => return []
  | l :: ls => do
    let first ← curveOf disk s m n i l
    let rest ← curvesFrom disk s m n (i + 1) ls
    return first :: rest

def warn (m : Metric) : List Divergence → Traced Failure Unit
  | [] => return
  | d :: ds => do
    Traced.logged .warn s!"{m.name}: {d.text}"
    warn m ds

def assemble (disk : Disk) (s : Settings) (m : Metric) : Traced Failure Chart := do
  let curves ← curvesFrom disk s m s.levels.length 0 s.levels
  let warnings := Divergence.among curves
  warn m warnings
  return {
    metric := m
    title := m.title
    xLabel := s.axisLabel
    yLabel := m.axisLabel
    sweptName := s.sweptName
    baselineName := s.baselineName
    bounds := s.boundsOf m
    curves := curves
    warnings := warnings }

end Chart

structure Outcome where
  metric : Metric
  result : Except Failure Chart

namespace Outcome

def failed (o : Outcome) : Bool := !o.result.isOk

/-- The outcome of a metric, and what was logged on the way. -/
def of (disk : Disk) (s : Settings) (m : Metric) : List LogRecord × Outcome :=
  let t := Chart.assemble disk s m
  let abandoned := match t.outcome with
    | .ok _ => []
    | .error e => [⟨.error, s!"{m.name}: chart abandoned: {e.message}"⟩]
  (t.log ++ abandoned, ⟨m, t.outcome⟩)

def firstFailure? : List Outcome → Option (Metric × Failure)
  | [] => none
  | o :: os => match o.result with
    | .error e => some (o.metric, e)
    | .ok _ => firstFailure? os

def allSucceeded (os : List Outcome) : Bool := os.all (·.result.isOk)

def failures (os : List Outcome) : Nat := os.countP (·.failed)

/-- How many of the charts failed, if any did. -/
def status? (os : List Outcome) : Option String :=
  if failures os = 0 then none else some s!"{failures os} of {os.length} charts failed"

end Outcome

namespace Settings

/-- The outcomes of all metrics; a failure costs only its own chart. -/
def outcomes (s : Settings) (disk : Disk) : List Outcome := s.metrics.map fun m => (Outcome.of disk s m).2

def outcomesLog (s : Settings) (disk : Disk) : List LogRecord :=
  s.metrics.flatMap fun m => (Outcome.of disk s m).1

end Settings
end LoadSweep
