import LoadSweep.Decimal.Reader
import LoadSweep.Session

/-! The texts that a session shows: a bar at the top, a panel of numbers at the side and the plot. -/
namespace LoadSweep

/-- A text of the top bar and what a click on it does. -/
structure Control where
  text : String
  action : Option Action := none
  deriving DecidableEq, Repr

namespace Chart

def pointRows (curve : Curve) : List (String × String) :=
  curve.series.points.map fun p => (p.1.text, valueText p.2)

def baselineRow (c : Chart) (curve : Curve) : String × String := (c.baselineName, valueText curve.baseline)

/-- The grid of a curve in the side panel. -/
def grid (c : Chart) (curve : Curve) : List (String × String) :=
  (c.xLabel, c.metric.unit) :: pointRows curve ++ [c.baselineRow curve]

def block (c : Chart) (curve : Curve) : List String :=
  s!"● {curve.label}" :: (c.grid curve).flatMap fun row => [row.1, row.2]

/-- The divergences below a heading, if there are any. -/
def warningTexts (c : Chart) : List String :=
  if c.warnings.isEmpty then [] else "Warnings" :: c.warnings.map Divergence.text

def tickLine (c : Chart) : String := s!"{c.xLabel}: {Divergence.listKeys c.ticks}"

def sideTexts (c : Chart) : List String := c.curves.flatMap c.block ++ c.warningTexts ++ [c.tickLine]

/-- The names in the legend, those of baselines only when they are shown. -/
def legendNames (c : Chart) (showBaselines : Bool) : List String :=
  c.curves.flatMap fun curve => c.sweptEntry curve :: if showBaselines then [c.baselineEntry curve] else []

/-- The legend names every curve once, in ascending order. -/
def legend (c : Chart) (showBaselines : Bool) : List String :=
  ((c.legendNames showBaselines).mergeSort fun a b => decide (a ≤ b)).eraseDups

/-- The labels of the axes; an empty one takes no room. -/
def axisLabels (c : Chart) : List String := [c.xLabel, c.yLabel].filter (· != "")

def plotTexts (c : Chart) (showBaselines : Bool) : List String :=
  c.title :: c.axisLabels ++ c.legend showBaselines

end Chart

namespace Session

/-- A tab for each outcome, the first of them at position `i`. -/
def tabs (i : Nat) : List Outcome → List Control
  | [] => []
  | o :: os => ⟨o.metric.title, some (.select i)⟩ :: tabs (i + 1) os

/-- The controls at the top and the status behind them. -/
def topBar (s : Session) : List Control :=
  { text := "File" } :: tabs 0 s.outcomes ++ ⟨"Baselines", some .toggleBaselines⟩
    :: s.status.toList.map fun status => { text := status }

def topTexts (s : Session) : List String := s.topBar.map Control.text

/-- The text that the panel shows below its heading. -/
def contentTexts (s : Session) : List String :=
  match s.current? with
  | none => ["No metric selected."]
  | some o => match o.result with
    | .ok chart => chart.sideTexts
    | .error e => [e.message]

def sideTexts (s : Session) : List String :=
  "Datasets" :: s!"Directory: {s.settings.directory}" :: s!"Window: {Decimal.plain s.settings.window} s"
    :: s.contentTexts

/-- All texts of the plot besides the numbers along its axes. -/
def plotTexts (s : Session) : List String :=
  match s.current? with
  | none => ["No metrics configured"]
  | some o => match o.result with
    | .ok chart => chart.plotTexts s.showBaselines
    | .error e => [s!"{o.metric.name} chart unavailable:\n{e.message}"]

/-- The texts of the plot that are no numbers. -/
def wordsOfPlot (s : Session) : List String :=
  s.plotTexts.filter fun text => (Decimal.read? text.toList).isNone

/-- Whether a text stands anywhere in the window. -/
def shows (s : Session) (text : String) : Bool := (s.topTexts ++ s.sideTexts ++ s.plotTexts).contains text

/-- What a click on the first text that reads so does. -/
def clicked? (s : Session) (text : String) : Option Action :=
  (s.topBar.find? (·.text == text)).bind Control.action

def click (disk : Disk) (s : Session) (text : String) : Session :=
  match s.clicked? text with
  | some action => s.perform disk action
  | none => s

end Session
end LoadSweep
