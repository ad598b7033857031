import LoadSweep.CommandLine
import LoadSweep.Settings.File

/-! Options name a settings file and override some of what it says. -/
namespace LoadSweep

structure Request where
  /-- The settings file; without one the standard settings hold. -/
  file : Option String := none
  directory : Option String := none
  /-- The metrics to compare; none stands for those of the settings. -/
  metrics : List Metric := []
  window : Option Float := none
  /-- Prints reports instead of opening a window. -/
  headless : Bool := false
  deriving DecidableEq, Repr

inductive RequestError where
  | unusable (e : SettingsError)
  /-- The settings are not valid after the overrides. -/
  | invalid (i : Settings.Invalid)
  deriving DecidableEq, Repr

namespace RequestError

def message : RequestError → String
  | unusable e => e.message
  | invalid _ => "invalid comparison settings"

/-- The message and what caused it. -/
def chain : RequestError → String
  | unusable e => e.message
  | invalid i => s!"invalid comparison settings: {i.message}"

end RequestError

namespace Request
open CommandLine

def fileSlot : Slot Request where
  name := "config"
  store value r := return { r with file := some (← path value) }

def directorySlot : Slot Request where
  name := "data-dir"
  store value r := return { r with directory := some (← path value) }

def metricNames : List (String × Metric) :=
  [("latency", .latency), ("throughput", .throughput), ("nic-saturation", .saturation)]

def metricSlot : Slot Request where
  name := "metric"
  repeatable := true
  store value r := return { r with metrics := r.metrics ++ [← choice metricNames value] }

def windowSlot : Slot Request where
  name := "window-secs"
  store value r := match Decimal.read? value.toList with
    | some secs => .ok { r with window := some secs }
    | none => .error .malformedValue

def grammar : Grammar Request where
  long := [("config", .value fileSlot), ("data-dir", .value directorySlot), ("metric", .value metricSlot),
    ("window-secs", .value windowSlot), ("headless", .flag "headless" fun r => { r with headless := true }),
    ("help", .help), ("version", .version)]
  short := [('c', .value fileSlot), ('d', .value directorySlot), ('m', .value metricSlot), ('h', .help),
    ('V', .version)]

def parse (args : List String) : Except Stop Request := CommandLine.parse grammar {} args

def usage : String :=
  "usage: compare [-c FILE] [-d DIR] [-m METRIC]... [--window-secs SECS] [--headless]"

/-- Settings with everything that the command line overrides. -/
def override (r : Request) (s : Settings) : Settings :=
  { s with
    directory := r.directory.getD s.directory
    metrics := if r.metrics.isEmpty then s.metrics else r.metrics
    window := r.window.getD s.window }

/-- The settings that the overrides start from. -/
def base (r : Request) (disk : Disk) : Except SettingsError Settings :=
  match r.file with
  | some path => Settings.load disk path
  | none => .ok .standard

def settings (r : Request) (disk : Disk) : Except RequestError Settings :=
  match r.base disk with
  | .error e => .error (.unusable e)
  | .ok s =>
    let s := r.override s
    match s.check with
    | .error i => .error (.invalid i)
    | .ok () => .ok s

end Request
end LoadSweep
