import LoadSweep.Metric.Derive
import LoadSweep.Sample.Stream

/-! Counters as a run could have left them, by simple formulas with some jitter. The baseline sends everything to
everyone; in the swept variant each node talks to a sample of the others, so it needs less of the network and takes
longer. -/
namespace LoadSweep.Sample

/-- The counters of one run: blocks ordered, latency in total and bytes sent. -/
structure Run where
  blocks : Float
  latency : Float
  bytes : Float
  deriving DecidableEq, Repr

def loads : List UInt32 := [2000, 3000, 4000, 5000, 6000]

def sizes : List UInt32 := [5, 10, 20, 40, 60, 80]

/-- How many nodes there are to sample from. -/
def nodes : Float := 100

/-- The bytes that count as one unit of load: `saturationMebibits` undone. -/
def bytesPerUnit : Float := 1024 * 1024 / 8000

def baselineRun (load : UInt32) : Draw Run := do
  let load := load.toFloat
  let thousands := load / 1000
  let blocks := 6000 / (1 + 0.15 * thousands) * defaultWindow * (← Draw.jitter 0.03)
  let latency := (1.2 + 0.35 * thousands) * defaultWindow * (← Draw.jitter 0.05)
  let bytes := load * 0.9 * bytesPerUnit * (← Draw.jitter 0.02)
  return ⟨blocks, latency, bytes⟩

def sweptRun (load size : UInt32) : Draw Run := do
  let load := load.toFloat
  let size := size.toFloat
  let thousands := load / 1000
  let share := size / nodes
  let blocks := 6000 / (1 + 0.08 * thousands) * (0.85 + 0.15 * share) * defaultWindow * (← Draw.jitter 0.03)
  let latency := (1.2 + 0.2 * thousands + 1.5 / (1 + size / 10)) * defaultWindow * (← Draw.jitter 0.05)
  let bytes := load * (0.15 + 0.75 * share) * bytesPerUnit * (← Draw.jitter 0.02)
  return ⟨blocks, latency, bytes⟩

/-- `runs` runs of the swept variant for each sample size. -/
def sweptRuns (load : UInt32) (runs : Nat) : List UInt32 → Draw (List (UInt32 × Run))
  | [] => return []
  | size :: sizes => do
    let rs ← Draw.times runs (sweptRun load size)
    let others ← sweptRuns load runs sizes
    return rs.map (size, ·) ++ others

def baselineRuns (load : UInt32) (runs : Nat) : Draw (List Run) := Draw.times runs (baselineRun load)

end LoadSweep.Sample
