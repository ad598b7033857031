import LoadSweep.CommandLine
import LoadSweep.Sample.DataSet

/-! The generator writes the data sets of all loads into one directory. -/
namespace LoadSweep.Sample

structure Request where
  directory : String := "."
  runs : UInt64 := 5
  seed : UInt64 := 42
  deriving DecidableEq, Repr

namespace Request
open CommandLine

def directorySlot : Slot Request where
  name := "out-dir"
  store value r := return { r with directory := ← path value }

def runsSlot : Slot Request where
  name := "runs"
  store value r := return { r with runs := ← word value }

def seedSlot : Slot Request where
  name := "seed"
  store value r := return { r with seed := ← word value }

def grammar : Grammar Request where
  long := [("runs", .value runsSlot), ("seed", .value seedSlot), ("help", .help)]
  short := [('h', .help)]
  positional := [directorySlot]

def parse (args : List String) : Except Stop Request := CommandLine.parse grammar {} args

def usage : String := "usage: generate [--runs RUNS] [--seed SEED] [OUT_DIR]"

/-- What is printed when all data sets are written. -/
def summary (r : Request) : String :=
  s!"Wrote {loads.length} load levels ({sizes.length} sample sizes x {r.runs} runs) to {r.directory}\n"

def dataSets (r : Request) : List DataSet :=
  (drawLoads r.directory r.runs.toNat loads (Stream.ofSeed r.seed)).1

/-- Makes the directory and writes the data sets of all loads. -/
def write (r : Request) (files : Files) : Written :=
  let made := files.makeDirectory r.directory
  if made.arrived then writeLoads made.files r.directory r.runs.toNat (Stream.ofSeed r.seed) loads
  else ⟨made.files, [], .error (.notCreated r.directory)⟩

end Request

structure Finished where
  status : Nat
  output : String
  files : Files

/-- A run of the generator: the status is 0, or 1 if a data set cannot be written, or 2 for other arguments than
those of the grammar. -/
def run (files : Files) (args : List String) : Finished :=
  match Request.parse args with
  | .error stop => ⟨stop.status, "", files⟩
  | .ok r =>
    let written := r.write files
    match written.outcome with
    | .error _ => ⟨1, "", written.files⟩
    | .ok _ => ⟨0, r.summary, written.files⟩

end LoadSweep.Sample
