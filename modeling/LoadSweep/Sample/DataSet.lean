import LoadSweep.Sample.Run
import LoadSweep.Settings
import LoadSweep.Files
import LoadSweep.Text.Utf8
import LoadSweep.Trace

/-! Runs as the lines of data sets, and the data sets as files. What was written before a failure stays written. -/
namespace LoadSweep.Sample

namespace Run

/-- The counters as whole numbers. -/
def fields (r : Run) : List String := [Decimal.fixed 0 r.blocks, Decimal.fixed 0 r.latency, Decimal.fixed 0 r.bytes]

end Run

/-- Fields with single spaces between them. -/
def line (fields : List String) : String := " ".intercalate fields ++ "\n"

def sweptText (rs : List (UInt32 × Run)) : String :=
  String.join (rs.map fun r => line (toString r.1 :: r.2.fields))

def baselineText (rs : List Run) : String := String.join (rs.map fun r => line r.fields)

/-- The standard settings for data sets in a directory. -/
def settings (directory : String) : Settings := { Settings.standard with directory := directory }

def sweptPath (directory : String) (load : UInt32) : String :=
  Path.join directory s!"sparse_bullshark_{load}.csv"

def baselinePath (directory : String) (load : UInt32) : String := Path.join directory s!"bullshark_{load}.csv"

structure DataSet where
  path : String
  text : String
  deriving DecidableEq, Repr

/-- The files with a data set among them, if its file can be made. -/
def DataSet.write (d : DataSet) (files : Files) : Option Files := files.write d.path (Text.Utf8.bytesOf d.text)

/-- The swept and the baseline data set of a load. -/
def drawLoad (directory : String) (load : UInt32) (runs : Nat) : Draw (DataSet × DataSet) := do
  let swept ← sweptRuns load runs sizes
  let baseline ← baselineRuns load runs
  return (⟨sweptPath directory load, sweptText swept⟩, ⟨baselinePath directory load, baselineText baseline⟩)

def drawLoads (directory : String) (runs : Nat) : List UInt32 → Draw (List DataSet)
  | [] => return []
  | load :: loads => do
    let (swept, baseline) ← drawLoad directory load runs
    let others ← drawLoads directory runs loads
    return swept :: baseline :: others

inductive WriteError where
  | notCreated (path : String)
  deriving DecidableEq, Repr

def WriteError.message : WriteError → String
  | notCreated path => s!"creating {path}"

/-- What writing leaves behind: files, log records, and the stream behind what was drawn. -/
structure Written where
  files : Files
  log : List LogRecord
  outcome : Except WriteError Stream

def writeLoad (files : Files) (directory : String) (load : UInt32) (runs : Nat) (s : Stream) : Written :=
  let ((swept, baseline), s) := drawLoad directory load runs s
  match swept.write files with
  | none => ⟨files, [], .error (.notCreated swept.path)⟩
  | some files => match baseline.write files with
    | none => ⟨files, [], .error (.notCreated baseline.path)⟩
    | some files => ⟨files, [⟨.info, s!"wrote {swept.path} and {baseline.path}"⟩], .ok s⟩

/-- Goes on with the files and the stream that are left, unless writing failed. -/
def Written.andThen (first : Written) (next : Files → Stream → Written) : Written :=
  match first.outcome with
  | .error _ => first
  | .ok s =>
    let others := next first.files s
    { others with log := first.log ++ others.log }

/-- Writes the data sets of several loads, up to the first failure. -/
def writeLoads (files : Files) (directory : String) (runs : Nat) (s : Stream) : List UInt32 → Written
  | [] => ⟨files, [], .ok s⟩
  | load :: loads =>
    (writeLoad files directory load runs s).andThen fun files s => writeLoads files directory runs s loads

end LoadSweep.Sample
