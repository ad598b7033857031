import LoadSweep.CommandLine.Comparison
import LoadSweep.CommandLine.Sample
import LoadSweep.Headless
import LoadSweep.Window

/-! `compare` and its options compare data sets, `generate` and its options write synthetic ones. Without a screen to
draw on, the window is shown by its texts. -/
namespace LoadSweep.Program

def readSource (path : String) : IO (Option Source) := do
  try
    return some { bytes := (← IO.FS.readBinFile path).toList }
  catch _ => return none

/-- The files at some paths as they are now. -/
def readDisk (paths : List String) : IO Disk := do
  let found ← paths.mapM fun path => return (path, ← readSource path)
  return fun path => (found.lookup path).join

def stop (s : CommandLine.Stop) (usage : String) : IO UInt32 := do
  IO.eprintln usage
  return s.status.toUInt32

def showTexts (s : Session) : IO Unit := do
  for text in s.topTexts ++ s.sideTexts ++ s.plotTexts do
    IO.println text

def compare (args : List String) : IO UInt32 := do
  match Request.parse args with
  | .error s => stop s Request.usage
  | .ok r =>
    match r.settings (← readDisk r.file.toList) with
    | .error e =>
      IO.eprintln s!"Error: {e.chain}"
      return 1
    | .ok s =>
      let disk ← readDisk (s.levels.flatMap fun l => [s.sweptPath l, s.baselinePath l])
      if r.headless then
        let printed := s.runHeadless disk
        IO.print printed.output
        IO.eprint printed.errors
        match printed.ending with
        | .done => return 0
        | .failed message =>
          IO.eprintln s!"Error: {message}"
          return 1
        | .stopped e =>
          IO.eprintln e.message
          return 101
      else
        showTexts (Session.start disk s)
        return 0

def generate (args : List String) : IO UInt32 := do
  match Sample.Request.parse args with
  | .error s => stop s Sample.Request.usage
  | .ok r =>
    IO.FS.createDirAll r.directory
    for d in r.dataSets do
      IO.FS.writeFile d.path d.text
    IO.print r.summary
    return 0

end LoadSweep.Program

def main : List String → IO UInt32
  | "compare" :: args => LoadSweep.Program.compare args
  | "generate" :: args => LoadSweep.Program.generate args
  | _ => do
    IO.eprintln s!"{LoadSweep.Request.usage}\n{LoadSweep.Sample.Request.usage}"
    return 2
