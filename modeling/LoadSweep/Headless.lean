import LoadSweep.Chart.Assembly

/-! The reports of all charts are printed; each failure is named, and the first of them decides how the run ends. -/
namespace LoadSweep

inductive Ending where
  | done
  | failed (message : String)
  /-- A report was too wide. -/
  | stopped (e : TooWide)
  deriving DecidableEq, Repr

structure Printed where
  output : String
  errors : String
  ending : Ending
  deriving DecidableEq, Repr

/-- A run that prints something first. -/
def Printed.after (p : Printed) (output errors : String) : Printed :=
  { p with output := output ++ p.output, errors := errors ++ p.errors }

namespace Outcome

/-- How outcomes make a run end that has printed them all. -/
def ending (os : List Outcome) : Ending :=
  match firstFailure? os with
  | none => .done
  | some (m, e) => .failed s!"{failures os} of {os.length} charts failed; first: {m.name}: {e.message}"

/-- Prints outcomes one by one. A run that has printed them all ends as `last`; a report that is too wide ends it at
once. -/
def printEach (last : Ending) : List Outcome → Printed
  | [] => ⟨"", "", last⟩
  | o :: os =>
    match o.result with
    | .error e => (printEach last os).after "" s!"{o.metric.name}: {e.message}\n"
    | .ok chart =>
      match chart.report with
      | .error e => ⟨"", "", .stopped e⟩
      | .ok text => (printEach last os).after (text ++ "\n") ""

def print (os : List Outcome) : Printed := printEach (ending os) os

end Outcome

def Settings.runHeadless (s : Settings) (disk : Disk) : Printed := Outcome.print (s.outcomes disk)

end LoadSweep
