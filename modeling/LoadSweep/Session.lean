import LoadSweep.Chart.Assembly

/-! What a user of the window looks at: the outcomes as they were at the last reload, and which of them is on
screen. -/
namespace LoadSweep

structure Session where
  settings : Settings
  outcomes : List Outcome
  /-- The position of the outcome on screen. -/
  selected : Nat
  showBaselines : Bool
  status : Option String

inductive Action where
  | reload
  /-- Looks for the data sets elsewhere. -/
  | moveTo (directory : String)
  | select (i : Nat)
  | toggleBaselines
  deriving DecidableEq, Repr

namespace Session

/-- Makes all outcomes anew. A selection that is no longer possible becomes the first outcome. -/
def reload (disk : Disk) (s : Session) : Session :=
  let outcomes := s.settings.outcomes disk
  { s with
    outcomes := outcomes
    selected := if outcomes.length ≤ s.selected then 0 else s.selected
    status := Outcome.status? outcomes }

def reloadLog (disk : Disk) (s : Session) : List LogRecord :=
  let outcomes := s.settings.outcomes disk
  s.settings.outcomesLog disk
    ++ [⟨.info, s!"analysed {outcomes.length} metrics from {s.settings.directory} ({Outcome.failures outcomes} failed)"⟩]

/-- A session before its first reload. -/
def idle (settings : Settings) : Session where
  settings := settings
  outcomes := []
  selected := 0
  showBaselines := true
  status := none

def start (disk : Disk) (settings : Settings) : Session := (idle settings).reload disk

def inDirectory (s : Session) (directory : String) : Session :=
  { s with settings := { s.settings with directory := directory } }

def perform (disk : Disk) (s : Session) : Action → Session
  | .reload => s.reload disk
  | .moveTo directory => (s.inDirectory directory).reload disk
  | .select i => { s with selected := i }
  | .toggleBaselines => { s with showBaselines := !s.showBaselines }

def performLog (disk : Disk) (s : Session) : Action → List LogRecord
  | .reload => s.reloadLog disk
  | .moveTo directory => (s.inDirectory directory).reloadLog disk
  | .select _ => []
  | .toggleBaselines => []

def current? (s : Session) : Option Outcome := s.outcomes[s.selected]?

end Session
end LoadSweep
