import LoadSweep.Files
import LoadSweep.Settings.Shape

/-! Settings are read from a file and checked before they are used. -/
namespace LoadSweep

inductive SettingsError where
  /-- There is no such file, or it is not UTF-8. -/
  | unreadable (path : String)
  | refused (path : String) (r : Json.Refusal)
  | invalid (i : Settings.Invalid)
  deriving DecidableEq, Repr

def SettingsError.message : SettingsError → String
  | unreadable path => s!"reading config {path}"
  | refused path _ => s!"parsing config {path}"
  | invalid i => i.message

/-- The text of a source that can be read to its end and is UTF-8. -/
def Source.utf8? (s : Source) : Option (List UInt8) :=
  if s.broken || (Text.Utf8.decode s.bytes).isNone then none else some s.bytes

namespace Settings

def load (disk : Disk) (path : String) : Except SettingsError Settings :=
  match (disk path).bind Source.utf8? with
  | none => .error (.unreadable path)
  | some bytes =>
    match ofJson bytes with
    | .error r => .error (.refused path r)
    | .ok s => match s.check with
      | .error i => .error (.invalid i)
      | .ok () => .ok s

end Settings
end LoadSweep
