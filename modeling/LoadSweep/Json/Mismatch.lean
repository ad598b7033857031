import LoadSweep.Decimal.Written
import LoadSweep.Json.Fault
import LoadSweep.Text.Escaped

/-! A text is refused because it is no JSON, or because it is JSON of another shape than asked for. -/
namespace LoadSweep.Json

/-- What stands where something else was expected. -/
inductive Found where
  | null
  | bool (b : Bool)
  | integer (n : Int)
  | real (x : Float)
  | text (s : String)
  | array
  | object
  /-- A case without content. -/
  | bareCase
  deriving DecidableEq, Repr

def Found.message : Found → String
  | null => "null"
  | bool b => s!"boolean `{b}`"
  | integer n => s!"integer `{n}`"
  | real x => s!"floating point `{Decimal.pointed x}`"
  | text s => s!"string {Text.quoted s}"
  | array => "sequence"
  | object => "map"
  | bareCase => "unit variant"

inductive Mismatch where
  | wrongType (found : Found) (expected : String)
  | outOfRange (n : Int) (expected : String)
  | wrongLength (n : Nat) (expected : String)
  | missingField (name : String)
  | duplicateField (name : String)
  | unknownCase (name : String) (known : List String)
  /-- None of the forms that `type` may take. -/
  | noForm (type : String)
  | unknownColour (name : String)
  deriving DecidableEq, Repr

/-- The cases that were expected: two are joined by `or`, more are listed. -/
def listCases (known : List String) : String :=
  match known.map fun name => s!"`{name}`" with
  | [a, b] => s!"{a} or {b}"
  | ticked => "one of " ++ ", ".intercalate ticked

def Mismatch.message : Mismatch → String
  | wrongType found expected => s!"invalid type: {found.message}, expected {expected}"
  | outOfRange n expected => s!"invalid value: integer `{n}`, expected {expected}"
  | wrongLength n expected => s!"invalid length {n}, expected {expected}"
  | missingField name => s!"missing field `{name}`"
  | duplicateField name => s!"duplicate field `{name}`"
  | unknownCase name known => s!"unknown variant `{name}`, expected {listCases known}"
  | noForm type => s!"data did not match any variant of untagged enum {type}"
  | unknownColour name => s!"unknown colour name '{name}'"

inductive Refusal where
  | fault (f : Fault)
  | mismatch (m : Mismatch)
  deriving DecidableEq, Repr

end LoadSweep.Json
