import LoadSweep.Json.Numeral
import LoadSweep.Json.Quoted

/-! A tree holds what a text spells up to its first fault, which is then at its right edge. Whether a number or a
string is acceptable is decided only when its value is asked for. -/
namespace LoadSweep.Json

/-- What a value shows at first sight. -/
inductive Head where
  /-- The text ends where a value belongs. -/
  | absent
  | null
  | bool (b : Bool)
  | number (n : Numeral)
  | string (q : Quoted)
  | array
  | object
  /-- A fault inside the value, as it counts when the value is passed over and when it is asked for. -/
  | broken (skimmed asked : Fault)
  deriving DecidableEq, Repr

inductive Ending where
  | closed
  /-- Neither a comma nor the closing brace follows. -/
  | cut (f : Fault)
  /-- No key stands where one belongs. -/
  | noKey (f : Fault)
  deriving DecidableEq, Repr

inductive Node where
  | absent
  /-- The word `null`, up to a fault in it. -/
  | null (fault : Option Fault)
  | bool (b : Bool)
  | number (n : Numeral)
  | string (q : Quoted)
  /-- Items, and the fault that stands where a comma or the closing bracket belongs. -/
  | array (items : List Node) (cut : Option Fault)
  | object (members : List (Quoted × Node)) (ending : Ending)
  | broken (skimmed asked : Fault)

def Ending.fault : Ending → Option Fault
  | closed => none
  | cut f => some f
  | noKey f => some f

namespace Node

def head : Node → Head
  | absent => .absent
  | null none => .null
  | null (some f) => .broken f f
  | bool b => .bool b
  | number n => .number n
  | string q => .string q
  | array .. => .array
  | object .. => .object
  | broken skimmed asked => .broken skimmed asked

mutual

/-- The first fault of a value that is passed over. -/
def skim : Node → Option Fault
  | absent => some .cutShort
  | null fault => fault
  | string q => q.fault
  | array items cut => (skimItems items).or cut
  | object members ending => (skimMembers members).or ending.fault
  | broken skimmed _ => some skimmed
  | _ => none

def skimItems : List Node → Option Fault
  | [] => none
  | n :: ns => n.skim.or (skimItems ns)

def skimMembers : List (Quoted × Node) → Option Fault
  | [] => none
  | (key, n) :: ms => key.fault.or (n.skim.or (skimMembers ms))

end

mutual

/-- The first fault of a value all of whose parts are asked for, when it may nest `depth` deep. -/
def probe (depth : Nat) : Node → Option Fault
  | absent => some .cutShort
  | null fault => fault
  | number n => match n.value with
    | .error f => some f
    | .ok _ => none
  | string q => match q.text with
    | .error f => some f
    | .ok _ => none
  | array items cut =>
    if depth = 0 then some .malformed else (probeItems (depth - 1) items).or cut
  | object members ending =>
    if depth = 0 then some .malformed else (probeMembers (depth - 1) members).or ending.fault
  | broken _ asked => some asked
  | _ => none

def probeItems (depth : Nat) : List Node → Option Fault
  | [] => none
  | n :: ns => (n.probe depth).or (probeItems depth ns)

def probeMembers (depth : Nat) : List (Quoted × Node) → Option Fault
  | [] => none
  | (key, n) :: ms => match key.text with
    | .error f => some f
    | .ok _ => (n.probe depth).or (probeMembers depth ms)

end

end Node

/-- A text: one value, and whether more than blanks follow it. -/
structure Document where
  root : Node
  trailing : Bool

end LoadSweep.Json
