import LoadSweep.Decimal.Reader

/-! Arguments are read from the left. `--name`, `--name=value` and `-n`, `-nvalue`, `-n=value` are options, `--` ends
them, and all else is the value of the option before it or a positional argument. A value is looked at only when the
next option or positional argument begins, or at the end. -/
namespace LoadSweep.CommandLine

inductive Stop where
  /-- An option that does not exist, or one positional argument too many. -/
  | unknownArgument
  /-- A value for an option that takes none. -/
  | unwantedValue
  /-- A value that is missing, empty or not among those possible. -/
  | invalidValue
  /-- A value that is no number of the kind in question. -/
  | malformedValue
  /-- An option given twice that counts only once. -/
  | repeated
  | helpAsked
  | versionAsked
  deriving DecidableEq, Repr

/-- The exit status of a program that stops here: asking for help is no fault. -/
def Stop.status : Stop → Nat
  | helpAsked => 0
  | versionAsked => 0
  | _ => 2

structure Slot (σ : Type) where
  name : String
  repeatable : Bool := false
  store : String → σ → Except Stop σ

inductive Switch (σ : Type) where
  | help
  | version
  | flag (name : String) (mark : σ → σ)
  | value (slot : Slot σ)

/-- The options by their long and short names, and the positional arguments. -/
structure Grammar (σ : Type) where
  long : List (String × Switch σ)
  short : List (Char × Switch σ)
  positional : List (Slot σ) := []

structure Progress (σ : Type) where
  state : σ
  /-- The options and positional arguments that have been stored. -/
  given : List String
  /-- A place whose value is still to be stored, or even to be read. -/
  pending : Option (Slot σ × Option String)
  /-- The positional arguments to come. -/
  positional : List (Slot σ)

variable {σ : Type}

namespace Progress

def settle (p : Progress σ) : Except Stop (Progress σ) :=
  match p.pending with
  | none => .ok p
  | some (_, none) => .error .invalidValue
  | some (slot, some value) =>
    if p.given.contains slot.name && !slot.repeatable then .error .repeated
    else do
      let state ← slot.store value p.state
      return { p with state := state, given := slot.name :: p.given, pending := none }

def setFlag (p : Progress σ) (name : String) (mark : σ → σ) : Except Stop (Progress σ) :=
  if p.given.contains name then .error .repeated
  else .ok { p with state := mark p.state, given := name :: p.given }

/-- Begins an option, with a value if one is attached to its name. -/
def begin (p : Progress σ) : Switch σ → Option String → Except Stop (Progress σ)
  | .value slot, none => return { ← p.settle with pending := some (slot, none) }
  | .value slot, some value => do
    let p ← p.settle
    settle { p with pending := some (slot, some value) }
  | _, some _ => .error .unwantedValue
  | .help, none => do
    let _ ← p.settle
    throw .helpAsked
  | .version, none => do
    let _ ← p.settle
    throw .versionAsked
  | .flag name mark, none => do
    let p ← p.settle
    p.setFlag name mark

def place (p : Progress σ) (arg : String) : Except Stop (Progress σ) :=
  match p.positional with
  | [] => .error .unknownArgument
  | slot :: rest => return { ← p.settle with pending := some (slot, some arg), positional := rest }

/-- Reads what stands behind two dashes. -/
def readLong (g : Grammar σ) (p : Progress σ) (body : List Char) : Except Stop (Progress σ) :=
  let name := body.takeWhile (· != '=')
  match body.dropWhile (· != '='), g.long.lookup (String.ofList name) with
  | _, none => .error .unknownArgument
  | [], some switch => p.begin switch none
  | _ :: value, some switch => p.begin switch (some (String.ofList value))

/-- The value behind a short name, without the sign between them. -/
def attached? : List Char → Option String
  | [] => none
  | '=' :: value => some (String.ofList value)
  | value => some (String.ofList value)

/-- Reads what stands behind a single dash: short names, the last of which may have a value. -/
def readShort (g : Grammar σ) (p : Progress σ) : List Char → Except Stop (Progress σ)
  | [] => .ok p
  | c :: rest =>
    match g.short.lookup c with
    | none => .error .unknownArgument
    | some (.value slot) => p.begin (.value slot) (attached? rest)
    | some switch => do
      let p ← p.begin switch none
      readShort g p rest

/-- Reads an argument that is no option. -/
def readPlain (p : Progress σ) (arg : String) : Except Stop (Progress σ) :=
  match p.pending with
  | some (slot, none) => .ok { p with pending := some (slot, some arg) }
  | _ => p.place arg

def read (g : Grammar σ) (p : Progress σ) (arg : String) : Except Stop (Progress σ) :=
  match arg.toList with
  | '-' :: '-' :: body => p.readLong g body
  | '-' :: c :: rest => p.readShort g (c :: rest)
  | _ => p.readPlain arg

end Progress

/-- Reads the arguments behind `--`, all of which are positional. -/
def readPlaces (p : Progress σ) : List String → Except Stop (Progress σ)
  | [] => .ok p
  | arg :: args => do
    let p ← p.place arg
    readPlaces p args

def readAll (g : Grammar σ) (p : Progress σ) : List String → Except Stop (Progress σ)
  | [] => .ok p
  | arg :: args =>
    if arg = "--" then readPlaces p args
    else do
      let p ← p.read g arg
      readAll g p args

/-- What a command line asks for, given what it asks for without arguments. -/
def parse (g : Grammar σ) (state : σ) (args : List String) : Except Stop σ := do
  let p ← readAll g ⟨state, [], none, g.positional⟩ args
  return (← p.settle).state

/-- A path, which is never empty. -/
def path (value : String) : Except Stop String := if value.isEmpty then .error .invalidValue else .ok value

def choice {α : Type} (names : List (String × α)) (value : String) : Except Stop α :=
  match names.lookup value with
  | some a => .ok a
  | none => .error .invalidValue

/-- A number written in decimal digits, perhaps with a plus sign, that 64 bits hold. -/
def word (value : String) : Except Stop UInt64 :=
  let digits := match value.toList with
    | '+' :: ds => ds
    | ds => ds
  match Decimal.natural? digits with
  | some n => if n < UInt64.size then .ok n.toUInt64 else .error .malformedValue
  | none => .error .malformedValue

end LoadSweep.CommandLine
