import LoadSweep.Json.Node

/-! A reader takes the bytes that are left and gives a value and the bytes after it, or no bytes once it has met a
fault. Nothing is read past a fault. -/
namespace LoadSweep.Json

/-- The bytes after a value; none after a fault. -/
abbrev Rest := Option (List UInt8)

def isByte (c : Char) (b : UInt8) : Bool := b.toNat == c.toNat

def isSpace (b : UInt8) : Bool := b == 0x20 || b == 0x0A || b == 0x09 || b == 0x0D

def skipSpace (bs : List UInt8) : List UInt8 := bs.dropWhile isSpace

def isDigit (b : UInt8) : Bool := 48 ≤ b && b ≤ 57

/-- Something that no value begins or goes on with. -/
def wrong : Node := .broken .malformed .malformed

/-- Letters of a word: the fault in them, and the bytes after them. -/
def readWord : List Char → List UInt8 → Option Fault × Rest
  | [], bs => (none, some bs)
  | _ :: _, [] => (some .cutShort, none)
  | c :: cs, b :: bs => if isByte c b then readWord cs bs else (some .malformed, none)

def readNull (bs : List UInt8) : Node × Rest :=
  let (fault, rest) := readWord ['u', 'l', 'l'] bs
  (.null fault, rest)

/-- The word `true` or `false`, after its first letter. -/
def readBool (b : Bool) (letters : List Char) (bs : List UInt8) : Node × Rest :=
  match readWord letters bs with
  | (none, rest) => (.bool b, rest)
  | (some f, rest) => (.broken f f, rest)

/-- Digits, at least one. A number whose digits are missing at the end of the text is cut short only for one who
asks for it. -/
def readDigits (bs : List UInt8) : Except Node (List Nat × List UInt8) :=
  match bs.takeWhile isDigit with
  | [] => .error (if bs.isEmpty then .broken .malformed .cutShort else wrong)
  | ds => .ok (ds.map (·.toNat - 48), bs.dropWhile isDigit)

def readFraction : List UInt8 → Except Node (Option (List Nat) × List UInt8)
  | [] => .ok (none, [])
  | b :: bs => if isByte '.' b then (readDigits bs).map fun r => (some r.1, r.2) else .ok (none, b :: bs)

/-- The sign of an exponent, and the bytes after it. -/
def readSign : List UInt8 → Bool × List UInt8
  | [] => (false, [])
  | b :: bs =>
    if isByte '-' b then (true, bs) else if isByte '+' b then (false, bs) else (false, b :: bs)

def readExponent : List UInt8 → Except Node (Option (Bool × List Nat) × List UInt8)
  | [] => .ok (none, [])
  | b :: bs =>
    if isByte 'e' b || isByte 'E' b then
      let (negative, bs) := readSign bs
      (readDigits bs).map fun r => (some (negative, r.1), r.2)
    else .ok (none, b :: bs)

/-- A number after its sign. A zero is not followed by further digits. -/
def readNumeral (negative : Bool) (bs : List UInt8) : Except Node (Numeral × List UInt8) := do
  let (whole, bs) ← readDigits bs
  if whole.head? = some 0 ∧ 1 < whole.length then throw wrong
  let (fraction, bs) ← readFraction bs
  let (exponent, bs) ← readExponent bs
  return (⟨negative, whole, fraction, exponent⟩, bs)

def readNumber (negative : Bool) (bs : List UInt8) : Node × Rest :=
  match readNumeral negative bs with
  | .ok (n, bs) => (.number n, some bs)
  | .error n => (n, none)

def hexDigit? (b : UInt8) : Option Nat :=
  if isDigit b then some (b.toNat - 48)
  else if 65 ≤ b && b ≤ 70 then some (b.toNat - 55)
  else if 97 ≤ b && b ≤ 102 then some (b.toNat - 87)
  else none

def hexUnit? (a b c d : UInt8) : Option Nat := do
  return (((← hexDigit? a) * 16 + (← hexDigit? b)) * 16 + (← hexDigit? c)) * 16 + (← hexDigit? d)

/-- The characters that an escape of one letter stands for. -/
def escapes : List (Char × Char) :=
  [('"', '"'), ('\\', '\\'), ('/', '/'), ('b', '\x08'), ('f', '\x0c'), ('n', '\n'), ('r', '\r'), ('t', '\t')]

def consPiece (p : Piece) (r : Quoted × Rest) : Quoted × Rest := (⟨p :: r.1.pieces, r.1.fault⟩, r.2)

def stopQuoted (f : Fault) : Quoted × Rest := (⟨[], some f⟩, none)

def readQuoted : List UInt8 → Quoted × Rest
  | [] => stopQuoted .cutShort
  | b :: bs =>
    if isByte '"' b then (⟨[], none⟩, some bs)
    else if isByte '\\' b then
      match bs with
      | [] => stopQuoted .cutShort
      | e :: bs =>
        if isByte 'u' e then
          match bs with
          | a :: b :: c :: d :: bs =>
            match hexUnit? a b c d with
            | some n => consPiece (.unit n) (readQuoted bs)
            | none => stopQuoted .malformed
          | _ => stopQuoted .cutShort
        else match escapes.find? fun p => isByte p.1 e with
          | some p => consPiece (.char p.2) (readQuoted bs)
          | none => stopQuoted .malformed
    else if b < 0x20 then stopQuoted .malformed
    else consPiece (.byte b) (readQuoted bs)

/-- A value that is no string, array or object and begins with `b`. -/
def readScalar (b : UInt8) (bs : List UInt8) : Node × Rest :=
  if isByte 'n' b then readNull bs
  else if isByte 't' b then readBool true ['r', 'u', 'e'] bs
  else if isByte 'f' b then readBool false ['a', 'l', 's', 'e'] bs
  else if isByte '-' b then readNumber true bs
  else if isDigit b then readNumber false (b :: bs)
  else (wrong, none)

mutual

/-- A value. The fuel bounds the values and commas that are met. -/
def readValue : (fuel : Nat) → List UInt8 → Node × Rest
  | 0, _ => (.absent, none)
  | fuel + 1, bs =>
    match skipSpace bs with
    | [] => (.absent, none)
    | b :: bs =>
      if isByte '"' b then
        let (q, rest) := readQuoted bs
        (.string q, rest)
      else if isByte '[' b then
        match skipSpace bs with
        | [] => (.array [] (some .cutShort), none)
        | b :: bs =>
          if isByte ']' b then (.array [] none, some bs)
          else
            let (items, cut, rest) := readItems fuel (b :: bs)
            (.array items cut, rest)
      else if isByte '{' b then
        match skipSpace bs with
        | [] => (.object [] (.noKey .cutShort), none)
        | b :: bs =>
          if isByte '}' b then (.object [] .closed, some bs)
          else
            let (members, ending, rest) := readMembers fuel (b :: bs)
            (.object members ending, rest)
      else readScalar b bs

/-- The items of an array, at least one. -/
def readItems : (fuel : Nat) → List UInt8 → List Node × Option Fault × Rest
  | 0, _ => ([], some .cutShort, none)
  | fuel + 1, bs =>
    match readValue fuel bs with
    | (n, none) => ([n], none, none)
    | (n, some bs) =>
      match skipSpace bs with
      | [] => ([n], some .cutShort, none)
      | b :: bs =>
        if isByte ']' b then ([n], none, some bs)
        else if isByte ',' b then
          let (ns, cut, rest) := readItems fuel bs
          (n :: ns, cut, rest)
        else ([n], some .malformed, none)

/-- The members of an object, at least one. A key that is cut has no value. -/
def readMembers : (fuel : Nat) → List UInt8 → List (Quoted × Node) × Ending × Rest
  | 0, _ => ([], .noKey .cutShort, none)
  | fuel + 1, bs =>
    match skipSpace bs with
    | [] => ([], .noKey .cutShort, none)
    | b :: bs =>
      if isByte '"' b then
        match readQuoted bs with
        | (key, none) => ([(key, .absent)], .closed, none)
        | (key, some bs) =>
          match skipSpace bs with
          | [] => ([(key, .absent)], .closed, none)
          | b :: bs =>
            if isByte ':' b then
              match readValue fuel bs with
              | (n, none) => ([(key, n)], .closed, none)
              | (n, some bs) =>
                match skipSpace bs with
                | [] => ([(key, n)], .cut .cutShort, none)
                | b :: bs =>
                  if isByte '}' b then ([(key, n)], .closed, some bs)
                  else if isByte ',' b then
                    let (members, ending, rest) := readMembers fuel bs
                    ((key, n) :: members, ending, rest)
                  else ([(key, n)], .cut .malformed, none)
            else ([(key, wrong)], .closed, none)
      else ([], .noKey .malformed, none)

end

/-- The document that a text spells. Every value and comma takes a byte, so the fuel suffices. -/
def Document.ofBytes (bs : List UInt8) : Document :=
  match readValue (2 * bs.length + 2) bs with
  | (n, none) => ⟨n, false⟩
  | (n, some rest) => ⟨n, !(skipSpace rest).isEmpty⟩

end LoadSweep.Json
