/-! A number is a sign, digits with at most one point, at least one digit, and a power of ten after `e`; or, in any
case of letters, `inf`, `infinity` or `nan`. It stands for the nearest double. -/
namespace LoadSweep.Decimal

def valueOf (ds : List Char) : Nat := ds.foldl (fun n c => n * 10 + (c.toNat - 48)) 0

def splitSign : List Char → Bool × List Char
  | '-' :: cs => (true, cs)
  | '+' :: cs => (false, cs)
  | cs => (false, cs)

/-- The whole number that a text of digits, at least one, spells. -/
def natural? (cs : List Char) : Option Nat :=
  if cs.isEmpty || !cs.all Char.isDigit then none else some (valueOf cs)

/-- The power of ten at the end of a number: nothing, or `e` and a signed whole number. -/
def exponent? : List Char → Option Int
  | [] => some 0
  | c :: cs =>
    if c == 'e' || c == 'E' then
      let (negative, ds) := splitSign cs
      (natural? ds).map fun n => if negative then -(n : Int) else n
    else none

/-- The nearest double to `digits · 10 ^ exponent`. -/
def nearest (digits : Nat) (exponent : Int) : Float :=
  Float.ofScientific digits (exponent < 0) exponent.natAbs

/-- A text of digits with at most one point and a power of ten. -/
def unsigned? (cs : List Char) : Option Float :=
  let whole := cs.takeWhile Char.isDigit
  let rest := cs.dropWhile Char.isDigit
  let (fraction, rest) := match rest with
    | '.' :: rest => (rest.takeWhile Char.isDigit, rest.dropWhile Char.isDigit)
    | _ => ([], rest)
  if whole.isEmpty && fraction.isEmpty then none
  else (exponent? rest).map fun e => nearest (valueOf (whole ++ fraction)) (e - fraction.length)

/-- The words for values that are not finite. -/
def special? (cs : List Char) : Option Float :=
  let word := String.ofList (cs.map Char.toLower)
  if word = "inf" ∨ word = "infinity" then some (1.0 / 0.0)
  else if word = "nan" then some (0.0 / 0.0)
  else none

def read? (cs : List Char) : Option Float :=
  let (negative, cs) := splitSign cs
  let magnitude := match special? cs with
    | some x => some x
    | none => unsigned? cs
  magnitude.map fun x => if negative then -x else x

end LoadSweep.Decimal
