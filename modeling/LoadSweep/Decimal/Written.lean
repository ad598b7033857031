import LoadSweep.Decimal.Shortest

/-! Three written forms: `plain` (shortest, never an exponent), `pointed` (shortest, always a point or an exponent)
and `fixed` (a given number of places, rounded from the exact value, a half to the even neighbour). -/
namespace LoadSweep.Decimal

open Float.Model (UnpackedFloat)

/-- A double by its sign, mantissa and exponent. -/
def unpack (x : Float) : UnpackedFloat := UnpackedFloat.unpack .binary64 x.toBits.toBitVec

/-- The minus of a negative number, `-0.0` included. -/
def signText : UnpackedFloat.Sign → List Char
  | .negative => ['-']
  | .positive => []

/-- Writes a double whose finite and nonzero magnitudes `digits` writes; `zero` is the text of zero. -/
def write (zero : List Char) (digits : Nat → Int → List Char) (x : Float) : String :=
  String.ofList <| match unpack x with
    | .notANumber => ['N', 'a', 'N']
    | .infinity s => signText s ++ ['i', 'n', 'f']
    | .zero s => signText s ++ zero
    | .finite s m e _ => signText s ++ digits m e

/-- The shortest decimal that reads back, without an exponent and without a superfluous point. -/
def plain (x : Float) : String := write ['0'] (fun m e => (shortest .upward m e).positional) x

/-- Digits with the point after the first of them and the power of ten spelled out. -/
def scientific (ds : List Char) (exponent : Int) : List Char :=
  let sign := if exponent < 0 then '-' else '+'
  ds.take 1 ++ (if ds.length ≤ 1 then [] else '.' :: ds.drop 1)
    ++ 'e' :: sign :: Nat.toDigits 10 exponent.natAbs

/-- A positive decimal, positional from `0.00001` to below `10 ^ 16`, else with an exponent. -/
def withPoint (d : Decimal) : List Char :=
  let (ds, point) := d.significant
  if -5 < point ∧ point ≤ 16 then
    place ds point ++ if ds.length ≤ point then ['.', '0'] else []
  else scientific ds (point - 1)

/-- The shortest decimal that reads back, always with a point or an exponent. -/
def pointed (x : Float) : String := write ['0', '.', '0'] (fun m e => (shortest .even m e).withPoint) x

/-- The quotient rounded to a whole number, a half to the even one. -/
def roundDiv (n d : Nat) : Nat :=
  let q := n / d
  let r := n % d
  if 2 * r < d then q else if d < 2 * r then q + 1 else if q % 2 = 0 then q else q + 1

/-- A whole number of units in the last of `places` decimal places. -/
def withPlaces (places units : Nat) : List Char :=
  let ds := Nat.toDigits 10 units
  let ds := List.replicate (places + 1 - ds.length) '0' ++ ds
  if places = 0 then ds else ds.take (ds.length - places) ++ '.' :: ds.drop (ds.length - places)

/-- `mantissa · 2 ^ exponent` in units of the last of `places` decimal places. -/
def unitsOf (places mantissa : Nat) (exponent : Int) : Nat :=
  roundDiv (mantissa * Nat.pow 2 exponent.toNat * Nat.pow 10 places) (Nat.pow 2 (-exponent).toNat)

/-- A double with exactly `places` decimal places. -/
def fixed (places : Nat) (x : Float) : String :=
  write (withPlaces places 0) (fun m e => withPlaces places (unitsOf places m e)) x

end LoadSweep.Decimal
