import LoadSweep.Json.Fault

/-! A number without point and exponent that fits into 64 bits is an integer. Every other number is a double: the
digits that fit into 64 bits, scaled by one power of ten. Numbers beyond the doubles are malformed. -/
namespace LoadSweep.Json

structure Numeral where
  negative : Bool
  whole : List Nat
  fraction : Option (List Nat)
  /-- Is the exponent negative, and its digits. -/
  exponent : Option (Bool × List Nat)
  deriving DecidableEq, Repr

inductive Number where
  | integer (n : Int)
  | real (x : Float)
  deriving DecidableEq, Repr

namespace Numeral

/-- Appends digits to a number as long as it fits into 64 bits, and leaves the other digits. -/
def absorb (n : Nat) : List Nat → Nat × List Nat
  | [] => (n, [])
  | d :: ds => if n * 10 + d < UInt64.size then absorb (n * 10 + d) ds else (n, d :: ds)

def powerOfTen (e : Nat) : Float := Float.ofScientific 1 false e

/-- Divides by a power of ten, by `10 ^ 308` at a time while more is left. -/
def shrink (x : Float) (e : Nat) : Float :=
  if e ≤ 308 then x / powerOfTen e
  else if x == 0 then x
  else shrink (x / powerOfTen 308) (e - 308)
termination_by e
decreasing_by omega

/-- A number scaled by a power of ten, unless it leaves the doubles. -/
def scale (n : Nat) (e : Int) : Except Fault Float :=
  if e < 0 then .ok (shrink (Float.ofNat n) e.natAbs)
  else if e ≤ 308 then
    let x := Float.ofNat n * powerOfTen e.toNat
    if x.isInf then .error .malformed else .ok x
  else if n = 0 then .ok 0
  else .error .malformed

def digitsValue (ds : List Nat) : Nat := ds.foldl (fun n d => n * 10 + d) 0

/-- Scales by a written power of ten as well. Past 32 bits it is taken for infinite. -/
def scaleBy (n : Nat) (e : Int) : Option (Bool × List Nat) → Except Fault Float
  | none => scale n e
  | some (negative, ds) =>
    let written : Int := digitsValue ds
    if written < Nat.pow 2 31 then scale n (if negative then e - written else e + written)
    else if n = 0 ∨ negative then .ok 0
    else .error .malformed

def value (t : Numeral) : Except Fault Number :=
  let (n, dropped) := absorb 0 t.whole
  let signed (x : Float) : Float := if t.negative then -x else x
  if t.fraction.isNone ∧ t.exponent.isNone ∧ dropped.isEmpty then
    if !t.negative then .ok (.integer n)
    else if n = 0 ∨ Nat.pow 2 63 < n then .ok (.real (-Float.ofNat n))
    else .ok (.integer (-n))
  else
    let fraction := t.fraction.getD []
    let (n, left) := absorb n fraction
    (scaleBy n (dropped.length - (fraction.length - left.length : Nat)) t.exponent).map (.real <| signed ·)

end Numeral
end LoadSweep.Json
