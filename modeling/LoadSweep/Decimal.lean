/-! A decimal is a whole number of units of a power of ten. -/
namespace LoadSweep

/-- The number `digits · 10 ^ exponent`. -/
structure Decimal where
  digits : Nat
  exponent : Int
  deriving DecidableEq, Repr

namespace Decimal

/-- How many decimal digits a whole number has; zero has one. -/
def digitCount (n : Nat) : Nat := (Nat.toDigits 10 n).length

/-- A list of digits without the zeros at its end, and how many there were. -/
def dropTrailingZeros (ds : List Char) : List Char × Nat :=
  let kept := (ds.reverse.dropWhile (· == '0')).reverse
  (kept, ds.length - kept.length)

/-- The digits from the first to the last that is not zero, and how many of them stand before the point
(a number at most zero counts zeros between the point and the digits). -/
def significant (d : Decimal) : List Char × Int :=
  let ds := Nat.toDigits 10 d.digits
  ((dropTrailingZeros ds).1, ds.length + d.exponent)

/-- Digits with the point after the first `point` of them, filled up with zeros on either side. Whole numbers
have no point. -/
def place (ds : List Char) (point : Int) : List Char :=
  if point ≤ 0 then
    ['0', '.'] ++ List.replicate (-point).toNat '0' ++ ds
  else if ds.length ≤ point.toNat then
    ds ++ List.replicate (point.toNat - ds.length) '0'
  else
    ds.take point.toNat ++ '.' :: ds.drop point.toNat

/-- A positive decimal without an exponent and without zeros at the end of its fraction. -/
def positional (d : Decimal) : List Char := place d.significant.1 d.significant.2

end Decimal
end LoadSweep
