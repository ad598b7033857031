import LoadSweep.Decimal

/-! A double stands for every real number that rounds to it. Of the decimals among those, `shortest` takes one with
the fewest digits, and of these the nearest to the double itself. -/
namespace LoadSweep.Decimal

/-- The reals that round to a positive double, as multiples of `1 / unit`: those from `low` to `high`, with the
ends if `closed`. The double itself is `value / unit`. -/
structure Basin where
  low : Nat
  value : Nat
  high : Nat
  unit : Nat
  closed : Bool
  deriving DecidableEq, Repr

/-- The basin of the double `mantissa · 2 ^ exponent`. Below a power of two the doubles lie twice as dense, so the
basin reaches half as far; ends belong to it when the mantissa is even. -/
def Basin.of (mantissa : Nat) (exponent : Int) : Basin :=
  let scale := Nat.pow 2 (exponent - 2).toNat
  let below := if mantissa = Nat.pow 2 52 ∧ -1074 < exponent then 1 else 2
  { low := (4 * mantissa - below) * scale
    value := 4 * mantissa * scale
    high := (4 * mantissa + 2) * scale
    unit := Nat.pow 2 (2 - exponent).toNat
    closed := mantissa % 2 == 0 }

/-- Is `point / (unit · fine)` in the basin? -/
def Basin.holds (b : Basin) (fine point : Nat) : Bool :=
  if b.closed then b.low * fine ≤ point && point ≤ b.high * fine
  else b.low * fine < point && point < b.high * fine

/-- The power of ten above the double: `10 ^ (k - 1) ≤ value / unit < 10 ^ k`. -/
def Basin.magnitude (b : Basin) : Int :=
  if b.unit ≤ b.value then digitCount (b.value / b.unit) else 1 - digitCount ((b.unit - 1) / b.value)

/-- Which of two equally near decimals is taken. -/
inductive Tie where
  | upward
  | even
  deriving DecidableEq, Repr

/-- The decimal of `n` digits in the basin that is nearest to the double: one of the double's two neighbours on
the grid of step `10 ^ (magnitude - n)`. -/
def Basin.withDigits? (b : Basin) (tie : Tie) (n : Nat) : Option Decimal :=
  let step := b.magnitude - n
  let fine := Nat.pow 10 (-step).toNat
  let coarse := Nat.pow 10 step.toNat * b.unit
  let below := b.value * fine / coarse
  let down : Decimal := ⟨below, step⟩
  let up : Decimal := ⟨below + 1, step⟩
  let fromBelow := b.value * fine - below * coarse
  let fromAbove := (below + 1) * coarse - b.value * fine
  match b.holds fine (below * coarse), b.holds fine ((below + 1) * coarse) with
  | false, false => none
  | true, false => some down
  | false, true => some up
  | true, true =>
    if fromBelow < fromAbove then some down
    else if fromAbove < fromBelow then some up
    else if tie = .even ∧ below % 2 = 0 then some down else some up

def exact (mantissa : Nat) (exponent : Int) : Decimal :=
  if 0 ≤ exponent then ⟨mantissa * Nat.pow 2 exponent.toNat, 0⟩ else ⟨mantissa * Nat.pow 5 (-exponent).toNat, exponent⟩

/-- The decimal of fewest digits that rounds to `mantissa · 2 ^ exponent`, the nearest one if there are several. -/
def shortest (tie : Tie) (mantissa : Nat) (exponent : Int) : Decimal :=
  ((List.range 17).findSome? fun n => (Basin.of mantissa exponent).withDigits? tie (n + 1)).getD
    (exact mantissa exponent)

end LoadSweep.Decimal
