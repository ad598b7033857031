/-! A stream of 64-bit words from four words of state (xoshiro256**), and numbers drawn from it. The step of the state
is made of shifts, rotations and exclusive ors, so it loses nothing. -/
namespace LoadSweep.Sample

/-- The bits of a word moved up by `k`; those that fall out at the top come in at the bottom. -/
def rotate (x k : UInt64) : UInt64 := (x <<< k) ||| (x >>> (64 - k))

structure Stream where
  a : UInt64
  b : UInt64
  c : UInt64
  d : UInt64
  deriving DecidableEq, Repr

namespace Stream

/-- One step of the linear congruential sequence that fills the first state. -/
def scatter (x : UInt64) : UInt64 := x * 6364136223846793005 + 1

def ofSeed (seed : UInt64) : Stream :=
  let a := scatter seed
  let b := scatter a
  let c := scatter b
  ⟨a, b, c, scatter c⟩

def word (s : Stream) : UInt64 := rotate (s.b * 5) 7 * 9

def rest (s : Stream) : Stream :=
  let c := s.c ^^^ s.a
  let d := s.d ^^^ s.b
  ⟨s.a ^^^ d, s.b ^^^ c, c ^^^ (s.b <<< 17), rotate d 45⟩

end Stream

abbrev Draw (α : Type) := StateM Stream α

namespace Draw

def word : Draw UInt64 := fun s => (s.word, s.rest)

/-- A number from 0 to below 1, in steps of `1 / 2 ^ 53`. -/
def uniform : Draw Float := do
  let w ← word
  return (w >>> 11).toFloat / 9007199254740992

/-- A number from a normal distribution, made of two uniform ones. -/
def normal (mean deviation : Float) : Draw Float := do
  let u ← uniform
  let v ← uniform
  let radius := (-2 * (if 1e-15 < u then u else 1e-15).log).sqrt
  return mean + deviation * (radius * (2 * 3.141592653589793 * v).cos)

/-- A factor around 1 that is never below 0. -/
def jitter (deviation : Float) : Draw Float := do
  let x ← normal 1 deviation
  return if 0 < x then x else 0

def times {α : Type} (n : Nat) (draw : Draw α) : Draw (List α) :=
  match n with
  | 0 => return []
  | n + 1 => do
    let first ← draw
    let others ← times n draw
    return first :: others

end Draw
end LoadSweep.Sample
