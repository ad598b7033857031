/-! A mean is kept up to date value by value, without ever forming a sum. The arithmetic is a parameter: the same
definition is read over doubles when it runs and over exact numbers when it is reasoned about. -/
namespace LoadSweep

class Averaging (α : Type) where
  zero : α
  add : α → α → α
  sub : α → α → α
  /-- An equal part of a number among `n`. -/
  share : α → (n : Nat) → α

instance : Averaging Float where
  zero := 0
  add := (· + ·)
  sub := (· - ·)
  share x n := x / Float.ofNat n

structure RunningMean (α : Type) where
  mean : α
  count : Nat
  deriving DecidableEq, Repr

namespace RunningMean

variable {α : Type} [Averaging α]

def empty : RunningMean α := ⟨Averaging.zero, 0⟩

/-- Moves the mean towards a new value by that value's share of the difference. -/
def push (m : RunningMean α) (x : α) : RunningMean α :=
  let count := m.count + 1
  ⟨Averaging.add m.mean (Averaging.share (Averaging.sub x m.mean) count), count⟩

end RunningMean

/-- The running mean of a list, in order; zero for none. -/
def runningMean {α : Type} [Averaging α] (xs : List α) : α := (xs.foldl RunningMean.push .empty).mean

end LoadSweep
