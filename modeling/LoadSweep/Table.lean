import LoadSweep.Key

/-! A table holds the runs of one data set, in the order of the file, each with the same number of columns. The cells
are doubles; where the bits of a double matter that are no part of its value, they are bit patterns. -/
namespace LoadSweep

/-- What a cell is taken for. -/
class Cell (γ : Type) where
  /-- The key of a row that has the cell in the key column. -/
  key : γ → Key
  number : γ → Float

instance : Cell Float := ⟨Key.ofFloat, id⟩

/-- A bit pattern of a double. -/
instance : Cell UInt64 := ⟨Key.mk, Float.ofBits⟩

/-- One run: a cell per column. -/
abbrev Row (width : Nat) (γ : Type := Float) := Vector γ width

structure Table (γ : Type := Float) where
  /-- Where the rows come from; used in messages. -/
  source : String
  width : Nat
  rows : List (Row width γ)

namespace Table

variable {γ : Type}

def length (t : Table γ) : Nat := t.rows.length

def isEmpty (t : Table γ) : Bool := t.rows.isEmpty

def withRows (t : Table γ) (rows : List (Row t.width γ)) : Table γ := { t with rows := rows }

def push (t : Table γ) (row : Row t.width γ) : Table γ := t.withRows (t.rows ++ [row])

def dropLast (t : Table γ) : Table γ := t.withRows t.rows.dropLast

def reverse (t : Table γ) : Table γ := t.withRows t.rows.reverse

def clear (t : Table γ) : Table γ := t.withRows []

end Table
end LoadSweep
