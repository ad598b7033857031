/-! How the curves of a chart are told apart. -/
namespace LoadSweep

structure Colour where
  red : UInt8
  green : UInt8
  blue : UInt8
  deriving DecidableEq, Repr

namespace Colour

def names : List (String × Colour) :=
  [("red", ⟨214, 39, 40⟩), ("green", ⟨44, 160, 44⟩), ("blue", ⟨31, 119, 180⟩), ("orange", ⟨255, 127, 14⟩),
    ("purple", ⟨148, 103, 189⟩), ("cyan", ⟨23, 190, 207⟩), ("black", ⟨0, 0, 0⟩)]

/-- The colour of a name, in upper or lower case of ASCII letters. -/
def named? (name : String) : Option Colour :=
  let lower := String.ofList (name.toList.map Char.toLower)
  (names.find? (·.1 == lower)).map (·.2)

def hexByte (b : UInt8) : List Char :=
  let ds := Nat.toDigits 16 b.toNat
  List.replicate (2 - ds.length) '0' ++ ds

/-- A colour as `#rrggbb`. -/
def text (c : Colour) : String :=
  String.ofList ('#' :: hexByte c.red ++ hexByte c.green ++ hexByte c.blue)

end Colour

/-- The sign at each point of a curve. -/
inductive Marker where
  | diamond
  | square
  | triangle
  | circle
  deriving DecidableEq, Repr

namespace Marker

/-- Every marker, in the order in which curves without a marker of their own take them. -/
def all : List Marker := [diamond, square, triangle, circle]

def name : Marker → String
  | diamond => "diamond"
  | square => "square"
  | triangle => "triangle"
  | circle => "circle"

/-- The marker of the `i`-th curve; after the last the first comes again. -/
def nth (i : Nat) : Marker :=
  match i % 4 with
  | 0 => diamond
  | 1 => square
  | 2 => triangle
  | _ => circle

end Marker
end LoadSweep
