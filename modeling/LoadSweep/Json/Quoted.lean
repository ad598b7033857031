import LoadSweep.Json.Fault
import LoadSweep.Text.Utf8

/-! A string is read in two steps: its pieces first, then the text they spell. The text has more ways to fail: an
escape may name half of a surrogate pair, and bytes may not be UTF-8. -/
namespace LoadSweep.Json

inductive Piece where
  | byte (b : UInt8)
  /-- An escape of one letter. -/
  | char (c : Char)
  /-- An escape by four hexadecimal digits. -/
  | unit (n : Nat)
  deriving DecidableEq, Repr

/-- The pieces of a string up to the closing quote, or up to a fault. -/
structure Quoted where
  pieces : List Piece
  fault : Option Fault
  deriving DecidableEq, Repr

namespace Quoted

def isHigh (n : Nat) : Bool := 0xD800 ≤ n && n ≤ 0xDBFF

def isLow (n : Nat) : Bool := 0xDC00 ≤ n && n ≤ 0xDFFF

def combine (high low : Nat) : Nat := 0x10000 + (high - 0xD800) * 0x400 + (low - 0xDC00)

/-- The bytes that pieces spell. The halves of a surrogate pair must follow each other. -/
def spell (fault : Option Fault) : List Piece → Except Fault (List UInt8)
  | [] => match fault with
    | none => .ok []
    | some f => .error f
  | .byte b :: ps => (spell fault ps).map (b :: ·)
  | .char c :: ps => (spell fault ps).map (Text.Utf8.encode [c] ++ ·)
  | .unit n :: ps =>
    if isHigh n then
      match ps with
      | .unit m :: ps =>
        if isLow m then (spell fault ps).map (Text.Utf8.encode [Char.ofNat (combine n m)] ++ ·)
        else .error .malformed
      | [] => .error (fault.getD .malformed)
      | _ => .error .malformed
    else if isLow n then .error .malformed
    else (spell fault ps).map (Text.Utf8.encode [Char.ofNat n] ++ ·)

def text (q : Quoted) : Except Fault String :=
  match spell q.fault q.pieces with
  | .error f => .error f
  | .ok bytes => match Text.Utf8.decode bytes with
    | some cs => .ok (String.ofList cs)
    | none => .error .malformed

end Quoted
end LoadSweep.Json
