/-! Characters of one to four bytes in their shortest form; surrogates and code points past `10FFFF` are refused. -/
namespace LoadSweep.Text.Utf8

def isTail (b : UInt8) : Bool := 0x80 ≤ b && b ≤ 0xBF

/-- The six bits that a continuing byte carries. -/
def tailBits (b : UInt8) : Nat := b.toNat % 64

/-- May `a b` open a character of three bytes? Overlong forms and surrogates may not. -/
def opensThree (a b : UInt8) : Bool :=
  isTail b && (a != 0xE0 || 0xA0 ≤ b) && (a != 0xED || b ≤ 0x9F)

/-- May `a b` open a character of four bytes? Overlong forms and code points past `10FFFF` may not. -/
def opensFour (a b : UInt8) : Bool :=
  isTail b && (a != 0xF0 || 0x90 ≤ b) && (a != 0xF4 || b ≤ 0x8F)

/-- The text that `bytes` spell, when all of them are well-formed UTF-8. -/
def decode : (bytes : List UInt8) → Option (List Char)
  | [] => some []
  | a :: rest =>
    if a < 0x80 then
      (decode rest).map (Char.ofNat a.toNat :: ·)
    else if 0xC2 ≤ a && a ≤ 0xDF then
      match rest with
      | b :: rest =>
        if isTail b then
          (decode rest).map (Char.ofNat (a.toNat % 32 * 64 + tailBits b) :: ·)
        else none
      | _ => none
    else if 0xE0 ≤ a && a ≤ 0xEF then
      match rest with
      | b :: c :: rest =>
        if opensThree a b && isTail c then
          (decode rest).map (Char.ofNat ((a.toNat % 16 * 64 + tailBits b) * 64 + tailBits c) :: ·)
        else none
      | _ => none
    else if 0xF0 ≤ a && a ≤ 0xF4 then
      match rest with
      | b :: c :: d :: rest =>
        if opensFour a b && isTail c && isTail d then
          (decode rest).map
            (Char.ofNat (((a.toNat % 8 * 64 + tailBits b) * 64 + tailBits c) * 64 + tailBits d) :: ·)
        else none
      | _ => none
    else none

def encode (text : List Char) : List UInt8 := text.flatMap String.utf8EncodeChar

def bytesOf (text : String) : List UInt8 := encode text.toList

end LoadSweep.Text.Utf8
