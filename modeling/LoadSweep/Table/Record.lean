/-! A data set is cut into records at line ends, single `\n` or `\r` bytes; empty records are dropped. A record is
numbered by the line feeds before it up to the end of the record before it. -/
namespace LoadSweep

/-- The mark that may stand at the start of UTF-8 text. -/
def byteOrderMark : List UInt8 := [0xEF, 0xBB, 0xBF]

/-- The bytes of a data set as they can be read: all of them, or those before a fault of the medium. -/
structure Source where
  bytes : List UInt8
  broken : Bool := false
  deriving DecidableEq, Repr

/-- Is a source known to be cut by a fault? A fault right behind a mark at the start passes for the end. -/
def Source.isCut (s : Source) : Bool := s.broken && s.bytes != byteOrderMark

structure Record where
  line : Nat
  bytes : List UInt8
  deriving DecidableEq, Repr

/-- The bytes before a line end, and the line end. -/
structure Stretch where
  body : List UInt8
  ending : UInt8
  deriving DecidableEq, Repr

namespace Record

def lineFeed : UInt8 := 10

def carriageReturn : UInt8 := 13

def isLineEnd (b : UInt8) : Bool := b == lineFeed || b == carriageReturn

/-- Bytes without the mark at their start. -/
def dropMark : List UInt8 → List UInt8
  | 0xEF :: 0xBB :: 0xBF :: rest => rest
  | bytes => bytes

/-- The stretches that a line end completes, and the bytes after the last of them. -/
def stretches : List UInt8 → List Stretch × List UInt8
  | [] => ([], [])
  | b :: bs =>
    if isLineEnd b then
      let (ss, last) := stretches bs
      (⟨[], b⟩ :: ss, last)
    else match stretches bs with
      | ([], last) => ([], b :: last)
      | (s :: ss, last) => (⟨b :: s.body, s.ending⟩ :: ss, last)

/-- The records of completed stretches, and the line number for a record after them. `line` is the number for the
next record, `feeds` counts the line feeds so far. -/
def number (line feeds : Nat) : List Stretch → List Record × Nat
  | [] => ([], line)
  | s :: ss =>
    let feeds := feeds + if s.ending == lineFeed then 1 else 0
    if s.body.isEmpty then number line feeds ss
    else
      let (records, next) := number (feeds + 1) feeds ss
      (⟨line, s.body⟩ :: records, next)

/-- The records of a source that a line end completes, and the one that the end of the bytes completes. -/
def completed (bytes : List UInt8) : List Record × Option Record :=
  let (ss, last) := stretches (dropMark bytes)
  let (records, line) := number 1 0 ss
  (records, if last.isEmpty then none else some ⟨line, last⟩)

/-- The records of a source; what a fault cuts short is no record. -/
def ofSource (s : Source) : List Record :=
  let (records, last) := completed s.bytes
  if s.isCut then records else records ++ last.toList

end Record
end LoadSweep
