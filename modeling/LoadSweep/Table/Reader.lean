import LoadSweep.Decimal.Reader
import LoadSweep.Failure
import LoadSweep.Table
import LoadSweep.Table.Record
import LoadSweep.Text.Blank
import LoadSweep.Text.Utf8

/-! Each record holds a row of numbers between blanks. The first record that does not is reported; records of blanks
alone are skipped. -/
namespace LoadSweep.Table

/-- The words of the fields of a record, a field being what stands between single spaces. The first field is
numbered `field`. -/
def fieldWords (field : Nat) : List (List UInt8) → Except RowFlaw (List (List Char))
  | [] => .ok []
  | bytes :: rest =>
    match Text.Utf8.decode bytes with
    | none => .error (.notText field)
    | some text => (fieldWords (field + 1) rest).map (Text.words text ++ ·)

def recordWords (bytes : List UInt8) : Except RowFlaw (List (List Char)) :=
  fieldWords 0 (bytes.splitOnP (· == 32))

/-- The finite number that a word spells. -/
def number? (word : List Char) : Option Float := (Decimal.read? word).filter Float.isFinite

/-- The numbers of a row, the first of them in column `column`. -/
def readNumbers (column : Nat) :
    (ws : List (List Char)) → Except RowFlaw { xs : List Float // xs.length = ws.length }
  | [] => .ok ⟨[], rfl⟩
  | w :: ws =>
    match number? w with
    | none => .error (.notNumber column (String.ofList w))
    | some x => (readNumbers (column + 1) ws).map fun xs => ⟨x :: xs.1, by simp [xs.2]⟩

/-- The row that words spell, one word for each of `width` columns. -/
def readRow (width : Nat) (ws : List (List Char)) : Except RowFlaw (Row width) :=
  if h : ws.length = width then
    (readNumbers 0 ws).map fun xs => ⟨xs.1.toArray, by simp [xs.2, h]⟩
  else .error (.wrongCount width ws.length)

/-- The row in a record, if the record is not blank. -/
def readRecord (width : Nat) (bytes : List UInt8) : Except RowFlaw (Option (Row width)) :=
  match recordWords bytes with
  | .error flaw => .error flaw
  | .ok [] => .ok none
  | .ok ws => (readRow width ws).map some

/-- The rows of records, up to the first flaw. -/
def readRecords (path : String) (width : Nat) : List Record → Except Failure (List (Row width))
  | [] => .ok []
  | r :: rs =>
    match readRecord width r.bytes with
    | .error flaw => .error (.malformedRow path r.line flaw)
    | .ok row => (readRecords path width rs).map (row.toList ++ ·)

/-- The table in a source, all of whose records must be rows of `width` numbers. A fault of the medium counts
after the records before it. -/
def read (path : String) (width : Nat) (s : Source) : Except Failure Table :=
  match readRecords path width (Record.ofSource s) with
  | .error failure => .error failure
  | .ok rows => if s.isCut then .error (.unreadable path) else .ok ⟨path, width, rows⟩

end LoadSweep.Table
