import LoadSweep.Chart

/-! A chart as a table of text: a row per key, a column per load, and a last row of baselines. -/
namespace LoadSweep

/-- A number in a report: three places. -/
def valueText (x : Float) : String := Decimal.fixed 3 x

namespace Chart

def headerCells (c : Chart) : List String := c.xLabel :: c.curves.map (·.label)

/-- The value of a curve at a key, or a dash. -/
def valueCell (key : Key) (curve : Curve) : String :=
  match curve.series.get? key with
  | some x => valueText x
  | none => "-"

def keyCells (c : Chart) (key : Key) : List String := key.text :: c.curves.map (valueCell key)

def baselineCells (c : Chart) : List String := c.baselineName :: c.curves.map (valueText ·.baseline)

def bodyCells (c : Chart) : List (List String) := c.ticks.map c.keyCells ++ [c.baselineCells]

end Chart

/-- Text that would have to be padded to more places than 16 bits count. The program cannot go on after that. -/
structure TooWide where
  width : Nat
  deriving DecidableEq, Repr

/-- What the program stops with. -/
def TooWide.message (_ : TooWide) : String := "Formatting argument out of range"

namespace Report

/-- The places to which a cell can be padded. -/
def widest : Nat := UInt16.size - 1

def tooWide? (widths : List Nat) : Option TooWide := (widths.find? (widest < ·)).map TooWide.mk

/-- The widths that let rows line up: in each column the most bytes of a cell. -/
def widths (header : List String) (body : List (List String)) : List Nat :=
  body.foldl (fun ws row => List.zipWith max ws (row.map (·.utf8ByteSize))) (header.map (·.utf8ByteSize))

def spaces (n : Nat) : String := String.ofList (List.replicate n ' ')

/-- A cell with the spaces that its characters leave of the width, after it. -/
def padRight (width : Nat) (cell : String) : String := cell ++ spaces (width - cell.length)

/-- A cell with the spaces that its characters leave of the width, before it. -/
def padLeft (width : Nat) (cell : String) : String := spaces (width - cell.length) ++ cell

/-- The first cell to the left, the others to the right, two spaces between columns. -/
def line (widths : List Nat) (cells : List String) : String :=
  match widths, cells with
  | w :: ws, c :: cs => "  ".intercalate (padRight w c :: List.zipWith padLeft ws cs)
  | _, _ => ""

/-- As many dashes as a line has characters. -/
def rule (widths : List Nat) : String :=
  String.ofList (List.replicate (widths.foldr (· + ·) 0 + 2 * (widths.length - 1)) '-')

end Report

namespace Chart

/-- The lines of a report: title, header, rule, rows and warnings. -/
def reportLines (c : Chart) : List String :=
  let widths := Report.widths c.headerCells c.bodyCells
  s!"== {c.title} ({c.yLabel}) ==" :: Report.line widths c.headerCells :: Report.rule widths
    :: c.bodyCells.map (Report.line widths) ++ c.warnings.map fun w => s!"warning: {w.text}"

def report (c : Chart) : Except TooWide String :=
  match Report.tooWide? (Report.widths c.headerCells c.bodyCells) with
  | some e => .error e
  | none => .ok (String.join (c.reportLines.map (· ++ "\n")))

end Chart
end LoadSweep
