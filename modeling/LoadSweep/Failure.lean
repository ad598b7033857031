import LoadSweep.Decimal.Written
import LoadSweep.Metric

/-! Each failure abandons the chart that needed the data; the charts of other metrics are made all the same. -/
namespace LoadSweep

/-- What is wrong with a row of a data set. -/
inductive RowFlaw where
  /-- A field between single spaces is not UTF-8. -/
  | notText (field : Nat)
  | wrongCount (expected found : Nat)
  /-- A word is no number, or not a finite one. -/
  | notNumber (column : Nat) (word : String)
  deriving DecidableEq, Repr

def RowFlaw.message : RowFlaw → String
  | notText field => s!"field {field} is not valid UTF-8"
  | wrongCount expected found => s!"expected {expected} columns, found {found}"
  | notNumber column word => s!"column {column}: '{word}' is not a number"

inductive Failure where
  | missingFile (path : String)
  | unreadable (path : String)
  | malformedRow (path : String) (line : Nat) (flaw : RowFlaw)
  | emptyDataset (path : String)
  | columnOutOfRange (path : String) (column width : Nat)
  /-- A mean below zero or not finite has no meaning as a metric. -/
  | outOfDomain (metric : Metric) (value : Float)
  deriving DecidableEq, Repr

def Failure.message : Failure → String
  | missingFile path => s!"dataset file not found: {path}"
  | unreadable path => s!"failed to read {path}"
  | malformedRow path line flaw => s!"{path}:{line}: {flaw.message}"
  | emptyDataset path => s!"dataset {path} contains no rows"
  | columnOutOfRange path column width => s!"column {column} is out of range for {path} ({width} columns)"
  | outOfDomain metric value =>
    s!"{metric.name} transform received out-of-domain value {Decimal.plain value}"

end LoadSweep
