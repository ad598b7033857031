import LoadSweep.Json.Reader
import LoadSweep.Json.Shape
import LoadSweep.Settings

/-! Settings are an object, or an array of the fields in their order. What is left out keeps its standard value. -/
namespace LoadSweep

open Json

namespace Colour

/-- The type that messages name when a value is no colour. -/
def formName : String := "ColorSpec"

def channel? : Node → Option UInt8
  | .number n => match n.value with
    | .ok (.integer i) => if 0 ≤ i ∧ i < 256 then some i.toNat.toUInt8 else none
    | _ => none
  | _ => none

/-- Three bytes in an array, or a name. Any other value that nests no deeper than `depth` is read to its end
before it is refused. -/
def shape (depth : Nat) : Shape Colour := fun n =>
  match n.probe depth with
  | some f => refuse f
  | none => match n with
    | .array [r, g, b] _ => match channel? r, channel? g, channel? b with
      | some r, some g, some b => .ok ⟨r, g, b⟩
      | _, _, _ => mismatch (.noForm formName)
    | .string q => do
      let name ← asked q.text
      match named? name with
      | some c => return c
      | none => mismatch (.unknownColour name)
    | _ => mismatch (.noForm formName)

end Colour

/-- How deep a text may nest. -/
def maxDepth : Nat := 127

namespace Marker

def shape : Shape Marker := oneOf (all.map fun m => (m.name, .bare m))

end Marker

namespace Metric

/-- Saturation has two names. -/
def shape : Shape Metric :=
  oneOf [("latency", .bare latency), ("throughput", .bare throughput),
    ("nic-saturation", .bare saturation), ("nic_saturation", .bare saturation)]

end Metric

namespace Level

/-- Levels are items of an array in the settings, so three brackets surround a colour. -/
def fields : Fields Level where
  title := "struct LoadLevel"
  start := { load := 0 }
  fields := [
    field "load" true (natural "u32" UInt32.size) fun n l => { l with load := n.toUInt32 },
    field "label" false (optional (text "a string")) fun s l => { l with given := s },
    field "color" false (optional (Colour.shape (maxDepth - 3))) fun c l => { l with colour := c },
    field "marker" false (optional Marker.shape) fun m l => { l with marker := m }]

end Level

namespace Reduction

def groupedFields : Fields Reduction where
  title := "struct variant BaselineReduction::MeanOfGroupMeans"
  start := .grouped 0
  fields := [field "key_column" true (natural "usize" UInt64.size) fun n _ => .grouped n]

def shape : Shape Reduction := oneOf [("flat", .bare .flat), ("mean_of_group_means", .fields groupedFields)]

end Reduction

namespace Bounds

def fields : Fields Bounds where
  title := "struct AxisBounds"
  start := ⟨.latency, 0, 0⟩
  fields := [
    field "metric" true Metric.shape fun m b => { b with metric := m },
    field "min" true real fun x b => { b with low := x },
    field "max" true real fun x b => { b with high := x }]

end Bounds

namespace Settings

def fields : Fields Settings where
  title := "struct ComparisonConfig"
  start := standard
  fields := [
    field "data_dir" false (text "path string") fun x s => { s with directory := x },
    field "swept_variant" false (text "a string") fun x s => { s with sweptVariant := x },
    field "baseline_variant" false (text "a string") fun x s => { s with baselineVariant := x },
    field "swept_name" false (text "a string") fun x s => { s with sweptName := x },
    field "baseline_name" false (text "a string") fun x s => { s with baselineName := x },
    field "extension" false (text "a string") fun x s => { s with ending := x },
    field "window_secs" false real fun x s => { s with window := x },
    field "x_label" false (text "a string") fun x s => { s with axisLabel := x },
    field "levels" false (list Level.fields.shape) fun x s => { s with levels := x },
    field "metrics" false (list Metric.shape) fun x s => { s with metrics := x },
    field "baseline_reduction" false Reduction.shape fun x s => { s with reduction := x },
    field "y_bounds" false (list Bounds.fields.shape) fun x s => { s with bounds := x }]

/-- The settings that a JSON text holds; they need not be valid. -/
def ofJson (bytes : List UInt8) : Except Refusal Settings := (Document.ofBytes bytes).get fields.shape

end Settings

def Colour.ofJson (bytes : List UInt8) : Except Refusal Colour :=
  (Document.ofBytes bytes).get (Colour.shape maxDepth)

end LoadSweep
