import LoadSweep.Proofs.Chart.Layout
import LoadSweep.Proofs.Chart.Panel

/-! The rows of a report are made by one pass through the keys of all curves with a look-up in every curve.
`report_depicts` says that nothing is lost on the way and nothing invented: the column of a curve, read downwards
without its dashes, is the curve point by point. -/
namespace LoadSweep.Chart

/-- The cell in a row and a column. -/
def cellAt (rows : List (List String)) (i column : Nat) : Option String := rows[i]?.bind (·[column]?)

/-- Rows as an image of curves: a row for each key of a curve, in ascending order, with the text of the key and then
a cell for each curve, which is the value of the curve there or a dash. -/
structure Depicts (curves : List Curve) (keys : List Key) (rows : List (List String)) : Prop where
  ascending : keys.Pairwise (· < ·)
  mem_keys : ∀ k, k ∈ keys ↔ ∃ curve ∈ curves, ∃ x, curve.series.get? k = some x
  length_rows : rows.length = keys.length
  length_row : ∀ row ∈ rows, row.length = curves.length + 1
  key : ∀ (i : Nat) k, keys[i]? = some k → cellAt rows i 0 = some k.text
  value : ∀ (i j : Nat) k curve x, keys[i]? = some k → curves[j]? = some curve → curve.series.get? k = some x →
    cellAt rows i (j + 1) = some (valueText x)
  dash : ∀ (i j : Nat) k curve, keys[i]? = some k → curves[j]? = some curve →
    (cellAt rows i (j + 1) = some "-" ↔ curve.series.get? k = none)
  /-- The cells of a column that are not dashes are the points of its curve. -/
  points : ∀ (j : Nat) curve, curves[j]? = some curve →
    ((keys.zip rows).filter (·.2[j + 1]? ≠ some "-")).map (fun row => (row.1, row.2[j + 1]?)) =
      curve.series.points.map fun p => (p.1, some (valueText p.2))

variable {c : Chart} {curve : Curve}

theorem cellAt_keyRows {i : Nat} {k : Key} (h : c.ticks[i]? = some k) (column : Nat) :
    cellAt c.keyRows i column = (c.keyCells k)[column]? := by
  rw [cellAt, keyRows, List.getElem?_map, h]
  rfl

/-- The points of a curve, read off the column in which they stand. -/
theorem filter_zip_keyRows {j : Nat} (h : c.curves[j]? = some curve) :
    ((c.ticks.zip c.keyRows).filter (·.2[j + 1]? ≠ some "-")).map (fun row => (row.1, row.2[j + 1]?)) =
      curve.series.points.map fun p => (p.1, some (valueText p.2)) := by
  have hzip : c.ticks.zip c.keyRows = c.ticks.map fun k => (k, c.keyCells k) :=
    List.ext_getElem (by simp [keyRows]) fun i _ _ => by simp [keyRows]
  rw [hzip, List.filter_map, List.map_map, map_points curve fun k text => (k, some text), ← filter_not_dash h]
  apply List.map_congr_left
  intro k _
  simp [keyCells_succ, h]

theorem depicts_keyRows (c : Chart) : Depicts c.curves c.ticks c.keyRows := by
  constructor
  case ascending => exact pairwise_unionKeys _
  case mem_keys =>
    intro k
    simp only [mem_ticks_iff, Series.mem_keys, Option.isSome_iff_exists]
  case length_rows => exact List.length_map _
  case length_row =>
    intro row hrow
    obtain ⟨k, -, rfl⟩ := List.mem_map.1 hrow
    simp [keyCells]
  case key =>
    intro i k hk
    rw [cellAt_keyRows hk]
    rfl
  case value =>
    intro i j k curve x hk hcurve hx
    rw [cellAt_keyRows hk, keyCells_succ, hcurve, Option.map_some, valueCell, hx]
  case dash =>
    intro i j k curve hk hcurve
    rw [cellAt_keyRows hk, cell_eq_dash_iff hcurve, Series.mem_keys, Option.not_isSome_iff_eq_none]
  case points => exact fun j curve => filter_zip_keyRows

/-- What the table of a report shows. It is printed exactly if no cell has more bytes than the number of places that a
cell can be padded to. Then the rows below the header, which holds the label of the axis and those of the curves, are
an image of the curves, and the last row holds the name of the baselines and the baseline of each curve. -/
theorem report_depicts (c : Chart) :
    ∃ (header : List String) (keys : List Key) (rows : List (List String)) (baselines : List String),
      (let ws := Report.widths header (rows ++ [baselines])
      ∀ text, c.report = .ok text ↔
        (∀ row ∈ header :: (rows ++ [baselines]), ∀ cell ∈ row, cell.utf8ByteSize ≤ Report.widest) ∧
        text = String.join (List.map (· ++ "\n")
          ([s!"== {c.title} ({c.yLabel}) ==", Report.line ws header, Report.rule ws]
            ++ (rows ++ [baselines]).map (Report.line ws) ++ c.warnings.map fun w => s!"warning: {w.text}"))) ∧
      header = c.xLabel :: c.curves.map (·.label) ∧
      Depicts c.curves keys rows ∧
      baselines = c.baselineName :: c.curves.map fun curve => valueText curve.baseline := by
  refine ⟨c.headerCells, c.ticks, c.keyRows, c.baselineCells, fun text => ?_, rfl, depicts_keyRows c, rfl⟩
  rw [report_eq_ok_iff]
  rfl

/-- A curve with one point. -/
def lone (label : String) : Curve where
  load := 1
  label := label
  colour := ⟨214, 39, 40⟩
  marker := .circle
  series := Series.empty.insert (Key.ofFloat 1) 1
  baseline := 1

/-- The point of a curve is in no row if the label of the curve has one byte too many. -/
theorem long_curve_label_stops :
    ∃ e, ({ bare "Sample size" with curves := [lone (String.ofList (List.replicate 65536 'x'))] } : Chart).report =
      .error e := by
  have hsize : (String.ofList (List.replicate 65536 'x')).utf8ByteSize = 65536 * 'x'.utf8Size :=
    utf8ByteSize_replicate _ _
  have hwide : Report.widest < (String.ofList (List.replicate 65536 'x')).utf8ByteSize := by
    rw [hsize]
    decide
  exact report_of_long_cell List.mem_cons_self (List.mem_cons_of_mem _ List.mem_cons_self) hwide

end LoadSweep.Chart
