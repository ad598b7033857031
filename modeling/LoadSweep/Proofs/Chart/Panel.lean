import LoadSweep.Proofs.Chart.Warnings
import LoadSweep.Window

/-! The panel goes through the points of each curve, the report through the keys of all curves and looks each of them
up. `panel_matches_report` says that both show the same texts in the same order. -/
namespace LoadSweep.Chart

variable {c : Chart} {curve : Curve}

/-- The points of a curve, read off by look-up at its keys. -/
theorem map_points {β : Type} (curve : Curve) (f : Key → String → β) :
    curve.series.points.map (fun p => f p.1 (valueText p.2)) =
      curve.series.keys.map fun k => f k (valueCell k curve) := by
  rw [Series.keys, List.map_map]
  apply List.map_congr_left
  rintro ⟨k, x⟩ hmem
  have hget : curve.series.get? k = some x := Series.mem_points_iff.1 hmem
  simp [valueCell, hget]

/-- Of the keys of all curves, those of one curve are its keys in their order. -/
theorem filter_ticks (hmem : curve ∈ c.curves) : c.ticks.filter (· ∈ curve.series.keys) = curve.series.keys := by
  have ascending : c.ticks.Pairwise (· < ·) := pairwise_unionKeys _
  symm
  apply Series.keys_eq_of_pairwise (ascending.filter _)
  intro k
  simp only [List.mem_filter, decide_eq_true_eq, mem_ticks_iff]
  exact ⟨fun hk => ⟨⟨curve, hmem, hk⟩, hk⟩, And.right⟩

/-- The keys of the rows without a dash in the column of a curve are its keys. -/
theorem filter_not_dash {j : Nat} (h : c.curves[j]? = some curve) :
    c.ticks.filter (fun k => (c.keyCells k)[j + 1]? ≠ some "-") = curve.series.keys := by
  rw [← filter_ticks (List.mem_of_getElem? h)]
  apply List.filter_congr
  intro k _
  simp [cell_eq_dash_iff h]

theorem pointRows_eq_keyRows {j : Nat} (h : c.curves[j]? = some curve) :
    (pointRows curve).map (fun row => (some row.1, some row.2)) =
      (c.keyRows.filter (·[j + 1]? ≠ some "-")).map fun cells => (cells[0]?, cells[j + 1]?) := by
  have hrows : c.keyRows.filter (·[j + 1]? ≠ some "-") = curve.series.keys.map c.keyCells := by
    rw [keyRows, List.filter_map, ← filter_not_dash h]
    rfl
  have hpoints : pointRows curve = curve.series.keys.map fun k => (k.text, valueCell k curve) :=
    map_points curve fun k text => (k.text, text)
  rw [hrows, hpoints, List.map_map, List.map_map]
  apply List.map_congr_left
  intro k _
  simp [keyCells, List.getElem?_map, h]

theorem baselineRow_eq_cells {j : Nat} (h : c.curves[j]? = some curve) :
    c.baselineCells[0]? = some (c.baselineRow curve).1 ∧ c.baselineCells[j + 1]? = some (c.baselineRow curve).2 := by
  simp [baselineCells, baselineRow, List.getElem?_map, h]

/-- The panel and the report show the same. The report is printed exactly if no cell has more bytes than the number of
places that a cell can be padded to, and then it is a table of the rows of keys and the row of baselines with a line for
each warning below it. The grid of a curve holds the pairs of the first cell and the curve's own cell of those rows of
keys that have no dash there, and below them that pair of the row of baselines; the warnings are the same, and the last
line of the panel lists the first cells of the rows of keys. -/
theorem panel_matches_report (c : Chart) :
    (∃ warnings keys : List String,
      (∀ text, c.report = .ok text ↔
        (∀ row ∈ c.headerCells :: (c.keyRows ++ [c.baselineCells]), ∀ cell ∈ row,
          cell.utf8ByteSize ≤ Report.widest) ∧
        Report.Tabulates (Report.widths c.headerCells (c.keyRows ++ [c.baselineCells]))
          s!"== {c.title} ({c.yLabel}) ==" c.headerCells (c.keyRows ++ [c.baselineCells])
          (warnings.map fun text => s!"warning: {text}") text) ∧
      c.keyRows.map (·[0]?) = keys.map some ∧
      c.sideTexts = c.curves.flatMap c.block ++ (if warnings = [] then [] else "Warnings" :: warnings)
        ++ [c.xLabel ++ ": " ++ ", ".intercalate keys]) ∧
    ∀ j curve, c.curves[j]? = some curve → ∃ (points : List (String × String)) (baseline : String × String),
      c.block curve = s!"● {curve.label}" ::
        ((c.xLabel, c.metric.unit) :: points ++ [baseline]).flatMap (fun row => [row.1, row.2]) ∧
      points.map (fun row => (some row.1, some row.2)) =
        (c.keyRows.filter (·[j + 1]? ≠ some "-")).map (fun cells => (cells[0]?, cells[j + 1]?)) ∧
      c.baselineCells[0]? = some baseline.1 ∧ c.baselineCells[j + 1]? = some baseline.2 := by
  constructor
  · refine ⟨c.warnings.map Divergence.text, c.ticks.map Key.text, fun text => ?_, ?_, ?_⟩
    · rw [report_eq_ok_iff_tabulates, List.map_map]
      rfl
    · simp [keyRows, keyCells, Function.comp_def]
    · have hline : c.tickLine = c.xLabel ++ ": " ++ ", ".intercalate (c.ticks.map Key.text) := rfl
      simp [sideTexts, warningTexts, hline, List.isEmpty_iff]
  · intro j curve h
    exact ⟨pointRows curve, c.baselineRow curve, rfl, pointRows_eq_keyRows h, baselineRow_eq_cells h⟩

/-- The panel lists its lines and there is no table, if the name of the baselines has one byte too many. -/
theorem listed_unprinted : ∃ chart,
    (assemble (fun _ => none)
      { Settings.standard with levels := [], baselineName := String.ofList (List.replicate 65536 'b') } .latency).outcome =
        .ok chart ∧ chart.sideTexts ≠ [] ∧ ∃ e, chart.report = .error e := by
  obtain ⟨chart, hchart, -, -, hname⟩ := exists_assemble_of_no_levels
    (s := { Settings.standard with levels := [], baselineName := String.ofList (List.replicate 65536 'b') })
    (fun _ => none) .latency rfl
  have hrow : chart.baselineCells ∈ chart.headerCells :: chart.bodyCells := by simp [bodyCells]
  refine ⟨chart, hchart, by simp [sideTexts], report_of_long_cell hrow List.mem_cons_self ?_⟩
  rw [hname, utf8ByteSize_replicate]
  decide

end LoadSweep.Chart
