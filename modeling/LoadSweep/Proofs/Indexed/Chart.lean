import LoadSweep.Proofs.Chart.Layout
import LoadSweep.Proofs.Chart.Levels
import LoadSweep.Proofs.Indexed.Sheet

/-! Charts are made from sheets: a level takes its colour from a palette by its position, and the width of a column of
the report is found by looking the column up in every row. What is looked up is always there, so charts and reports
are those made from tables. -/
namespace LoadSweep

namespace Sheet

def load (disk : Disk) (path : String) (width : Nat) : Except Halt Sheet :=
  match disk path with
  | none => .error (.failed (.missingFile path))
  | some source => (read path width source).mapError .failed

def reduce (t : Sheet) (r : Reduction) (value : Nat) : Except Halt Float :=
  match r with
  | .flat => t.overallMean value
  | .grouped column => t.meanOfGroupMeans column value

end Sheet

theorem Table.load_sheet (disk : Disk) (path : String) (width : Nat) :
    Sheet.load disk path width = ((Table.load disk path width).outcome.map Table.sheet).mapError .failed := by
  rw [Table.outcome_load, Sheet.load]
  cases disk path with
  | none => rfl
  | some source => simp only [Sheet.read_eq]

theorem Table.reduce_sheet (t : Table) (r : Reduction) (value : Nat) :
    t.sheet.reduce r value = (r.apply t value).mapError .failed := by
  cases r with
  | flat => exact t.overallMean_sheet value
  | grouped column => exact t.meanOfGroupMeans_sheet column value

namespace Indexed

def measure (disk : Disk) (s : Settings) (m : Metric) (l : Level) : Except Halt (Series Float × Float) := do
  let swept ← Sheet.load disk (s.sweptPath l) 4
  let means ← swept.groupMean 0 m.sweptColumn
  let baseline ← Sheet.load disk (s.baselinePath l) 3
  let mean ← baseline.reduce s.reduction m.baselineColumn
  let series ← (m.deriveSeries s.window means).mapError .failed
  let derived ← (m.derive s.window mean).mapError .failed
  return (series, derived)

/-- The curves of levels, the first of them at position `i`. The colour at its position is looked up for every level,
also for one with a colour of its own. -/
def curvesFrom (disk : Disk) (s : Settings) (m : Metric) (palette : List Colour) (i : Nat) :
    List Level → Except Halt (List Curve)
  | [] => return []
  | l :: ls => do
    let (series, baseline) ← measure disk s m l
    let colour ← lookUp palette i
    let rest ← curvesFrom disk s m palette (i + 1) ls
    return {
      load := l.load
      label := l.label
      colour := l.colour.getD colour
      marker := l.marker.getD (Marker.nth i)
      series := series
      baseline := baseline } :: rest

def assemble (disk : Disk) (s : Settings) (m : Metric) : Except Halt Chart := do
  let curves ← curvesFrom disk s m (Colour.palette s.levels.length) 0 s.levels
  return {
    metric := m
    title := m.title
    xLabel := s.axisLabel
    yLabel := m.axisLabel
    sweptName := s.sweptName
    baselineName := s.baselineName
    bounds := s.boundsOf m
    curves := curves
    warnings := Divergence.among curves }

theorem measure_eq (disk : Disk) (s : Settings) (m : Metric) (l : Level) :
    measure disk s m l = (Chart.measure disk s m l).outcome.mapError .failed := by
  rw [Chart.outcome_measure, measure, Table.load_sheet, Table.load_sheet]
  cases (Table.load disk (s.sweptPath l) 4).outcome with
  | error e => rfl
  | ok swept =>
    simp only [Except.map, mapError_ok, ok_bind, Table.groupMean_sheet]
    cases swept.groupMean 0 m.sweptColumn with
    | error e => rfl
    | ok means =>
      simp only [mapError_ok, ok_bind]
      cases (Table.load disk (s.baselinePath l) 3).outcome with
      | error e => rfl
      | ok baseline =>
        simp only [mapError_ok, ok_bind, Table.reduce_sheet, mapError_bind]
        rfl

/-- Every level finds its colour in a palette of as many colours as there are levels. -/
theorem curvesFrom_eq (disk : Disk) (s : Settings) (m : Metric) {n i : Nat} {ls : List Level} (h : i + ls.length ≤ n) :
    curvesFrom disk s m (Colour.palette n) i ls = (Chart.curvesFrom disk s m n i ls).outcome.mapError .failed := by
  induction ls generalizing i with
  | nil => rfl
  | cons l ls ih =>
    rw [List.length_cons] at h
    have hcolour : lookUp (Colour.palette n) i = .ok (Colour.spread n i) := by
      rw [lookUp_of_lt (by simp [Colour.palette]; omega), Colour.getElem_palette]
    rw [Chart.outcome_curvesFrom_cons, curvesFrom, measure_eq, ih (by omega), hcolour]
    cases (Chart.measure disk s m l).outcome with
    | error e => rfl
    | ok measured => cases (Chart.curvesFrom disk s m n (i + 1) ls).outcome <;> rfl

theorem assemble_eq (disk : Disk) (s : Settings) (m : Metric) :
    assemble disk s m = (Chart.assemble disk s m).outcome.mapError .failed := by
  rw [assemble, curvesFrom_eq disk s m (by simp)]
  simp only [Chart.assemble, Traced.outcome_bind, Chart.outcome_warn, Traced.outcome_pure]
  cases (Chart.curvesFrom disk s m s.levels.length 0 s.levels).outcome <;> rfl

/-- The widths of columns. -/
def widths (columns : Nat) (rows : List (List String)) : Except Halt (List Nat) :=
  (List.range columns).mapM fun column =>
    rows.foldlM (fun w row => return max w (← lookUp row column).utf8ByteSize) 0

/-- The lines of a report with columns of some widths. -/
def lines (c : Chart) (ws : List Nat) : List String :=
  s!"== {c.title} ({c.yLabel}) ==" :: Report.line ws c.headerCells :: Report.rule ws
    :: c.bodyCells.map (Report.line ws) ++ c.warnings.map fun w => s!"warning: {w.text}"

def report (c : Chart) : Except Halt String := do
  let ws ← widths c.headerCells.length (c.headerCells :: c.bodyCells)
  match Report.tooWide? ws with
  | some e => .error (.stopped e)
  | none => return String.join ((lines c ws).map (· ++ "\n"))

theorem widths_eq {header : List String} {body : List (List String)}
    (h : ∀ row ∈ body, row.length = header.length) :
    widths header.length (header :: body) = .ok (Report.widths header body) := by
  have hrows : ∀ row ∈ header :: body, row.length = header.length := List.forall_mem_cons.2 ⟨rfl, h⟩
  have hcolumn {column : Nat} (hlt : column < header.length) (rows : List (List String))
      (hrows : ∀ row ∈ rows, row.length = header.length) (w : Nat) :
      rows.foldlM (fun w row => return max w (← lookUp row column).utf8ByteSize) w =
        (.ok (rows.foldl (fun w row => max w (row.getD column "").utf8ByteSize) w) : Except Halt Nat) := by
    induction rows generalizing w with
    | nil => rfl
    | cons row rows ih =>
      obtain ⟨hrow, hrest⟩ := List.forall_mem_cons.1 hrows
      have hin : column < row.length := hrow ▸ hlt
      rw [List.foldlM_cons, lookUp_of_lt hin, ok_bind, List.foldl_cons, List.getD_eq_getElem _ _ hin]
      exact ih hrest _
  rw [Report.widths_eq h, widths, mapM_eq_ok_iff, List.map_map]
  exact List.map_congr_left fun column hmem => hcolumn (List.mem_range.1 hmem) _ hrows 0

theorem report_eq (c : Chart) : report c = c.report.mapError .stopped := by
  rw [report, widths_eq fun row => Chart.length_of_mem_bodyCells, ok_bind, Chart.report]
  cases Report.tooWide? (Report.widths c.headerCells c.bodyCells) <;> rfl

def chartReport (disk : Disk) (s : Settings) (m : Metric) : Except Halt String := do
  report (← assemble disk s m)

/-- No look-up ever misses. What is read has as many values in every row as it says, all of them finite; on rows of
that many values the reductions are those of the table, whatever the columns; charts and reports are those made from
tables. So every metric ends in a report or a failure, unless a cell of its chart is too long for a report. -/
theorem never_missed (s : Settings) (disk : Disk) :
    (∀ path width source t, Sheet.read path width source = .ok t → t.width = width ∧ t.Sound) ∧
    (∀ t : Sheet, (∀ row ∈ t.rows, row.length = t.width) → ∃ table : Table, table.sheet = t ∧ ∀ key value values,
      t.groupMeans key values = (table.groupMeans key values).mapError .failed ∧
      t.groupMean key value = (table.groupMean key value).mapError .failed ∧
      t.overallMean value = (table.overallMean value).mapError .failed ∧
      t.meanOfGroupMeans key value = (table.meanOfGroupMeans key value).mapError .failed) ∧
    (∀ m, assemble disk s m = (Chart.assemble disk s m).outcome.mapError .failed) ∧
    (∀ chart, report chart = chart.report.mapError .stopped) ∧
    ∀ m, (∃ chart text, (Chart.assemble disk s m).outcome = .ok chart ∧ chart.report = .ok text ∧
        chartReport disk s m = .ok text) ∨
      (∃ e, (Chart.assemble disk s m).outcome = .error e ∧ chartReport disk s m = .error (.failed e)) ∨
      ∃ chart e, (Chart.assemble disk s m).outcome = .ok chart ∧
        (∃ row ∈ chart.headerCells :: chart.bodyCells, ∃ cell ∈ row, Report.widest < cell.utf8ByteSize) ∧
        chartReport disk s m = .error (.stopped e) := by
  refine ⟨fun path width source t => Sheet.sound_of_read, fun t hrows => ?_, assemble_eq disk s, report_eq, fun m => ?_⟩
  · obtain ⟨table, rfl⟩ := Sheet.exists_table hrows
    exact ⟨table, rfl, fun key value values => ⟨table.groupMeans_sheet key values, table.groupMean_sheet key value,
      table.overallMean_sheet value, table.meanOfGroupMeans_sheet key value⟩⟩
  · rw [chartReport, assemble_eq]
    cases hchart : (Chart.assemble disk s m).outcome with
    | error e => exact .inr (.inl ⟨e, rfl, rfl⟩)
    | ok chart =>
      rw [mapError_ok, ok_bind, report_eq]
      cases hreport : chart.report with
      | ok text => exact .inl ⟨chart, text, rfl, hreport, rfl⟩
      | error e =>
        refine .inr (.inr ⟨chart, e, rfl, ?_, rfl⟩)
        by_contra hshort
        push Not at hshort
        obtain ⟨text, htext⟩ := Chart.exists_report_iff.2 hshort
        rw [hreport] at htext
        cases htext

theorem chartReport_of_long_label {s : Settings} (disk : Disk) (m : Metric) (hlevels : s.levels = [])
    (hlabel : Report.widest < s.axisLabel.utf8ByteSize) : ∃ e, chartReport disk s m = .error (.stopped e) := by
  obtain ⟨chart, hok, -, hsame, -⟩ := Chart.exists_assemble_of_no_levels disk m hlevels
  obtain ⟨e, he⟩ := Chart.report_of_long_label (hsame ▸ hlabel)
  refine ⟨e, ?_⟩
  rw [chartReport, assemble_eq, hok, mapError_ok, ok_bind, report_eq, he]
  rfl

/-- One byte too many in a label is enough to be left without a report. -/
theorem long_label_stops : ∃ e, chartReport (fun _ => none)
    { Settings.standard with levels := [], axisLabel := String.ofList (List.replicate 65536 'x') } .latency =
      .error (.stopped e) := by
  refine chartReport_of_long_label _ _ rfl ?_
  rw [utf8ByteSize_replicate]
  decide

end Indexed
end LoadSweep
