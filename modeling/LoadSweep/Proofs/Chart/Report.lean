import LoadSweep.Chart.Report

/-! Each row of a report has a cell in every column, and a column is as wide as the longest of its cells. So a report
can be laid out exactly if no cell is too long. -/
namespace LoadSweep

namespace Report

variable {header : List String} {body : List (List String)}

/-- The most bytes of a cell in a column. -/
def columnWidth (rows : List (List String)) (column : Nat) : Nat :=
  rows.foldl (fun w row => max w (row.getD column "").utf8ByteSize) 0

theorem foldl_max_le_iff {α : Type} (size : α → Nat) (xs : List α) (w n : Nat) :
    xs.foldl (fun w x => max w (size x)) w ≤ n ↔ w ≤ n ∧ ∀ x ∈ xs, size x ≤ n := by
  induction xs generalizing w with
  | nil => simp
  | cons x xs ih => simp only [List.foldl_cons, ih, Nat.max_le, List.forall_mem_cons, and_assoc]

theorem columnWidth_le_iff {rows : List (List String)} {column n : Nat} :
    columnWidth rows column ≤ n ↔ ∀ row ∈ rows, (row.getD column "").utf8ByteSize ≤ n := by
  rw [columnWidth, foldl_max_le_iff (fun row : List String => (row.getD column "").utf8ByteSize)]
  exact and_iff_right (Nat.zero_le n)

/-- Widening widths by rows widens each of them by the cells of its column. -/
theorem foldl_widen {ws : List Nat} (h : ∀ row ∈ body, row.length = ws.length) :
    body.foldl (fun ws row => List.zipWith max ws (row.map (·.utf8ByteSize))) ws =
      (List.range ws.length).map fun column =>
        body.foldl (fun w row => max w (row.getD column "").utf8ByteSize) (ws.getD column 0) := by
  induction body generalizing ws with
  | nil =>
    refine List.ext_getElem (by simp) fun i hi _ => ?_
    have hlt : i < ws.length := hi
    simp [hlt]
  | cons row body ih =>
    obtain ⟨hrow, hbody⟩ := List.forall_mem_cons.1 h
    have hlength : (List.zipWith max ws (row.map (·.utf8ByteSize))).length = ws.length := by simp [hrow]
    rw [List.foldl_cons, ih (by rwa [hlength]), hlength]
    refine List.map_congr_left fun column hcolumn => ?_
    have hlt : column < ws.length := List.mem_range.1 hcolumn
    have hwidened : (List.zipWith max ws (row.map (·.utf8ByteSize))).getD column 0 =
        max (ws.getD column 0) (row.getD column "").utf8ByteSize := by
      have hcell : column < row.length := hrow ▸ hlt
      rw [List.getD_eq_getElem?_getD, List.getElem?_zipWith]
      simp [List.getD_eq_getElem?_getD, hlt, hcell]
    rw [hwidened, List.foldl_cons]

theorem widths_eq (h : ∀ row ∈ body, row.length = header.length) :
    widths header body = (List.range header.length).map (columnWidth (header :: body)) := by
  have hbody : ∀ row ∈ body, row.length = (header.map (·.utf8ByteSize)).length := by simpa using h
  rw [widths, foldl_widen hbody, List.length_map]
  refine List.map_congr_left fun column hcolumn => ?_
  have hlt : column < header.length := List.mem_range.1 hcolumn
  rw [columnWidth, List.foldl_cons]
  congr 1
  simp [List.getD_eq_getElem?_getD, hlt]

/-- No column is wider than its cells. -/
theorem forall_widths_le_iff (h : ∀ row ∈ body, row.length = header.length) {n : Nat} :
    (∀ w ∈ widths header body, w ≤ n) ↔ ∀ row ∈ header :: body, ∀ cell ∈ row, cell.utf8ByteSize ≤ n := by
  have hrows : ∀ row ∈ header :: body, row.length = header.length := List.forall_mem_cons.2 ⟨rfl, h⟩
  rw [widths_eq h, List.forall_mem_map]
  simp only [List.mem_range, columnWidth_le_iff]
  constructor
  · intro hle row hrow cell hcell
    obtain ⟨column, hcolumn, rfl⟩ := List.mem_iff_getElem.1 hcell
    simpa [hcolumn] using hle column (hrows row hrow ▸ hcolumn) row hrow
  · intro hle column hcolumn row hrow
    have hlt : column < row.length := (hrows row hrow).symm ▸ hcolumn
    simpa [hlt] using hle row hrow row[column] (List.getElem_mem hlt)

theorem tooWide?_eq_none_iff {ws : List Nat} : tooWide? ws = none ↔ ∀ w ∈ ws, w ≤ widest := by
  simp [tooWide?]

end Report

namespace Chart

theorem length_of_mem_bodyCells {c : Chart} {row : List String} (h : row ∈ c.bodyCells) :
    row.length = c.headerCells.length := by
  simp only [bodyCells, List.mem_append, List.mem_map, List.mem_singleton] at h
  obtain ⟨key, -, rfl⟩ | rfl := h
  · simp [keyCells, headerCells]
  · simp [baselineCells, headerCells]

/-- A report that can be laid out is its lines. -/
theorem report_eq_ok_iff {c : Chart} {text : String} : c.report = .ok text ↔
    (∀ row ∈ c.headerCells :: c.bodyCells, ∀ cell ∈ row, cell.utf8ByteSize ≤ Report.widest) ∧
      text = String.join (c.reportLines.map (· ++ "\n")) := by
  rw [← Report.forall_widths_le_iff fun row => length_of_mem_bodyCells, ← Report.tooWide?_eq_none_iff, report]
  cases Report.tooWide? (Report.widths c.headerCells c.bodyCells) <;> simp [eq_comm]

/-- A report can be laid out exactly if every cell fits. -/
theorem exists_report_iff {c : Chart} : (∃ text, c.report = .ok text) ↔
    ∀ row ∈ c.headerCells :: c.bodyCells, ∀ cell ∈ row, cell.utf8ByteSize ≤ Report.widest := by
  simp only [report_eq_ok_iff, exists_and_left, exists_eq, and_true]

theorem report_of_long_cell {c : Chart} {row : List String} {cell : String}
    (hrow : row ∈ c.headerCells :: c.bodyCells) (hcell : cell ∈ row) (h : Report.widest < cell.utf8ByteSize) :
    ∃ e, c.report = .error e := by
  cases hreport : c.report with
  | error e => exact ⟨e, rfl⟩
  | ok text =>
    have hfits := exists_report_iff.1 ⟨text, hreport⟩ row hrow cell hcell
    exact absurd hfits (Nat.not_le.2 h)

/-- The label of the horizontal axis is one of the cells. -/
theorem report_of_long_label {c : Chart} (h : Report.widest < c.xLabel.utf8ByteSize) : ∃ e, c.report = .error e :=
  report_of_long_cell List.mem_cons_self List.mem_cons_self h

end Chart
end LoadSweep
