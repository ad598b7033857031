import LoadSweep.Proofs.Chart.Report

/-! Widths are counted in bytes and spaces are filled in by characters, of which a cell has no more than bytes. So
every cell has its place, whatever characters it is made of: `report_aligned` says that header, rule and rows of a
report have the same number of characters, and that a column is the same range of characters in all of them. -/
namespace LoadSweep

theorem utf8ByteSize_ofList_cons (c : Char) (cs : List Char) :
    (String.ofList (c :: cs)).utf8ByteSize = c.utf8Size + (String.ofList cs).utf8ByteSize := by
  rw [String.ofList_cons, String.utf8ByteSize_append, String.utf8ByteSize_singleton]

/-- A character has at least one byte. -/
theorem length_le_utf8ByteSize (s : String) : s.length ≤ s.utf8ByteSize := by
  have go (cs : List Char) : cs.length ≤ (String.ofList cs).utf8ByteSize := by
    induction cs with
    | nil => exact Nat.zero_le _
    | cons c cs ih =>
      have hpos := c.utf8Size_pos
      rw [utf8ByteSize_ofList_cons, List.length_cons]
      omega
  have h := go s.toList
  rwa [String.ofList_toList, String.length_toList] at h

theorem utf8ByteSize_replicate (n : Nat) (c : Char) :
    (String.ofList (List.replicate n c)).utf8ByteSize = n * c.utf8Size := by
  induction n with
  | zero => rw [Nat.zero_mul]; rfl
  | succ n ih => rw [List.replicate_succ, utf8ByteSize_ofList_cons, ih, Nat.succ_mul, Nat.add_comm]

namespace Report

/-- How many characters a line has: those of the columns, and two between columns. -/
def lineWidth (ws : List Nat) : Nat := ws.foldr (· + ·) 0 + 2 * (ws.length - 1)

/-- Where a column begins: behind the columns before it and the two characters after each of them. -/
def offset (ws : List Nat) (column : Nat) : Nat := (ws.take column).foldr (· + ·) 0 + 2 * column

/-- What stands in a column: the cell and spaces up to the width, after the cell in the first column and before it in
the others. -/
def field (column w : Nat) (cell : String) : List Char :=
  if column = 0 then cell.toList ++ List.replicate (w - cell.length) ' '
  else List.replicate (w - cell.length) ' ' ++ cell.toList

/-- A line in which every cell stands whole in its column, with two spaces between columns. -/
structure Aligned (ws : List Nat) (cells : List String) (text : String) : Prop where
  length_cells : cells.length = ws.length
  length_text : text.length = lineWidth ws
  fits : ∀ (column w : Nat) (cell : String), ws[column]? = some w → cells[column]? = some cell → cell.length ≤ w
  cell : ∀ (column w : Nat) (cell : String), ws[column]? = some w → cells[column]? = some cell →
    (text.toList.drop (offset ws column)).take w = field column w cell
  gap : ∀ column w, ws[column]? = some w → column + 1 < ws.length →
    (text.toList.drop (offset ws column + w)).take 2 = [' ', ' ']

/-- A text that is a table: a title, a header, a rule, rows and notes, each on a line of its own, where the cells of the
header and of the rows stand in columns. -/
structure Tabulates (ws : List Nat) (title : String) (header : List String) (rows : List (List String))
    (notes : List String) (text : String) : Prop where
  lines : text = String.join (List.map (· ++ "\n")
    ([title, line ws header, rule ws] ++ rows.map (line ws) ++ notes))
  aligned : ∀ cells ∈ header :: rows, Aligned ws cells (line ws cells)

section

variable {f : List Char} {fs : List (List Char)} {column : Nat}

theorem offset_cons (w : Nat) (ws : List Nat) (column : Nat) :
    offset (w :: ws) (column + 1) = w + 2 + offset ws column := by
  simp only [offset, List.take_succ_cons, List.foldr_cons]
  omega

theorem length_intercalate (fs : List (List Char)) :
    ([' ', ' '].intercalate fs).length = lineWidth (fs.map List.length) := by
  induction fs with
  | nil => rfl
  | cons f fs ih =>
    cases fs with
    | nil => simp [lineWidth]
    | cons g fs =>
      simp only [lineWidth, List.intercalate_cons_cons, List.length_append, List.map_cons, List.foldr_cons,
        List.length_cons, List.length_nil, List.length_map] at ih ⊢
      omega

/-- From the offset of a column on a line goes on with what stands in that column. -/
theorem drop_intercalate (h : fs[column]? = some f) :
    ([' ', ' '].intercalate fs).drop (offset (fs.map List.length) column) =
      [' ', ' '].intercalate (f :: fs.drop (column + 1)) := by
  induction column generalizing fs with
  | zero =>
    cases fs with
    | nil => simp at h
    | cons g fs =>
      obtain rfl : g = f := by simpa using h
      rfl
  | succ column ih =>
    match fs, h with
    | [_], h => simp at h
    | g :: g' :: fs, h =>
      have hrest := @ih (g' :: fs) (by simpa using h)
      rw [List.intercalate_cons_cons, List.map_cons, offset_cons, ← List.drop_drop, List.drop_left' (by simp), hrest]
      rfl

theorem take_drop_intercalate (h : fs[column]? = some f) :
    (([' ', ' '].intercalate fs).drop (offset (fs.map List.length) column)).take f.length = f := by
  rw [drop_intercalate h]
  cases fs.drop (column + 1) with
  | nil => rw [List.intercalate_singleton, List.take_length]
  | cons g rest => rw [List.intercalate_cons_cons, List.append_assoc, List.take_left]

theorem gap_intercalate (h : fs[column]? = some f) (hlt : column + 1 < fs.length) :
    (([' ', ' '].intercalate fs).drop (offset (fs.map List.length) column + f.length)).take 2 = [' ', ' '] := by
  rw [← List.drop_drop, drop_intercalate h]
  cases hrest : fs.drop (column + 1) with
  | nil =>
    rw [List.drop_eq_nil_iff] at hrest
    omega
  | cons g rest =>
    rw [List.intercalate_cons_cons, List.append_assoc, List.drop_left]
    rfl

end

variable {ws : List Nat} {cells : List String}

theorem length_field {column w : Nat} {cell : String} (h : cell.length ≤ w) : (field column w cell).length = w := by
  have hcell : cell.toList.length = cell.length := String.length_toList
  unfold field
  split
  · rw [List.length_append, List.length_replicate, hcell]
    omega
  · rw [List.length_append, List.length_replicate, hcell]
    omega

/-- What stands in the columns of a line. -/
def fields (ws : List Nat) (cells : List String) : List (List Char) :=
  (ws.zip cells).mapIdx fun column p => field column p.1 p.2

theorem getElem?_fields {column w : Nat} {cell : String} (hw : ws[column]? = some w)
    (hcell : cells[column]? = some cell) : (fields ws cells)[column]? = some (field column w cell) := by
  have hzip : (ws.zip cells)[column]? = some (w, cell) := List.getElem?_zip_eq_some.2 ⟨hw, hcell⟩
  rw [fields, List.getElem?_mapIdx, hzip, Option.map_some]

theorem toList_line (h : cells.length = ws.length) :
    (line ws cells).toList = [' ', ' '].intercalate (fields ws cells) := by
  cases ws with
  | nil =>
    obtain rfl : cells = [] := by simpa using h
    rfl
  | cons w ws =>
    cases cells with
    | nil => simp at h
    | cons cell cells =>
      have hfirst : (padRight w cell).toList = field 0 w cell := by simp [field, padRight, spaces]
      have hrest : (List.zipWith padLeft ws cells).map String.toList =
          (ws.zip cells).mapIdx fun column p => field (column + 1) p.1 p.2 :=
        List.ext_getElem (by simp) fun i hi hi' => by simp [field, padLeft, spaces]
      simp only [line, String.toList_intercalate, List.map_cons, hfirst, hrest, fields, List.zip_cons_cons,
        List.mapIdx_cons]
      rfl

theorem aligned_line (h : cells.length = ws.length)
    (fits : ∀ (column w : Nat) (cell : String), ws[column]? = some w → cells[column]? = some cell → cell.length ≤ w) :
    Aligned ws cells (line ws cells) := by
  have hwidths : (fields ws cells).map List.length = ws := by
    refine List.ext_getElem? fun column => ?_
    rw [List.getElem?_map]
    cases hw : ws[column]? with
    | none => simpa [fields, h] using hw
    | some w =>
      have hlt : column < cells.length := h ▸ (List.getElem?_eq_some_iff.1 hw).1
      have hcell : cells[column]? = some cells[column] := List.getElem?_eq_getElem hlt
      rw [getElem?_fields hw hcell, Option.map_some, length_field (fits column w _ hw hcell)]
  have htext := toList_line h
  constructor
  case length_cells => exact h
  case fits => exact fits
  case length_text => rw [← String.length_toList, htext, length_intercalate, hwidths]
  case cell =>
    intro column w cell hw hcell
    have hfield := take_drop_intercalate (getElem?_fields hw hcell)
    rwa [hwidths, length_field (fits column w cell hw hcell), ← htext] at hfield
  case gap =>
    intro column w hw hlt
    have hcell : cells[column]? = some cells[column] := List.getElem?_eq_getElem (by omega)
    have hgap := gap_intercalate (getElem?_fields hw hcell) (by simpa [fields, h] using hlt)
    rwa [hwidths, length_field (fits column w _ hw hcell), ← htext] at hgap

variable {header : List String} {body : List (List String)}

theorem length_widths (h : ∀ row ∈ body, row.length = header.length) : (widths header body).length = header.length := by
  rw [widths_eq h, List.length_map, List.length_range]

/-- No cell is longer than its column is wide. -/
theorem utf8ByteSize_le_of_widths (h : ∀ row ∈ body, row.length = header.length) {row : List String}
    (hrow : row ∈ header :: body) {column w : Nat} {cell : String} (hw : (widths header body)[column]? = some w)
    (hcell : row[column]? = some cell) : cell.utf8ByteSize ≤ w := by
  rw [widths_eq h, List.getElem?_map, Option.map_eq_some_iff] at hw
  obtain ⟨i, hrange, rfl⟩ := hw
  obtain ⟨_, hcolumn⟩ := List.getElem?_eq_some_iff.1 hrange
  rw [List.getElem_range] at hcolumn
  subst hcolumn
  have hle : (row.getD column "").utf8ByteSize ≤ columnWidth (header :: body) column :=
    columnWidth_le_iff.1 (Nat.le_refl _) row hrow
  simpa [List.getD_eq_getElem?_getD, hcell] using hle

end Report

namespace Chart

/-- The cells of the rows of keys in a report. -/
def keyRows (c : Chart) : List (List String) := c.ticks.map c.keyCells

theorem aligned_cells (c : Chart) {cells : List String} (h : cells ∈ c.headerCells :: c.bodyCells) :
    Report.Aligned (Report.widths c.headerCells c.bodyCells) cells
      (Report.line (Report.widths c.headerCells c.bodyCells) cells) := by
  have hcount : ∀ row ∈ c.bodyCells, row.length = c.headerCells.length := fun row => length_of_mem_bodyCells
  have hrows : ∀ row ∈ c.headerCells :: c.bodyCells, row.length = c.headerCells.length :=
    List.forall_mem_cons.2 ⟨rfl, hcount⟩
  have hlength := (hrows cells h).trans (Report.length_widths hcount).symm
  refine Report.aligned_line hlength fun column w cell hw hcell => ?_
  exact Nat.le_trans (length_le_utf8ByteSize cell) (Report.utf8ByteSize_le_of_widths hcount h hw hcell)

/-- There is a report exactly if every cell fits, and then it is the table of the cells. -/
theorem report_eq_ok_iff_tabulates {c : Chart} {text : String} : c.report = .ok text ↔
    (∀ row ∈ c.headerCells :: (c.keyRows ++ [c.baselineCells]), ∀ cell ∈ row, cell.utf8ByteSize ≤ Report.widest) ∧
    Report.Tabulates (Report.widths c.headerCells (c.keyRows ++ [c.baselineCells]))
      s!"== {c.title} ({c.yLabel}) ==" c.headerCells (c.keyRows ++ [c.baselineCells])
      (c.warnings.map fun w => s!"warning: {w.text}") text := by
  rw [report_eq_ok_iff]
  exact and_congr_right fun _ => ⟨fun h => ⟨h, fun cells => c.aligned_cells⟩, fun h => h.lines⟩

/-- The layout of a report. It exists exactly if no cell has more bytes than the number of places that a cell can be
padded to. It is the title, the header, a rule, the rows of keys, the row of baselines and the warnings, each on a line.
There is a column for the keys and one for each curve, as wide as the most bytes of a cell in it. The rule and the lines
from the header to the baselines have as many characters as the columns and the gaps between them, and in every such
line each cell stands whole in its column. -/
theorem report_aligned (c : Chart) :
    let ws := Report.widths c.headerCells c.bodyCells
    (∀ text, c.report = .ok text ↔
      (∀ row ∈ c.headerCells :: c.bodyCells, ∀ cell ∈ row, cell.utf8ByteSize ≤ Report.widest) ∧
      text = String.join (List.map (· ++ "\n")
        ([s!"== {c.title} ({c.yLabel}) ==", Report.line ws c.headerCells, Report.rule ws]
          ++ (c.ticks.map fun k => Report.line ws (c.keyCells k)) ++ [Report.line ws c.baselineCells]
          ++ c.warnings.map fun w => s!"warning: {w.text}"))) ∧
    ws = (List.range (c.curves.length + 1)).map (Report.columnWidth (c.headerCells :: c.bodyCells)) ∧
    (Report.rule ws).toList = List.replicate (Report.lineWidth ws) '-' ∧
    ∀ cells ∈ c.headerCells :: c.bodyCells, Report.Aligned ws cells (Report.line ws cells) := by
  intro ws
  refine ⟨fun text => ?_, ?_, ?_, fun cells => c.aligned_cells⟩
  · rw [report_eq_ok_iff]
    simp [reportLines, bodyCells, ws, Function.comp_def]
  · have hcolumns : c.headerCells.length = c.curves.length + 1 := by simp [headerCells]
    rw [← hcolumns]
    exact Report.widths_eq fun row => length_of_mem_bodyCells
  · rw [Report.rule, String.toList_ofList]
    rfl

/-- A chart without curves. -/
def bare (label : String) : Chart where
  metric := .latency
  title := "Latency"
  xLabel := label
  yLabel := "s"
  sweptName := "swept"
  baselineName := "baseline"
  bounds := none
  curves := []
  warnings := []

/-- A label of 21846 characters, each of them with three bytes, is not laid out. -/
theorem multibyte_label_stops : (String.ofList (List.replicate 21846 '€')).length ≤ Report.widest ∧
    ∃ e, (bare (String.ofList (List.replicate 21846 '€'))).report = .error e := by
  have hsize : (bare (String.ofList (List.replicate 21846 '€'))).xLabel.utf8ByteSize = 21846 * '€'.utf8Size :=
    utf8ByteSize_replicate _ _
  refine ⟨?_, report_of_long_label ?_⟩
  · rw [String.length_ofList, List.length_replicate]
    decide
  · rw [hsize]
    decide

end Chart
end LoadSweep
