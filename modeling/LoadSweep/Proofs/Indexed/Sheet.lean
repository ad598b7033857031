import LoadSweep.Proofs.Chart.Report
import LoadSweep.Proofs.Chart.Stages
import LoadSweep.Proofs.Table.Columns
import LoadSweep.Proofs.Table.Means

/-! A sheet is a table that promises nothing: a row holds however many numbers it holds, and a column is looked up by
its number in each row, which may miss. Sheets are read and averaged as tables are, with the checks that the reader
and the reductions make and no others. No look-up misses on a sheet that was read, and the results are those of the
table. -/
namespace LoadSweep

/-- Why a step has no result. -/
inductive Halt where
  | failed (e : Failure)
  /-- A report was too wide. -/
  | stopped (e : TooWide)
  /-- A list of some length was asked for an element behind its end. -/
  | missed (position length : Nat)

/-- The element at a position. -/
def lookUp {α : Type} (xs : List α) (i : Nat) : Except Halt α :=
  match xs[i]? with
  | some x => .ok x
  | none => .error (.missed i xs.length)

theorem lookUp_of_lt {α : Type} {xs : List α} {i : Nat} (h : i < xs.length) : lookUp xs i = .ok xs[i] := by
  simp [lookUp, h]

structure Sheet where
  source : String
  width : Nat
  rows : List (List Float)

/-- The table without what its type promises. -/
def Table.sheet (t : Table) : Sheet := ⟨t.source, t.width, t.rows.map (·.toList)⟩

namespace Sheet

/-- Each row has as many values as the sheet says, and all values are finite. -/
structure Sound (t : Sheet) : Prop where
  length : ∀ row ∈ t.rows, row.length = t.width
  finite : ∀ row ∈ t.rows, ∀ x ∈ row, x.isFinite = true

def readNumbers (column : Nat) : List (List Char) → Except RowFlaw (List Float)
  | [] => .ok []
  | w :: ws =>
    match Table.number? w with
    | none => .error (.notNumber column (String.ofList w))
    | some x => (readNumbers (column + 1) ws).map (x :: ·)

/-- The numbers that words spell. Their count is compared with `width`, and nothing else is known of it. -/
def readRow (width : Nat) (ws : List (List Char)) : Except RowFlaw (List Float) :=
  if ws.length = width then readNumbers 0 ws else .error (.wrongCount width ws.length)

def readRecord (width : Nat) (bytes : List UInt8) : Except RowFlaw (Option (List Float)) :=
  match Table.recordWords bytes with
  | .error flaw => .error flaw
  | .ok [] => .ok none
  | .ok ws => (readRow width ws).map some

def readRecords (path : String) (width : Nat) : List Record → Except Failure (List (List Float))
  | [] => .ok []
  | r :: rs =>
    match readRecord width r.bytes with
    | .error flaw => .error (.malformedRow path r.line flaw)
    | .ok row => (readRecords path width rs).map (row.toList ++ ·)

def read (path : String) (width : Nat) (s : Source) : Except Failure Sheet :=
  match readRecords path width (Record.ofSource s) with
  | .error failure => .error failure
  | .ok rows => if s.isCut then .error (.unreadable path) else .ok ⟨path, width, rows⟩

theorem readNumbers_eq (column : Nat) (ws : List (List Char)) :
    readNumbers column ws = (Table.readNumbers column ws).map (·.1) := by
  induction ws generalizing column with
  | nil => rfl
  | cons w ws ih =>
    unfold readNumbers Table.readNumbers
    cases Table.number? w with
    | none => rfl
    | some x =>
      simp only [ih]
      cases Table.readNumbers (column + 1) ws <;> rfl

theorem readRow_eq (width : Nat) (ws : List (List Char)) :
    readRow width ws = (Table.readRow width ws).map (·.toList) := by
  unfold readRow Table.readRow
  by_cases h : ws.length = width
  · rw [if_pos h, dif_pos h, readNumbers_eq]
    cases Table.readNumbers 0 ws <;> rfl
  · rw [if_neg h, dif_neg h]
    rfl

theorem readRecord_eq (width : Nat) (bytes : List UInt8) :
    readRecord width bytes = (Table.readRecord width bytes).map (·.map (·.toList)) := by
  unfold readRecord Table.readRecord
  cases Table.recordWords bytes with
  | error flaw => rfl
  | ok ws =>
    cases ws with
    | nil => rfl
    | cons w ws =>
      simp only [readRow_eq]
      cases Table.readRow width (w :: ws) <;> rfl

theorem readRecords_eq (path : String) (width : Nat) (rs : List Record) :
    readRecords path width rs = (Table.readRecords path width rs).map (·.map (·.toList)) := by
  induction rs with
  | nil => rfl
  | cons r rs ih =>
    unfold readRecords Table.readRecords
    rw [readRecord_eq]
    cases Table.readRecord width r.bytes with
    | error flaw => rfl
    | ok row =>
      simp only [Except.map, ih]
      cases Table.readRecords path width rs with
      | error e => rfl
      | ok rows => cases row <;> simp

/-- What is read as a sheet is the table that is read. -/
theorem read_eq (path : String) (width : Nat) (s : Source) :
    read path width s = (Table.read path width s).map Table.sheet := by
  unfold read Table.read
  rw [readRecords_eq]
  cases Table.readRecords path width (Record.ofSource s) with
  | error e => rfl
  | ok rows =>
    simp only [Except.map]
    split <;> rfl

theorem sound_of_read {path : String} {width : Nat} {s : Source} {t : Sheet} (h : read path width s = .ok t) :
    t.width = width ∧ t.Sound := by
  rw [read_eq] at h
  obtain ⟨table, htable, rfl⟩ := map_eq_ok_iff.1 h
  obtain ⟨rows, rfl⟩ := Table.read_ok htable
  have hfinite := Table.read_finite htable
  refine ⟨rfl, ⟨?_, ?_⟩⟩
  · intro row hrow
    obtain ⟨row, -, rfl⟩ := List.mem_map.1 hrow
    exact row.length_toList
  · intro row hrow x hx
    obtain ⟨row, hmem, rfl⟩ := List.mem_map.1 hrow
    obtain ⟨i, hi, rfl⟩ := List.mem_iff_getElem.1 hx
    simpa using hfinite row hmem i (by simpa using hi)

/-- A sheet with as many values in each row as it says is a table. -/
theorem exists_table {t : Sheet} (h : ∀ row ∈ t.rows, row.length = t.width) : ∃ table : Table, table.sheet = t := by
  obtain ⟨source, width, rows⟩ := t
  refine ⟨⟨source, width, rows.attach.map fun row => ⟨row.1.toArray, h row.1 row.2⟩⟩, ?_⟩
  have hrow (row : { row // row ∈ rows }) : (⟨row.1.toArray, h row.1 row.2⟩ : Row width).toList = row.1 := rfl
  simp only [Table.sheet, List.map_map, Function.comp_def, hrow, List.attach_map_subtype_val]

def checkNonEmpty (t : Sheet) : Except Halt Unit :=
  if t.rows.isEmpty then .error (.failed (.emptyDataset t.source)) else .ok ()

def checkColumn (t : Sheet) (c : Nat) : Except Halt Unit :=
  if t.width ≤ c then .error (.failed (.columnOutOfRange t.source c t.width)) else .ok ()

/-- Each mean with the value of its column. -/
def pushEach (row : List Float) : List (RunningMean Float) → List Nat → Except Halt (List (RunningMean Float))
  | m :: ms, c :: cs => do
    let x ← lookUp row c
    let rest ← pushEach row ms cs
    return m.push x :: rest
  | ms, _ => .ok ms

/-- The means of each group with the values of a row. -/
def pushRow (key : Nat) (values : List Nat) (groups : Series (List (RunningMean Float))) (row : List Float) :
    Except Halt (Series (List (RunningMean Float))) := do
  let k := Key.ofFloat (← lookUp row key)
  let means ← pushEach row ((groups.get? k).getD (List.replicate values.length .empty)) values
  return groups.insert k means

def groupMeans (t : Sheet) (key : Nat) (values : List Nat) : Except Halt (List (Series Float)) := do
  t.checkNonEmpty
  t.checkColumn key
  forM values t.checkColumn
  let groups ← t.rows.foldlM (pushRow key values) .empty
  (List.range values.length).mapM fun i => groups.tryMap fun means => return (← lookUp means i).mean

def groupMean (t : Sheet) (key value : Nat) : Except Halt (Series Float) := do
  lookUp (← t.groupMeans key [value]) 0

def overallMean (t : Sheet) (value : Nat) : Except Halt Float := do
  t.checkNonEmpty
  t.checkColumn value
  let m ← t.rows.foldlM (fun m row => return m.push (← lookUp row value)) RunningMean.empty
  return m.mean

def meanOfGroupMeans (t : Sheet) (key value : Nat) : Except Halt Float := do
  let means ← t.groupMean key value
  return runningMean means.values

end Sheet

namespace Table

variable (t : Table) (key value : Nat) (values : List Nat)

theorem checkNonEmpty_sheet : t.sheet.checkNonEmpty = t.checkNonEmpty.mapError .failed := by
  have hempty : t.sheet.rows.isEmpty = t.isEmpty := by simp [sheet, isEmpty]
  rw [Sheet.checkNonEmpty, checkNonEmpty, hempty]
  split <;> rfl

theorem checkColumn_sheet (c : Nat) : t.sheet.checkColumn c = ((t.column c).map fun _ => ()).mapError .failed := by
  change (if t.width ≤ c then _ else _) = _
  by_cases hc : c < t.width
  · rw [if_neg (Nat.not_le.2 hc), column, dif_pos hc]
    rfl
  · rw [if_pos (Nat.not_lt.1 hc), column, dif_neg hc]
    rfl

theorem forM_checkColumn_sheet :
    forM values t.sheet.checkColumn = ((t.columns values).map fun _ => ()).mapError .failed := by
  induction values with
  | nil => rfl
  | cons c cs ih =>
    rw [List.forM_cons, ih, checkColumn_sheet, columns]
    cases t.column c with
    | error e => rfl
    | ok c => cases t.columns cs <;> rfl

end Table

theorem Sheet.pushEach_eq {row : List Float} {cs : List Nat} (h : ∀ c ∈ cs, c < row.length)
    (ms : List (RunningMean Float)) (hms : ms.length = cs.length) :
    pushEach row ms cs = .ok (List.zipWith (fun m c => m.push (row.getD c 0)) ms cs) := by
  induction cs generalizing ms with
  | nil =>
    obtain rfl := List.length_eq_zero_iff.1 hms
    rfl
  | cons c cs ih =>
    obtain ⟨hc, hcs⟩ := List.forall_mem_cons.1 h
    cases ms with
    | nil => simp at hms
    | cons m ms =>
      rw [pushEach, lookUp_of_lt hc, ih hcs ms (by simpa using hms)]
      simp [hc, pure, Except.pure]

namespace Table

variable {t : Table} {values : List Nat}

/-- A row is added to its group as in the table. -/
theorem pushRow_toList (key : Fin t.width) (hvalues : ∀ c ∈ values, c < t.width) (row : Row t.width)
    (picked : Vector Float values.length) (hpicked : picked.toList = values.map (row.toList.getD · 0))
    (groups : Series (Vector (RunningMean Float) values.length)) :
    Sheet.pushRow key values (groups.map (·.toList)) row.toList =
      .ok ((groups.alter (keyOf key row) fun ms => Vector.zipWith RunningMean.push
        (ms.getD (Vector.replicate values.length .empty)) picked).map (·.toList)) := by
  have hin : ∀ c ∈ values, c < row.toList.length := by simpa using hvalues
  have hkeyed : lookUp row.toList key.val = .ok row[key] := by
    rw [lookUp_of_lt (by simp), Vector.getElem_toList]
    rfl
  have hstart (k : Key) : ((groups.map (·.toList)).get? k).getD (List.replicate values.length .empty) =
      ((groups.get? k).getD (Vector.replicate values.length .empty)).toList := by
    rw [Series.get?_map]
    cases groups.get? k <;> simp
  have hpush (ms : Vector (RunningMean Float) values.length) :
      List.zipWith (fun m c => m.push (row.toList.getD c 0)) ms.toList values =
        (Vector.zipWith RunningMean.push ms picked).toList := by
    rw [Vector.toList_zipWith, hpicked, List.zipWith_map_right]
  rw [Sheet.pushRow, hkeyed, ok_bind]
  dsimp only
  rw [hstart, Sheet.pushEach_eq hin _ (by simp), ok_bind, hpush, Series.alter_eq_insert, Series.map_insert]
  rfl

theorem foldlM_pushRow (key : Fin t.width) (hvalues : ∀ c ∈ values, c < t.width)
    (pick : Row t.width → Vector Float values.length)
    (hpick : ∀ row, (pick row).toList = values.map (row.toList.getD · 0)) :
    t.sheet.rows.foldlM (Sheet.pushRow key values) .empty =
      .ok ((groupFold (·.1) (Vector.replicate values.length .empty)
        (fun ms (row : Key × Vector Float values.length) => Vector.zipWith RunningMean.push ms row.2)
        (t.rows.map fun row => (keyOf key row, pick row))).map (·.toList)) := by
  rw [groupFold, List.foldl_map]
  exact foldlM_map_eq_ok _ (fun groups row => pushRow_toList key hvalues row (pick row) (hpick row) groups) t.rows .empty

/-- The means of one of the columns, looked up in every group. -/
theorem tryMap_toList {n i : Nat} (hi : i < n) (groups : Series (Vector (RunningMean Float) n)) :
    ((groups.map (·.toList)).tryMap fun means => do return (← lookUp means i).mean) =
      .ok ((groups.map (·.map (·.mean))).map (·[i])) := by
  have hlookUp (k : Key) (ms : List (RunningMean Float)) (hms : (groups.map (·.toList)).get? k = some ms) :
      (do return (← lookUp ms i).mean : Except Halt Float) = .ok (ms.getD i .empty).mean := by
    rw [Series.get?_map, Option.map_eq_some_iff] at hms
    obtain ⟨means, -, rfl⟩ := hms
    have hlt : i < means.toList.length := by simpa using hi
    rw [lookUp_of_lt hlt, ok_bind, List.getD_eq_getElem _ _ hlt]
    rfl
  rw [Series.tryMap_eq_ok hlookUp, Series.map_map, Series.map_map]
  simp [hi]

theorem groupMeans_sheet (t : Table) (key : Nat) (values : List Nat) :
    t.sheet.groupMeans key values = (t.groupMeans key values).mapError .failed := by
  rw [Sheet.groupMeans, groupMeans, groupMeansBy, checkNonEmpty_sheet, checkColumn_sheet, forM_checkColumn_sheet]
  cases t.checkNonEmpty with
  | error e => rfl
  | ok _ =>
    cases hkey : t.column key with
    | error e => rfl
    | ok key' =>
      cases hcolumns : t.columns values with
      | error e => rfl
      | ok columns =>
        obtain rfl := val_of_column hkey
        have hval := val_of_columns hcolumns
        have hvalues : ∀ c ∈ values, c < t.width := by simp [← hval]
        have hpick (row : Row t.width) : (columns.map fun c => Cell.number (row.get c)).toList = values.map (row.toList.getD · 0) := by
          conv_rhs => rw [← hval, List.map_map]
          rw [Vector.toList_map]
          refine List.map_congr_left fun c _ => ?_
          rw [Function.comp_apply, List.getD_eq_getElem _ _ (by simp), Vector.getElem_toList]
          rfl
        simp only [mapError_ok, ok_bind, Except.map, foldlM_pushRow key' hvalues _ hpick]
        refine mapM_eq_ok_iff.2 (List.ext_getElem (by simp) fun i hi _ => ?_)
        have hlt : i < values.length := by simpa using hi
        simp only [List.getElem_map, List.getElem_range, List.getElem_ofFn]
        exact tryMap_toList hlt _

theorem groupMean_sheet (t : Table) (key value : Nat) :
    t.sheet.groupMean key value = (t.groupMean key value).mapError .failed := by
  rw [Sheet.groupMean, groupMeans_sheet, groupMeans_singleton]
  cases t.groupMean key value <;> rfl

theorem overallMean_sheet (t : Table) (value : Nat) :
    t.sheet.overallMean value = (t.overallMean value).mapError .failed := by
  rw [Sheet.overallMean, overallMean, overallMeanBy, checkNonEmpty_sheet, checkColumn_sheet]
  cases t.checkNonEmpty with
  | error e => rfl
  | ok _ =>
    cases hvalue : t.column value with
    | error e => rfl
    | ok value' =>
      obtain rfl := val_of_column hvalue
      have hpush (m : RunningMean Float) (row : Row t.width) :
          (do return m.push (← lookUp row.toList value'.val) : Except Halt (RunningMean Float)) =
            .ok (m.push row[value']) := by
        rw [lookUp_of_lt (by simp), Vector.getElem_toList]
        rfl
      have hfold : t.sheet.rows.foldlM (fun m row => do return m.push (← lookUp row value'.val)) RunningMean.empty =
          .ok (t.rows.foldl (fun m row => m.push row[value']) RunningMean.empty) :=
        foldlM_map_eq_ok id hpush t.rows RunningMean.empty
      simp only [mapError_ok, ok_bind, Except.map, hfold, runningMean, List.foldl_map]
      rfl

-- A row that is shorter than its sheet says is missed, so a look-up in a table is not safe by itself.
example : (⟨"ragged", 2, [[1]]⟩ : Sheet).overallMean 1 = .error (.missed 1 1) := rfl

theorem meanOfGroupMeans_sheet (t : Table) (key value : Nat) :
    t.sheet.meanOfGroupMeans key value = (t.meanOfGroupMeans key value).mapError .failed := by
  rw [Sheet.meanOfGroupMeans, meanOfGroupMeans_eq_bind, groupMean_sheet]
  cases t.groupMean key value <;> rfl

end Table
end LoadSweep
