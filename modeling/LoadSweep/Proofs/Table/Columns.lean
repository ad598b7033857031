import LoadSweep.Proofs.Table.Groups

/-! Averaging several columns in one pass over the rows gives each of them the means that it has on its own, and fails
as the first of them that fails. -/
namespace LoadSweep

/-- A fold of groups is read through a function that the steps respect. -/
theorem map_groupFold {ρ σ τ : Type} {key : ρ → Key} {start : σ} {step : σ → ρ → σ} (view : σ → τ)
    (step' : τ → ρ → τ) (h : ∀ state row, view (step state row) = step' (view state) row) (rows : List ρ) :
    (groupFold key start step rows).map view = groupFold key (view start) step' rows := by
  have hfold (states : List ρ) (state : σ) : view (states.foldl step state) = states.foldl step' (view state) :=
    (List.foldl_hom view fun state row => (h state row).symm).symm
  refine Series.ext_get? fun k => ?_
  rw [Series.get?_map, get?_groupFold, get?_groupFold]
  split
  · rw [Option.map_some, hfold]
  · rfl

/-- One column of the means of rows is the mean of the values in that column. -/
theorem map_groupedRowMeans {α : Type} [Averaging α] {width : Nat} (rows : List (Key × Vector α width)) {i : Nat}
    (hi : i < width) :
    (groupedRowMeans width rows).map (·[i]) = groupedMeans (rows.map fun row => (row.1, row.2[i])) := by
  have hpush (ms : Vector (RunningMean α) width) (row : Key × Vector α width) :
      (Vector.zipWith RunningMean.push ms row.2)[i] = ms[i].push row.2[i] := by simp
  have hview : (groupFold (·.1) (Vector.replicate width RunningMean.empty)
        (fun ms (row : Key × Vector α width) => Vector.zipWith RunningMean.push ms row.2) rows).map (·[i]) =
      groupFold (·.1) RunningMean.empty (fun m row => m.push row.2)
        (rows.map fun row : Key × Vector α width => (row.1, row.2[i])) := by
    rw [map_groupFold (·[i]) (fun m row => m.push row.2[i]) hpush, groupFold, groupFold, List.foldl_map]
    simp
  simp only [groupedMeans, ← hview, groupedRowMeans, Series.map_map]
  simp

namespace Table

variable {t : Table} {key : Nat} {values : List Nat}

theorem val_of_column {c : Nat} {column : Fin t.width} (h : t.column c = .ok column) : column.val = c := by
  unfold Table.column at h
  split_ifs at h
  cases h
  rfl

/-- Columns are found one by one, in the order of their numbers. -/
theorem columns_eq_mapM (t : Table) (values : List Nat) :
    (t.columns values).map Vector.toList = values.mapM t.column := by
  induction values with
  | nil => rfl
  | cons c cs ih =>
    rw [List.mapM_cons, ← ih, columns]
    cases t.column c with
    | error e => rfl
    | ok first =>
      cases t.columns cs with
      | error e => rfl
      | ok rest =>
        change Except.ok (#v[first] ++ rest).toList = Except.ok (first :: rest.toList)
        simp [Vector.toList_append]

theorem val_of_columns {columns : Vector (Fin t.width) values.length} (h : t.columns values = .ok columns) :
    columns.toList.map Fin.val = values := by
  have hfound : values.map t.column = columns.toList.map .ok := by
    rw [← mapM_eq_ok_iff, ← columns_eq_mapM, h]
    rfl
  refine List.ext_getElem (by simp) fun i hi hi' => ?_
  have hlt : i < columns.toList.length := by simpa using hi
  have hcolumn : t.column values[i] = .ok columns.toList[i] := by
    simpa [hi', hlt] using congrArg (·[i]?) hfound
  rw [List.getElem_map, val_of_column hcolumn]

theorem groupMeansBy_eq_map {α : Type} [Averaging α] (read : Float → α) (hrows : t.rows ≠ []) (hkey : key < t.width)
    (values : List Nat) :
    t.groupMeansBy read key values = ((t.columns values).map Vector.toList).map
      (List.map fun c => groupedMeans (t.rows.map fun row => (keyOf ⟨key, hkey⟩ row, read (row.get c)))) := by
  have hmeans (columns : Vector (Fin t.width) values.length) (i : Fin values.length) :
      (groupedRowMeans _ (t.rows.map fun row => (keyOf ⟨key, hkey⟩ row, columns.map fun c => read (row.get c)))).map
        (·.get i) = groupedMeans (t.rows.map fun row => (keyOf ⟨key, hkey⟩ row, read (row.get columns[i]))) := by
    refine (map_groupedRowMeans _ i.isLt).trans ?_
    rw [List.map_map]
    simp [Function.comp_def]
  simp only [groupMeansBy, checkNonEmpty_of_ne_nil hrows, column_of_lt hkey, ok_bind, hmeans]
  cases t.columns values with
  | error e => rfl
  | ok columns =>
    refine congrArg Except.ok (List.ext_getElem (by simp) fun i hi hi' => ?_)
    simp

theorem groupMeansBy_of_ne_nil {α : Type} [Averaging α] (read : Float → α) (hrows : t.rows ≠ []) (hkey : key < t.width)
    (values : List Nat) : t.groupMeansBy read key values = values.mapM (t.groupMeanBy read key) := by
  have hmean : t.groupMeanBy read key = _ := funext fun value => groupMeanBy_eq_map read hrows hkey value
  rw [groupMeansBy_eq_map read hrows hkey, columns_eq_mapM, hmean, mapM_map]

/-- Averaging several columns in one pass is averaging them one after the other, failures included. -/
theorem groupMeansBy_eq {α : Type} [Averaging α] (t : Table) (read : Float → α) (key : Nat) (hsome : values ≠ []) :
    t.groupMeansBy read key values = values.mapM (t.groupMeanBy read key) := by
  obtain ⟨c, cs, rfl⟩ := List.exists_cons_of_ne_nil hsome
  by_cases hrows : t.rows = []
  · rw [List.mapM_cons, groupMeanBy_of_nil read hrows, error_bind, groupMeansBy_of_nil read hrows]
  rcases Nat.lt_or_ge key t.width with hkey | hkey
  · exact groupMeansBy_of_ne_nil read hrows hkey (c :: cs)
  · rw [List.mapM_cons, groupMeanBy_of_width_le read hrows hkey, error_bind, groupMeansBy_of_width_le read hrows hkey]

theorem groupMeans_eq (t : Table) (key : Nat) (hsome : values ≠ []) :
    t.groupMeans key values = values.mapM (t.groupMean key) := groupMeansBy_eq t _ key hsome

theorem groupMeans_singleton (key value : Nat) : t.groupMeans key [value] = (t.groupMean key value).map ([·]) := by
  rw [groupMeans_eq t key (List.cons_ne_nil value []), List.mapM_cons, List.mapM_nil]
  cases t.groupMean key value <;> rfl

/-- Why there are no means of a column: there are no rows, or else there is no such key column, or else there is no
such column. -/
theorem groupMean_eq_error_iff {value : Nat} {e : Failure} :
    t.groupMean key value = .error e ↔
      t.rows = [] ∧ e = .emptyDataset t.source ∨
      t.rows ≠ [] ∧ t.width ≤ key ∧ e = .columnOutOfRange t.source key t.width ∨
      t.rows ≠ [] ∧ key < t.width ∧ t.width ≤ value ∧ e = .columnOutOfRange t.source value t.width := by
  by_cases hrows : t.rows = []
  · simp [groupMean_of_nil hrows, hrows, eq_comm]
  rcases Nat.lt_or_ge key t.width with hkey | hkey
  · rw [groupMean, groupMeanBy_eq_map _ hrows hkey, map_eq_error_iff]
    rcases Nat.lt_or_ge value t.width with hvalue | hvalue
    · simp [column_of_lt hvalue, hrows, hkey, Nat.not_le.2 hkey, Nat.not_le.2 hvalue]
    · simp [column_of_width_le hvalue, hrows, hkey, Nat.not_le.2 hkey, hvalue, eq_comm]
  · simp [groupMean_of_width_le hrows hkey, hrows, hkey, Nat.not_lt.2 hkey, eq_comm]

/-- Several columns averaged in one pass have the means that they have one by one. There are means of all of them
exactly if there are means of each; then each has its own, in the order of the columns and all at the same keys; and
otherwise the failure is that of the first column that fails, where having no rows comes before having no key column,
and that before having no such column. -/
theorem groupMeans_columnwise (t : Table) (key : Nat) (values : List Nat) (hsome : values ≠ []) :
    ((∃ series, t.groupMeans key values = .ok series) ↔ ∀ c ∈ values, ∃ means, t.groupMean key c = .ok means) ∧
    (∀ series, t.groupMeans key values = .ok series →
      series.length = values.length ∧
      (∀ (i c : Nat), values[i]? = some c → ∃ means, series[i]? = some means ∧ t.groupMean key c = .ok means) ∧
      ∀ a ∈ series, ∀ b ∈ series, a.keys = b.keys) ∧
    (∀ e, t.groupMeans key values = .error e ↔
      ∃ before c, FirstIn (fun c => ∃ means, t.groupMean key c = .ok means) values before c ∧
        t.groupMean key c = .error e) ∧
    ∀ c e, t.groupMean key c = .error e ↔
      t.rows = [] ∧ e = .emptyDataset t.source ∨
      t.rows ≠ [] ∧ t.width ≤ key ∧ e = .columnOutOfRange t.source key t.width ∨
      t.rows ≠ [] ∧ key < t.width ∧ t.width ≤ c ∧ e = .columnOutOfRange t.source c t.width := by
  rw [groupMeans_eq t key hsome]
  refine ⟨exists_mapM_iff, ?_, fun e => mapM_eq_error_iff, fun c e => groupMean_eq_error_iff⟩
  intro series hseries
  obtain ⟨hlength, hat⟩ := getElem?_of_mapM hseries
  refine ⟨hlength, hat, ?_⟩
  intro a ha b hb
  have hof {means : Series Float} (hmem : means ∈ series) : ∃ c, t.groupMean key c = .ok means := by
    obtain ⟨i, hi⟩ := List.getElem?_of_mem hmem
    have hlt : i < values.length := by
      rw [← hlength]
      exact (List.getElem?_eq_some_iff.1 hi).1
    obtain ⟨found, hfound, hmeans⟩ := hat i values[i] (List.getElem?_eq_getElem hlt)
    obtain rfl := Option.some.inj (hi.symm.trans hfound)
    exact ⟨values[i], hmeans⟩
  obtain ⟨c, hc⟩ := hof ha
  obtain ⟨d, hd⟩ := hof hb
  exact Series.keys_ext fun k => by rw [mem_keys_groupMeanBy _ hc, mem_keys_groupMeanBy _ hd]

/-- Two groups, the rows of one around the row of the other. -/
def interleaved : Table := ⟨"interleaved.csv", 2, [#v[1, 10], #v[2, 5], #v[1, 20]]⟩

/-- One column twice, and then two that are not there. -/
theorem groupMeans_first_missing :
    [1, 1, 7, 9] ≠ [] ∧
      interleaved.groupMeans 0 [1, 1, 7, 9] = .error (.columnOutOfRange "interleaved.csv" 7 2) ∧
      [1, 1] ≠ [] ∧ ∃ series, interleaved.groupMeans 0 [1, 1] = .ok series ∧ series.length = 2 := by
  have hrows : interleaved.rows ≠ [] := List.cons_ne_nil _ _
  have hkey : 0 < interleaved.width := by decide
  have hvalue : 1 < interleaved.width := by decide
  have hmean : ∃ means, interleaved.groupMean 0 1 = .ok means := ⟨_, groupMean_of_ne_nil hrows hkey hvalue⟩
  have hmissing : interleaved.groupMean 0 7 = .error (.columnOutOfRange "interleaved.csv" 7 2) :=
    groupMean_eq_error_iff.2 (.inr (.inr ⟨hrows, hkey, by decide, rfl⟩))
  have hlong : [1, 1, 7, 9] ≠ [] := List.cons_ne_nil _ _
  have hshort : [1, 1] ≠ [] := List.cons_ne_nil _ _
  obtain ⟨-, -, herror, -⟩ := groupMeans_columnwise interleaved 0 [1, 1, 7, 9] hlong
  obtain ⟨hok, hseries, -⟩ := groupMeans_columnwise interleaved 0 [1, 1] hshort
  obtain ⟨series, hfound⟩ := hok.2 (by simpa using hmean)
  refine ⟨hlong, ?_, hshort, series, hfound, (hseries series hfound).1⟩
  exact (herror _).2 ⟨[1, 1], 7, ⟨⟨[9], rfl⟩, by simpa using hmean⟩, hmissing⟩

end Table
end LoadSweep
