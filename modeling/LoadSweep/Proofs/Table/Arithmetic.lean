import LoadSweep.Proofs.Pass
import LoadSweep.Proofs.Series
import LoadSweep.Table.Grouping

/-! What the passes over a table give, whatever its cells are and in whatever arithmetic: means as soon as there are
rows and the columns exist, and otherwise one failure for each thing that is missing. -/
namespace LoadSweep.Table

variable {γ α : Type} [Averaging α] {t : Table γ} (read : γ → α) {key value : Nat}

theorem checkNonEmpty_of_nil (hrows : t.rows = []) : t.checkNonEmpty = .error (.emptyDataset t.source) := by
  simp [checkNonEmpty, isEmpty, hrows]

theorem checkNonEmpty_of_ne_nil (hrows : t.rows ≠ []) : t.checkNonEmpty = .ok () := by
  simp [checkNonEmpty, isEmpty, hrows]

theorem column_of_lt {c : Nat} (hc : c < t.width) : t.column c = .ok ⟨c, hc⟩ := dif_pos hc

theorem column_of_width_le {c : Nat} (hc : t.width ≤ c) : t.column c = .error (.columnOutOfRange t.source c t.width) :=
  dif_neg (Nat.not_lt.2 hc)

theorem overallMeanBy_of_nil (hrows : t.rows = []) (value : Nat) :
    t.overallMeanBy read value = .error (.emptyDataset t.source) := by
  rw [overallMeanBy, checkNonEmpty_of_nil hrows, error_bind]

theorem overallMeanBy_eq_map (hrows : t.rows ≠ []) (value : Nat) :
    t.overallMeanBy read value =
      (t.column value).map fun c => runningMean (t.rows.map fun row => read (row.get c)) := by
  rw [overallMeanBy, checkNonEmpty_of_ne_nil hrows, ok_bind]
  cases t.column value <;> rfl

theorem overallMeanBy_of_ne_nil (hrows : t.rows ≠ []) (hvalue : value < t.width) :
    t.overallMeanBy read value = .ok (runningMean (t.rows.map fun row => read row[value])) := by
  rw [overallMeanBy_eq_map read hrows, column_of_lt hvalue]
  rfl

variable [Cell γ]

theorem groupMeanBy_of_nil (hrows : t.rows = []) (key value : Nat) :
    t.groupMeanBy read key value = .error (.emptyDataset t.source) := by
  rw [groupMeanBy, checkNonEmpty_of_nil hrows, error_bind]

theorem groupMeanBy_of_width_le (hrows : t.rows ≠ []) (hkey : t.width ≤ key) (value : Nat) :
    t.groupMeanBy read key value = .error (.columnOutOfRange t.source key t.width) := by
  rw [groupMeanBy, checkNonEmpty_of_ne_nil hrows, ok_bind, column_of_width_le hkey, error_bind]

theorem groupMeanBy_eq_map (hrows : t.rows ≠ []) (hkey : key < t.width) (value : Nat) :
    t.groupMeanBy read key value =
      (t.column value).map fun c => groupedMeans (t.rows.map fun row => (keyOf ⟨key, hkey⟩ row, read (row.get c))) := by
  rw [groupMeanBy, checkNonEmpty_of_ne_nil hrows, column_of_lt hkey, ok_bind, ok_bind]
  cases t.column value <;> rfl

theorem groupMeanBy_of_ne_nil (hrows : t.rows ≠ []) (hkey : key < t.width) (hvalue : value < t.width) :
    t.groupMeanBy read key value =
      .ok (groupedMeans (t.rows.map fun row => (keyOf ⟨key, hkey⟩ row, read row[value]))) := by
  rw [groupMeanBy_eq_map read hrows hkey, column_of_lt hvalue]
  rfl

theorem groupMeansBy_of_nil (hrows : t.rows = []) (key : Nat) (values : List Nat) :
    t.groupMeansBy read key values = .error (.emptyDataset t.source) := by
  rw [groupMeansBy, checkNonEmpty_of_nil hrows, error_bind]

theorem groupMeansBy_of_width_le (hrows : t.rows ≠ []) (hkey : t.width ≤ key) (values : List Nat) :
    t.groupMeansBy read key values = .error (.columnOutOfRange t.source key t.width) := by
  rw [groupMeansBy, checkNonEmpty_of_ne_nil hrows, ok_bind, column_of_width_le hkey, error_bind]

/-- Only a table with rows and with both columns has means. -/
theorem lt_width_of_groupMeanBy {means : Series α} (h : t.groupMeanBy read key value = .ok means) :
    t.rows ≠ [] ∧ key < t.width ∧ value < t.width := by
  have hrows : t.rows ≠ [] := fun hnil => nomatch (groupMeanBy_of_nil read hnil key value).symm.trans h
  have hkey : key < t.width := Nat.lt_of_not_le fun hout =>
    nomatch (groupMeanBy_of_width_le read hrows hout value).symm.trans h
  rw [groupMeanBy_eq_map read hrows hkey, map_eq_ok_iff] at h
  obtain ⟨c, hc, -⟩ := h
  exact ⟨hrows, hkey, Nat.lt_of_not_le fun hout => nomatch (column_of_width_le hout).symm.trans hc⟩

end LoadSweep.Table
