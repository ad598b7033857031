import LoadSweep.Proofs.Mean.Steady
import LoadSweep.Proofs.Series
import LoadSweep.Proofs.Table.Groups
import LoadSweep.Table.Reader

/-! A table that was read holds finite numbers only. Whatever range the numbers of a column lie in, the means of the
column lie in it too, whether over all rows, over groups or over the means of groups. -/
namespace LoadSweep.Table

open Double

variable {width : Nat}

theorem readNumbers_finite {column : Nat} {ws : List (List Char)} {xs : { xs : List Float // xs.length = ws.length }}
    (h : readNumbers column ws = .ok xs) : ∀ x ∈ xs.1, x.isFinite = true := by
  induction ws generalizing column with
  | nil =>
    cases h
    simp
  | cons w ws ih =>
    cases hw : number? w with
    | none => simp [readNumbers, hw] at h
    | some y =>
      simp only [readNumbers, hw] at h
      obtain ⟨ys, hys, rfl⟩ := map_eq_ok_iff.1 h
      have hy : y.isFinite = true := (Option.filter_eq_some_iff.1 hw).2
      exact List.forall_mem_cons.2 ⟨hy, ih hys⟩

theorem readRow_finite {ws : List (List Char)} {row : Row width} (h : readRow width ws = .ok row) :
    ∀ (i : Nat) (hi : i < width), row[i].isFinite = true := by
  unfold readRow at h
  split_ifs at h
  obtain ⟨xs, hxs, rfl⟩ := map_eq_ok_iff.1 h
  intro i hi
  exact readNumbers_finite hxs _ (List.getElem_mem _)

theorem readRecord_finite {bytes : List UInt8} {row : Row width} (h : readRecord width bytes = .ok (some row)) :
    ∀ (i : Nat) (hi : i < width), row[i].isFinite = true := by
  unfold readRecord at h
  split at h
  · cases h
  · cases h
  · obtain ⟨found, hfound, hrow⟩ := map_eq_ok_iff.1 h
    obtain rfl := Option.some.inj hrow
    exact readRow_finite hfound

theorem readRecords_finite {path : String} {rs : List Record} {rows : List (Row width)}
    (h : readRecords path width rs = .ok rows) : ∀ row ∈ rows, ∀ (i : Nat) (hi : i < width), row[i].isFinite = true := by
  induction rs generalizing rows with
  | nil =>
    cases h
    simp
  | cons r rs ih =>
    rw [readRecords] at h
    split at h
    · cases h
    · rename_i found hfound
      obtain ⟨rest, hrest, rfl⟩ := map_eq_ok_iff.1 h
      intro row hrow
      rcases List.mem_append.1 hrow with hrow | hrow
      · exact readRecord_finite (hfound.trans (by rw [Option.mem_toList.1 hrow]))
      · exact ih hrest row hrow

theorem read_finite {path : String} {s : Source} {rows : List (Row width)}
    (h : Table.read path width s = .ok ⟨path, width, rows⟩) :
    ∀ row ∈ rows, ∀ (i : Nat) (hi : i < width), row[i].isFinite = true := by
  unfold Table.read at h
  cases hrs : readRecords path width (Record.ofSource s) with
  | error e => simp [hrs] at h
  | ok found =>
    simp only [hrs] at h
    split_ifs at h
    obtain rfl : found = rows := by simpa using h
    exact readRecords_finite hrs

theorem groupMean_inv {t : Table} {key value : Nat} {means : Series Float} (hvalue : value < t.width)
    (h : t.groupMean key value = .ok means) : t.rows ≠ [] ∧ ∃ hkey : key < t.width,
      means = groupedMeans (t.rows.map fun row => (keyOf ⟨key, hkey⟩ row, row[value])) := by
  by_cases hnil : t.rows = []
  · simp [groupMean_of_nil hnil] at h
  by_cases hkey : key < t.width
  · rw [groupMean_of_ne_nil hnil hkey hvalue, Except.ok.injEq] at h
    exact ⟨hnil, hkey, h.symm⟩
  · simp [groupMean_of_width_le hnil (Nat.not_lt.1 hkey)] at h

/-- The group of a row has a mean. -/
theorem values_groupMean_ne_nil {t : Table} {key value : Nat} {means : Series Float} (hvalue : value < t.width)
    (h : t.groupMean key value = .ok means) : means.values ≠ [] := by
  obtain ⟨hnil, hkey, rfl⟩ := groupMean_inv hvalue h
  obtain ⟨row, hrow⟩ := List.exists_mem_of_ne_nil _ hnil
  have hmem : keyOf ⟨key, hkey⟩ row ∈
      (groupedMeans (t.rows.map fun row => (keyOf ⟨key, hkey⟩ row, row[value]))).keys := by
    rw [mem_keys_groupedMeans, map_fst_keyed]
    exact List.mem_map_of_mem hrow
  intro hempty
  have hpoints := List.map_eq_nil_iff.1 hempty
  simp [Series.keys, hpoints] at hmem

section

variable {low high : ℚ} {t : Table} {key value : Nat} (hrange : high - low < overflow) (hvalue : value < t.width)
  (hrows : ∀ row ∈ t.rows, Within low high row[value])

include hrange hrows

theorem overallMean_within {x : Float} (h : t.overallMean value = .ok x) : Within low high x := by
  by_cases hnil : t.rows = []
  · simp [overallMean_of_nil hnil] at h
  · rw [overallMean_of_ne_nil hnil hvalue, Except.ok.injEq] at h
    rw [← h]
    refine runningMean_within hrange (by simpa using hnil) ?_
    intro y hy
    obtain ⟨row, hrow, rfl⟩ := List.mem_map.1 hy
    exact hrows row hrow

theorem group_overallMean_within {k : Key} {x : Float} (h : (t.group key k).overallMean value = .ok x) :
    Within low high x :=
  overallMean_within (t := t.group key k) hrange hvalue (fun row hrow => hrows row (List.mem_filter.1 hrow).1) h

theorem groupMean_within {means : Series Float} (h : t.groupMean key value = .ok means) :
    ∀ x ∈ means.values, Within low high x := by
  obtain ⟨-, hkey, rfl⟩ := groupMean_inv hvalue h
  intro x hx
  obtain ⟨⟨k, y⟩, hpoint, rfl⟩ := List.mem_map.1 hx
  have hget := Series.mem_points_iff.1 hpoint
  rw [get?_groupedMeans_rows hkey hvalue, toOption_eq_some_iff] at hget
  exact group_overallMean_within hrange hvalue hrows hget

theorem meanOfGroupMeans_within {x : Float} (h : t.meanOfGroupMeans key value = .ok x) : Within low high x := by
  cases hmeans : t.groupMean key value with
  | error e => simp [meanOfGroupMeans_eq_bind, hmeans] at h
  | ok means =>
    obtain rfl : runningMean means.values = x := by
      rw [meanOfGroupMeans_eq_bind, hmeans, ok_bind] at h
      exact Except.ok.inj h
    exact runningMean_within hrange (values_groupMean_ne_nil hvalue hmeans)
      (groupMean_within hrange hvalue hrows hmeans)

end

end LoadSweep.Table
