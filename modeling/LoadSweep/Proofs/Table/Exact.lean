import LoadSweep.Proofs.Mean.Exact
import LoadSweep.Proofs.Table.Columns
import LoadSweep.Proofs.Table.Range

/-! In exact arithmetic the means of a table are sums divided by numbers of rows, and the order of the rows does not
matter. With rounding the means may depend on the order, but their keys do not. -/
namespace LoadSweep.Table

/-- The sum of a column, each number being what `read` takes it for. -/
def total (t : Table) (read : Float → ℚ) (c : Nat) : ℚ := ((t.numbers c).map read).sum

variable {t : Table} {read : Float → ℚ} {key c : Nat} {values : List Nat} {rows : List (Row t.width)}

theorem total_eq (t : Table) (read : Float → ℚ) (hc : c < t.width) :
    t.total read c = (t.rows.map fun row => read row[c]).sum := by
  rw [total, numbers_eq t hc, List.map_map]
  rfl

theorem overallMeanBy_eq_total (read : Float → ℚ) (hrows : t.rows ≠ []) (hc : c < t.width) :
    t.overallMeanBy read c = .ok (t.total read c / t.length) := by
  rw [overallMeanBy_of_ne_nil read hrows hc, runningMean_eq, List.length_map, total_eq t read hc]
  rfl

/-- The exact mean of a group is its sum divided by its number of rows. -/
theorem get?_groupMeanBy {means : Series ℚ} (h : t.groupMeanBy read key c = .ok means) (k : Key) :
    means.get? k =
      if (t.group key k).rows = [] then none else some ((t.group key k).total read c / (t.group key k).length) := by
  obtain ⟨-, -, hc⟩ := lt_width_of_groupMeanBy read h
  rw [get?_groupMeanBy_eq read h]
  split_ifs with hgroup
  · rw [overallMeanBy_of_nil read hgroup]
    rfl
  · rw [overallMeanBy_eq_total (t := t.group key k) read hgroup hc]
    rfl

theorem rows_withRows_ne_nil (h : rows.Perm t.rows) (hrows : t.rows ≠ []) : (t.withRows rows).rows ≠ [] :=
  fun hempty => hrows (List.nil_perm.1 (hempty ▸ h))

/-- What can be said of grouped means in any order of the rows can be said of the means of a table. -/
theorem groupMeanBy_perm {α β : Type} [Averaging α] (read : Float → α) (view : Series α → β)
    (hview : ∀ {keyed keyed' : List (Key × α)}, keyed'.Perm keyed → view (groupedMeans keyed') = view (groupedMeans keyed))
    (h : rows.Perm t.rows) (key c : Nat) :
    ((t.withRows rows).groupMeanBy read key c).map view = (t.groupMeanBy read key c).map view := by
  by_cases hrows : t.rows = []
  · have hempty : (t.withRows rows).rows = [] := (hrows ▸ h).eq_nil
    rw [groupMeanBy_of_nil read hrows, groupMeanBy_of_nil read hempty]
    rfl
  have hsome := rows_withRows_ne_nil h hrows
  rcases lt_or_ge key t.width with hkey | hkey
  · rw [groupMeanBy_eq_map read hrows hkey, groupMeanBy_eq_map (t := t.withRows rows) read hsome hkey]
    change ((t.column c).map _).map view = _
    cases t.column c with
    | error e => rfl
    | ok v => exact congrArg Except.ok (hview (h.map _))
  · rw [groupMeanBy_of_width_le read hrows hkey, groupMeanBy_of_width_le (t := t.withRows rows) read hsome hkey]
    rfl

theorem groupMeansBy_perm {α β : Type} [Averaging α] (read : Float → α) (view : Series α → β)
    (hview : ∀ {keyed keyed' : List (Key × α)}, keyed'.Perm keyed → view (groupedMeans keyed') = view (groupedMeans keyed))
    (h : rows.Perm t.rows) (key : Nat) (values : List Nat) :
    ((t.withRows rows).groupMeansBy read key values).map (List.map view) =
      (t.groupMeansBy read key values).map (List.map view) := by
  by_cases hrows : t.rows = []
  · have hempty : (t.withRows rows).rows = [] := (hrows ▸ h).eq_nil
    rw [groupMeansBy_of_nil read hrows, groupMeansBy_of_nil read hempty]
    rfl
  have hsome := rows_withRows_ne_nil h hrows
  rcases lt_or_ge key t.width with hkey | hkey
  · rw [groupMeansBy_of_ne_nil read hrows hkey, groupMeansBy_of_ne_nil (t := t.withRows rows) read hsome hkey, ← mapM_map,
      ← mapM_map]
    simp only [groupMeanBy_perm read view hview h]
  · rw [groupMeansBy_of_width_le read hrows hkey, groupMeansBy_of_width_le (t := t.withRows rows) read hsome hkey]
    rfl

theorem overallMeanBy_perm (read : Float → ℚ) (h : rows.Perm t.rows) (c : Nat) :
    (t.withRows rows).overallMeanBy read c = t.overallMeanBy read c := by
  by_cases hrows : t.rows = []
  · have hempty : (t.withRows rows).rows = [] := (hrows ▸ h).eq_nil
    rw [overallMeanBy_of_nil read hrows, overallMeanBy_of_nil read hempty]
    rfl
  rw [overallMeanBy_eq_map read hrows, overallMeanBy_eq_map (t := t.withRows rows) read (rows_withRows_ne_nil h hrows)]
  change (t.column c).map _ = _
  cases t.column c with
  | error e => rfl
  | ok v => exact congrArg Except.ok (runningMean_perm (h.map _))

theorem groupMeanBy_exact_perm (read : Float → ℚ) (h : rows.Perm t.rows) (key c : Nat) :
    (t.withRows rows).groupMeanBy read key c = t.groupMeanBy read key c := by
  have hmap := groupMeanBy_perm read id groupedMeans_perm h key c
  rwa [Except.map_id] at hmap

/-- Without rounding the means of a table are arithmetic means: the mean of a group is its sum divided by its number of
rows, and the mean of all rows is theirs, in every column that is averaged. Rows in another order have the same means,
whether of groups, of all rows or of the groups' means. With rounding they still have means for the same keys. -/
theorem exact_means (t : Table) (read : Float → ℚ) (key : Nat) (values : List Nat) (hrows : t.rows ≠ [])
    (hkey : key < t.width) (hvalues : ∀ c ∈ values, c < t.width) :
    (∃ series, t.groupMeansBy read key values = .ok series ∧ series.length = values.length ∧
      ∀ (i c : Nat), values[i]? = some c → ∃ means, series[i]? = some means ∧ ∀ k, means.get? k =
        if (t.group key k).rows = [] then none
        else some ((t.group key k).total read c / (t.group key k).length)) ∧
    (∀ c < t.width, t.overallMeanBy read c = .ok (t.total read c / t.length)) ∧
    ∀ rows : List (Row t.width), rows.Perm t.rows →
      (t.withRows rows).groupMeansBy read key values = t.groupMeansBy read key values ∧
      (∀ c, (t.withRows rows).overallMeanBy read c = t.overallMeanBy read c) ∧
      (∀ c, (t.withRows rows).meanOfGroupMeansBy read key c = t.meanOfGroupMeansBy read key c) ∧
      ((t.withRows rows).groupMeans key values).map (List.map Series.keys) =
        (t.groupMeans key values).map (List.map Series.keys) := by
  refine ⟨?_, fun c hc => overallMeanBy_eq_total read hrows hc, fun rows hperm => ⟨?_, ?_, ?_, ?_⟩⟩
  · have hall : ∀ c ∈ values, ∃ means, t.groupMeanBy read key c = .ok means := fun c hc =>
      ⟨_, groupMeanBy_of_ne_nil read hrows hkey (hvalues c hc)⟩
    obtain ⟨series, hseries⟩ := exists_mapM_iff.2 hall
    obtain ⟨hlength, hat⟩ := getElem?_of_mapM hseries
    refine ⟨series, ?_, hlength, fun i c hi => ?_⟩
    · rw [groupMeansBy_of_ne_nil read hrows hkey, hseries]
    · obtain ⟨means, hmeans, hc⟩ := hat i c hi
      exact ⟨means, hmeans, get?_groupMeanBy hc⟩
  · have hmap := groupMeansBy_perm read id groupedMeans_perm hperm key values
    rwa [List.map_id_fun, Except.map_id] at hmap
  · exact overallMeanBy_perm read hperm
  · intro c
    rw [meanOfGroupMeansBy, meanOfGroupMeansBy, groupMeanBy_exact_perm read hperm]
  · exact groupMeansBy_perm id Series.keys keys_groupedMeans_perm hperm key values

/-- A group of three rows and one of a single row. -/
def uneven : Table := ⟨"uneven.csv", 2, [#v[1, 4], #v[1, 12], #v[1, 14], #v[2, 40]]⟩

theorem exact_means_uneven :
    uneven.rows ≠ [] ∧ 0 < uneven.width ∧ (∀ c ∈ [1], c < uneven.width) ∧
      uneven.overallMeanBy Double.value 1 = .ok (35 / 2) ∧
      (uneven.withRows uneven.rows.reverse).overallMeanBy Double.value 1 = .ok (35 / 2) := by
  have hrows : uneven.rows ≠ [] := List.cons_ne_nil _ _
  have hkey : 0 < uneven.width := by decide
  have hvalues : ∀ c ∈ [1], c < uneven.width := by decide
  obtain ⟨-, hoverall, hperm⟩ := exact_means uneven Double.value 0 [1] hrows hkey hvalues
  have hmean : uneven.total Double.value 1 / uneven.length = 35 / 2 := by decide +kernel
  have hforward : uneven.overallMeanBy Double.value 1 = .ok (35 / 2) := by rw [hoverall 1 (by decide), hmean]
  exact ⟨hrows, hkey, hvalues, hforward, by rw [(hperm _ (List.reverse_perm _)).2.1 1, hforward]⟩

end LoadSweep.Table
