import LoadSweep.Proofs.Key
import LoadSweep.Proofs.Table.Arithmetic

/-! The rows of a table fall into groups, one for each key, and each group has the mean that it would have as a table
of its own. -/
namespace LoadSweep

/-- Filtering by each of some values in turn rearranges a list, if every element has one of the values. -/
theorem perm_flatMap_filter {ρ κ : Type} [DecidableEq κ] (key : ρ → κ) {ks : List κ} (distinct : ks.Nodup)
    {rows : List ρ} (covered : ∀ row ∈ rows, key row ∈ ks) :
    (ks.flatMap fun k => rows.filter (key · = k)).Perm rows := by
  induction ks generalizing rows with
  | nil =>
    have hnone : rows = [] := List.eq_nil_iff_forall_not_mem.2 fun row hrow => nomatch covered row hrow
    simp [hnone]
  | cons k ks ih =>
    obtain ⟨hk, hks⟩ := List.nodup_cons.1 distinct
    have hrest : ∀ row ∈ rows.filter (fun row => !decide (key row = k)), key row ∈ ks := by
      intro row hrow
      obtain ⟨hmem, hne⟩ := List.mem_filter.1 hrow
      rcases List.mem_cons.1 (covered row hmem) with h | h
      · simp [h] at hne
      · exact h
    have hsame : ∀ j ∈ ks, rows.filter (key · = j) =
        (rows.filter fun row => !decide (key row = k)).filter (key · = j) := by
      intro j hj
      have hjk : j ≠ k := fun h => hk (h ▸ hj)
      rw [List.filter_filter]
      apply List.filter_congr
      intro row _
      by_cases h : key row = j <;> simp [h, hjk]
    rw [List.flatMap_cons, List.flatMap_congr hsame]
    exact ((ih hks hrest).append_left _).trans (List.filter_append_perm (key · = k) rows)

theorem get?_groupedMeans {α : Type} [Averaging α] (rows : List (Key × α)) (k : Key) :
    (groupedMeans rows).get? k =
      if k ∈ rows.map (·.1) then some (runningMean ((rows.filter (·.1 = k)).map (·.2))) else none := by
  rw [groupedMeans, Series.get?_map, get?_groupFold]
  by_cases hk : k ∈ rows.map (·.1)
  · simp [hk, runningMean, List.foldl_map]
  · simp [hk]

theorem mem_keys_groupedMeans {α : Type} [Averaging α] {rows : List (Key × α)} {k : Key} :
    k ∈ (groupedMeans rows).keys ↔ k ∈ rows.map (·.1) := by
  rw [groupedMeans, Series.keys_map, mem_keys_groupFold]

namespace Table

section

variable {γ : Type} [Cell γ]

/-- The rows of one group, as a table. -/
def group (t : Table γ) (key : Nat) (k : Key) : Table γ := t.withRows (t.rows.filter (·[key]?.map Cell.key = some k))

theorem rows_group (t : Table γ) {key : Nat} (hkey : key < t.width) (k : Key) :
    (t.group key k).rows = t.rows.filter (keyOf ⟨key, hkey⟩ · = k) := by
  apply List.filter_congr
  intro row _
  have hvalue : row[key]? = some row[key] := getElem?_pos row key hkey
  exact decide_eq_decide.2 (by simp [keyOf, hvalue])

theorem group_rows_ne_nil_iff {t : Table γ} {key : Nat} (hkey : key < t.width) {k : Key} :
    (t.group key k).rows ≠ [] ↔ ∃ row ∈ t.rows, keyOf ⟨key, hkey⟩ row = k := by
  rw [rows_group t hkey]
  change t.rows.filter (keyOf ⟨key, hkey⟩ · = k) ≠ ([] : List (Row t.width γ)) ↔ _
  simp

variable {α : Type} [Averaging α] (read : γ → α) {t : Table γ} {key value : Nat}

/-- The mean of a group is the mean of its rows as a table of their own. -/
theorem get?_groupedMeansBy_rows (hkey : key < t.width) (hvalue : value < t.width) (k : Key) :
    (groupedMeans (t.rows.map fun row => (keyOf ⟨key, hkey⟩ row, read row[value]))).get? k =
      ((t.group key k).overallMeanBy read value).toOption := by
  have hvalues : ((t.rows.map fun row => (keyOf ⟨key, hkey⟩ row, read row[value])).filter (·.1 = k)).map (·.2) =
      (t.group key k).rows.map fun row => read row[value] := by
    rw [rows_group t hkey, List.filter_map, List.map_map]
    rfl
  have hkeys : k ∈ (t.rows.map fun row => (keyOf ⟨key, hkey⟩ row, read row[value])).map (·.1) ↔
      (t.group key k).rows ≠ [] := by
    rw [group_rows_ne_nil_iff hkey, List.map_map, List.mem_map]
    rfl
  rw [get?_groupedMeans, hvalues]
  by_cases hgroup : (t.group key k).rows = []
  · rw [if_neg (by simpa [hgroup] using hkeys), overallMeanBy_of_nil read hgroup]
    rfl
  · rw [if_pos (hkeys.2 hgroup), overallMeanBy_of_ne_nil read hgroup hvalue]
    rfl

/-- There is a mean for each value of the key column, whatever is averaged. -/
theorem mem_keys_groupMeanBy {means : Series α} (h : t.groupMeanBy read key value = .ok means) {k : Key} :
    k ∈ means.keys ↔ (t.group key k).rows ≠ [] := by
  obtain ⟨hrows, hkey, hvalue⟩ := lt_width_of_groupMeanBy read h
  rw [groupMeanBy_of_ne_nil read hrows hkey hvalue, Except.ok.injEq] at h
  rw [← h, mem_keys_groupedMeans, group_rows_ne_nil_iff hkey, List.map_map, List.mem_map]
  rfl

/-- The groups of all keys make up the table. -/
theorem perm_flatMap_group {means : Series α} (h : t.groupMeanBy read key value = .ok means) (hkey : key < t.width) :
    (means.keys.flatMap fun k => t.rows.filter (keyOf ⟨key, hkey⟩ · = k)).Perm t.rows := by
  refine perm_flatMap_filter _ means.nodup_keys fun row hrow => ?_
  rw [mem_keys_groupMeanBy read h, group_rows_ne_nil_iff hkey]
  exact ⟨row, hrow, rfl⟩

/-- The value at a key is the mean of its group, and there is none at any other key. -/
theorem get?_groupMeanBy_eq {means : Series α} (h : t.groupMeanBy read key value = .ok means) (k : Key) :
    means.get? k = ((t.group key k).overallMeanBy read value).toOption := by
  obtain ⟨hrows, hkey, hvalue⟩ := lt_width_of_groupMeanBy read h
  rw [groupMeanBy_of_ne_nil read hrows hkey hvalue, Except.ok.injEq] at h
  rw [← h, get?_groupedMeansBy_rows read hkey hvalue]

/-- Other rows in the place of those with other keys change nothing. -/
theorem get?_groupMeanBy_congr {others : List (Row t.width γ)} {means found : Series α} {k : Key}
    (h : t.groupMeanBy read key value = .ok means) (hfound : (t.withRows others).groupMeanBy read key value = .ok found)
    (hsame : ((t.withRows others).group key k).rows = (t.group key k).rows) : found.get? k = means.get? k := by
  have hgroup : (t.withRows others).group key k = t.group key k := congrArg t.withRows hsame
  rw [get?_groupMeanBy_eq read h, get?_groupMeanBy_eq read hfound, hgroup]

end

theorem overallMean_of_nil {t : Table} (hrows : t.rows = []) (value : Nat) :
    t.overallMean value = .error (.emptyDataset t.source) := overallMeanBy_of_nil _ hrows value

theorem groupMean_of_nil {t : Table} (hrows : t.rows = []) (key value : Nat) :
    t.groupMean key value = .error (.emptyDataset t.source) := groupMeanBy_of_nil _ hrows key value

theorem groupMean_of_width_le {t : Table} (hrows : t.rows ≠ []) {key : Nat} (hkey : t.width ≤ key) (value : Nat) :
    t.groupMean key value = .error (.columnOutOfRange t.source key t.width) :=
  groupMeanBy_of_width_le _ hrows hkey value

theorem overallMean_of_ne_nil {t : Table} (hrows : t.rows ≠ []) {value : Nat} (hvalue : value < t.width) :
    t.overallMean value = .ok (runningMean (t.rows.map (·[value]))) := overallMeanBy_of_ne_nil _ hrows hvalue

theorem groupMean_of_ne_nil {t : Table} (hrows : t.rows ≠ []) {key value : Nat} (hkey : key < t.width)
    (hvalue : value < t.width) :
    t.groupMean key value =
      .ok (groupedMeans (t.rows.map fun row => (keyOf ⟨key, hkey⟩ row, row[value]))) :=
  groupMeanBy_of_ne_nil _ hrows hkey hvalue

theorem map_fst_keyed {width : Nat} (key : Fin width) {value : Nat} (hvalue : value < width)
    (rows : List (Row width)) :
    (rows.map fun row => (keyOf key row, row[value])).map (·.1) = rows.map (keyOf key) := by
  rw [List.map_map]
  rfl

theorem get?_groupedMeans_rows {t : Table} {key value : Nat} (hkey : key < t.width) (hvalue : value < t.width)
    (k : Key) :
    (groupedMeans (t.rows.map fun row => (keyOf ⟨key, hkey⟩ row, row[value]))).get? k =
      ((t.group key k).overallMean value).toOption := get?_groupedMeansBy_rows id hkey hvalue k

theorem meanOfGroupMeans_eq_bind (t : Table) (key value : Nat) :
    t.meanOfGroupMeans key value = t.groupMean key value >>= fun means => .ok (runningMean means.values) := rfl

/-- A table of doubles by the bits of its cells. -/
def patterns (t : Table) : Table UInt64 := ⟨t.source, t.width, t.rows.map fun row => row.map Float.toBits⟩

/-- Doubles are averaged as their bit patterns are, and have the keys of these. -/
theorem groupMean_patterns (t : Table) (key value : Nat) : t.patterns.groupMean key value = t.groupMean key value := by
  have hempty : t.patterns.checkNonEmpty = t.checkNonEmpty := by
    simp [checkNonEmpty, isEmpty, patterns]
  have hcolumn (c : Nat) : t.patterns.column c = t.column c := rfl
  rw [groupMean, groupMeanBy, hempty, hcolumn, hcolumn, groupMean, groupMeanBy]
  cases t.checkNonEmpty with
  | error e => rfl
  | ok =>
    cases t.column key with
    | error e => rfl
    | ok key =>
      cases t.column value with
      | error e => rfl
      | ok value =>
        have hrows : t.patterns.rows.map (fun row => (keyOf key row, Cell.number (row.get value))) =
            t.rows.map fun row => (keyOf key row, Cell.number (row.get value)) := by
          simp [patterns, keyOf, Cell.key, Cell.number, Key.ofFloat]
        exact congrArg (fun rows => Except.ok (groupedMeans rows)) hrows

/-- Grouping is exhaustive and its groups are independent, for rows of any bit patterns and in any arithmetic, that of
doubles included: there is one key for each pattern in the key column, the value at a key is the mean of the rows of that
key in their order, there is none elsewhere, each row is in exactly one group, and other rows in the place of those with
other keys change nothing. A table of doubles has the means of its bit patterns. -/
theorem groupMean_partition (t : Table UInt64) (key value : Nat) (hrows : t.rows ≠ []) (hkey : key < t.width)
    (hvalue : value < t.width) :
    (∀ k, (t.group key k).rows = t.rows.filter (·[key] = k.bits)) ∧
    (∀ (α : Type) [Averaging α] (read : UInt64 → α), ∃ means, t.groupMeanBy read key value = .ok means ∧
      means.keys.Pairwise (· < ·) ∧
      (∀ k, k ∈ means.keys ↔ ∃ row ∈ t.rows, row[key] = k.bits) ∧
      (∀ k ∈ means.keys, ∃ mean, (t.group key k).overallMeanBy read value = .ok mean ∧ means.get? k = some mean) ∧
      (∀ k, k ∉ means.keys → means.get? k = none) ∧
      (means.keys.flatMap fun k => (t.group key k).rows).Perm t.rows ∧
      ∀ (others : List (Row t.width UInt64)) (found : Series α),
        (t.withRows others).groupMeanBy read key value = .ok found →
        ∀ k, ((t.withRows others).group key k).rows = (t.group key k).rows → found.get? k = means.get? k) ∧
    ∀ doubles : Table, doubles.patterns = t → doubles.groupMean key value = t.groupMeanBy Float.ofBits key value := by
  have hbits (row : Row t.width UInt64) (k : Key) : keyOf ⟨key, hkey⟩ row = k ↔ row[key] = k.bits :=
    ⟨fun h => congrArg Key.bits h, fun h => congrArg Key.mk h⟩
  refine ⟨fun k => ?_, fun α _ read => ?_, ?_⟩
  · rw [rows_group t hkey]
    exact List.filter_congr fun row _ => decide_eq_decide.2 (hbits row k)
  · have hmeans := groupMeanBy_of_ne_nil read hrows hkey hvalue
    refine ⟨_, hmeans, Series.pairwise_keys _, fun k => ?_, fun k hk => ?_, fun k hk => ?_, ?_,
      fun others found hfound k => get?_groupMeanBy_congr read hmeans hfound⟩
    · simp only [mem_keys_groupMeanBy read hmeans, group_rows_ne_nil_iff hkey, hbits]
    · have hmean := overallMeanBy_of_ne_nil (t := t.group key k) read ((mem_keys_groupMeanBy read hmeans).1 hk) hvalue
      refine ⟨_, hmean, ?_⟩
      rw [get?_groupMeanBy_eq read hmeans, hmean]
      rfl
    · simpa [Series.mem_keys] using hk
    · simp only [rows_group t hkey]
      exact perm_flatMap_group read hmeans hkey
  · rintro doubles rfl
    exact (doubles.groupMean_patterns key value).symm

/-- Two keys that are no numbers, with and without a sign, around a group of two rows. -/
def unnumbered : Table UInt64 := ⟨"unnumbered.csv", 2,
  [#v[0x7ff8000000000000, (10 : Float).toBits], #v[(1 : Float).toBits, (5 : Float).toBits],
    #v[0xfff8000000000000, (20 : Float).toBits], #v[(1 : Float).toBits, (15 : Float).toBits]]⟩

theorem groupMean_unnumbered :
    unnumbered.rows ≠ [] ∧ 0 < unnumbered.width ∧ 1 < unnumbered.width ∧
      ∃ means, unnumbered.groupMeanBy Float.ofBits 0 1 = .ok means ∧ means.get? ⟨0x7ff8000000000000⟩ = some 10 ∧
        means.get? ⟨0xfff8000000000000⟩ = some 20 ∧ means.get? (.ofFloat 1) = some 10 := by
  have hrows : unnumbered.rows ≠ [] := List.cons_ne_nil _ _
  have hkey : 0 < unnumbered.width := by decide
  have hvalue : 1 < unnumbered.width := by decide
  obtain ⟨-, hgrouped, -⟩ := groupMean_partition unnumbered 0 1 hrows hkey hvalue
  obtain ⟨means, hmeans, -, hkeys, hget, -⟩ := hgrouped Float Float.ofBits
  have hat (k : Key) (x : Float) (hk : ∃ row ∈ unnumbered.rows, row[0] = k.bits)
      (hx : ((unnumbered.group 0 k).overallMeanBy Float.ofBits 1).toOption = some x) : means.get? k = some x := by
    obtain ⟨mean, hmean, hfound⟩ := hget k ((hkeys k).2 hk)
    rw [hmean] at hx
    exact hfound.trans hx
  refine ⟨hrows, hkey, hvalue, means, hmeans, ?_, ?_, ?_⟩
  · exact hat _ _ ⟨_, .head _, rfl⟩ (by decide +kernel)
  · exact hat _ _ ⟨_, .tail _ (.tail _ (.head _)), rfl⟩ (by decide +kernel)
  · exact hat _ _ ⟨_, .tail _ (.head _), rfl⟩ (by decide +kernel)

end Table
end LoadSweep
