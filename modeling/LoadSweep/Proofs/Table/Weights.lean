import LoadSweep.Proofs.Table.Exact

/-! The mean of all rows is the mean of the groups' means, each weighted by the number of its rows; the mean of group
means gives all groups the same weight. So the two agree if the groups are of one size, and repeating the rows of a
group changes the first but not the second. -/
namespace LoadSweep.Table

/-- The table with the rows of each group repeated as often as its key says. -/
def repeated (t : Table) (key : Fin t.width) (copies : Key → Nat) : Table :=
  t.withRows (t.rows.flatMap fun row => List.replicate (copies (keyOf key row)) row)

variable {t : Table} {read : Float → ℚ} {key c : Nat} {means : Series ℚ}

theorem length_group (hkey : key < t.width) (k : Key) :
    (t.group key k).length = (t.rows.filter (keyOf ⟨key, hkey⟩ · = k)).length :=
  congrArg List.length (rows_group t hkey k)

theorem total_group (read : Float → ℚ) (hkey : key < t.width) (hc : c < t.width) (k : Key) :
    (t.group key k).total read c = ((t.rows.filter (keyOf ⟨key, hkey⟩ · = k)).map fun row => read row[c]).sum := by
  rw [total_eq (t.group key k) read hc]
  exact congrArg (fun rows : List (Row t.width) => (rows.map fun row => read row[c]).sum) (rows_group t hkey k)

section Weights

variable (h : t.groupMeanBy read key c = .ok means)
include h

theorem sum_length_group : (means.keys.map fun k => (t.group key k).length).sum = t.length := by
  obtain ⟨-, hkey, -⟩ := lt_width_of_groupMeanBy read h
  simp only [length_group hkey]
  rw [← List.length_flatMap, (perm_flatMap_group read h hkey).length_eq, length]

theorem sum_total_group : (means.keys.map fun k => (t.group key k).total read c).sum = t.total read c := by
  obtain ⟨-, hkey, hc⟩ := lt_width_of_groupMeanBy read h
  simp only [total_group read hkey hc]
  rw [total_eq t read hc, ← ((perm_flatMap_group read h hkey).map _).sum_eq, List.map_flatMap, List.flatMap_def,
    List.sum_flatten, List.map_map]
  rfl

theorem length_group_pos {k : Key} (hk : k ∈ means.keys) : 0 < (t.group key k).length :=
  List.length_pos_iff.2 ((mem_keys_groupMeanBy read h).1 hk)

/-- The sum of a group is its mean times its number of rows. -/
theorem length_mul_mean {k : Key} {m : ℚ} (hm : means.get? k = some m) :
    ((t.group key k).length : ℚ) * m = (t.group key k).total read c := by
  rw [get?_groupMeanBy h] at hm
  split_ifs at hm with hgroup
  have hlength : ((t.group key k).length : ℚ) ≠ 0 := by exact_mod_cast (List.length_pos_iff.2 hgroup).ne'
  obtain rfl := Option.some.inj hm
  exact mul_div_cancel₀ _ hlength

theorem sum_weighted : (means.points.map fun p => ((t.group key p.1).length : ℚ) * p.2).sum = t.total read c := by
  rw [← sum_total_group h, Series.keys, List.map_map]
  congr 1
  exact List.map_congr_left fun p hp => length_mul_mean h (Series.mem_points_iff.1 hp)

/-- With groups of one size the weights cancel. -/
theorem weighted_of_size {n : Nat} (hsize : ∀ k ∈ means.keys, (t.group key k).length = n) :
    (means.points.map fun p => ((t.group key p.1).length : ℚ) * p.2).sum /
      ((means.keys.map fun k => (t.group key k).length).sum : ℕ) = means.values.sum / means.size := by
  have hweighted : (means.points.map fun p => ((t.group key p.1).length : ℚ) * p.2).sum = n * means.values.sum := by
    rw [Series.values, ← List.sum_map_mul_left]
    congr 1
    exact List.map_congr_left fun p hp => by rw [hsize p.1 (List.mem_map_of_mem hp)]
  have hcount : (means.keys.map fun k => (t.group key k).length).sum = n * means.size := by
    rw [List.map_congr_left hsize, List.map_const', List.sum_replicate, smul_eq_mul, Series.keys, List.length_map,
      Series.size, mul_comm]
  have hn : (n : ℚ) ≠ 0 := by
    obtain ⟨hrows, hkey, -⟩ := lt_width_of_groupMeanBy read h
    obtain ⟨row, hrow⟩ := List.exists_mem_of_ne_nil _ hrows
    have hk : keyOf ⟨key, hkey⟩ row ∈ means.keys :=
      (mem_keys_groupMeanBy read h).2 ((group_rows_ne_nil_iff hkey).2 ⟨row, hrow, rfl⟩)
    exact_mod_cast (hsize _ hk ▸ length_group_pos h hk).ne'
  rw [hweighted, hcount, Nat.cast_mul, mul_div_mul_left _ _ hn]

end Weights

/-- Different keys have rows of their own. -/
theorem length_group_of_nodup (hkey : key < t.width) (hnodup : (t.rows.map (keyOf ⟨key, hkey⟩)).Nodup) {k : Key}
    (hgroup : (t.group key k).rows ≠ []) : (t.group key k).length = 1 := by
  have hcount : (t.group key k).length = (t.rows.map (keyOf ⟨key, hkey⟩)).count k := by
    rw [length_group hkey, List.count, List.countP_map, List.countP_eq_length_filter]
    exact congrArg List.length (List.filter_congr fun row _ => (beq_eq_decide _ _).symm)
  have hle := List.nodup_iff_count_le_one.1 hnodup k
  have hpos : 0 < (t.group key k).length := List.length_pos_iff.2 hgroup
  omega

theorem filter_repeated {ρ κ : Type} [DecidableEq κ] (f : ρ → κ) (copies : κ → Nat) (k : κ) (rows : List ρ) :
    (rows.flatMap fun row => List.replicate (copies (f row)) row).filter (f · = k) =
      (rows.filter (f · = k)).flatMap (List.replicate (copies k)) := by
  rw [List.filter_flatMap]
  induction rows with
  | nil => rfl
  | cons row rows ih =>
    by_cases hrow : f row = k <;> simp [hrow, ih]

variable (hkey : key < t.width) (copies : Key → Nat) (k : Key)

theorem length_group_repeated :
    ((t.repeated ⟨key, hkey⟩ copies).group key k).length = copies k * (t.group key k).length := by
  have hlength := length_group (t := t.repeated ⟨key, hkey⟩ copies) hkey k
  rw [length_group hkey, hlength]
  refine (congrArg List.length (filter_repeated (keyOf ⟨key, hkey⟩) copies k t.rows)).trans ?_
  simp [List.length_flatMap, mul_comm]

theorem total_group_repeated (read : Float → ℚ) (hc : c < t.width) :
    ((t.repeated ⟨key, hkey⟩ copies).group key k).total read c = copies k * (t.group key k).total read c := by
  have htotal := total_group (t := t.repeated ⟨key, hkey⟩ copies) read hkey hc k
  rw [total_group read hkey hc, htotal, ← List.sum_map_mul_left]
  refine (congrArg (fun rows : List (Row t.width) => (rows.map fun row => read row[c]).sum)
    (filter_repeated (keyOf ⟨key, hkey⟩) copies k t.rows)).trans ?_
  rw [List.map_flatMap, List.flatMap_def, List.sum_flatten, List.map_map]
  simp [Function.comp_def]

/-- Repeating the rows of groups keeps the means of groups. -/
theorem groupMeanBy_repeated (h : t.groupMeanBy read key c = .ok means) (hcopies : ∀ k, 0 < copies k) :
    (t.repeated ⟨key, hkey⟩ copies).groupMeanBy read key c = .ok means := by
  obtain ⟨hrows, -, hc⟩ := lt_width_of_groupMeanBy read h
  have hrepeated : (t.repeated ⟨key, hkey⟩ copies).rows ≠ [] := by
    obtain ⟨row, hrow⟩ := List.exists_mem_of_ne_nil _ hrows
    intro hnil
    have hnone := List.flatMap_eq_nil_iff.1 hnil row hrow
    exact (hcopies _).ne' ((List.replicate_eq_nil_iff _).1 hnone)
  have hmeans := groupMeanBy_of_ne_nil (t := t.repeated ⟨key, hkey⟩ copies) read hrepeated hkey hc
  rw [hmeans, Except.ok.injEq]
  refine Series.ext_get? fun k => ?_
  have hn : (copies k : ℚ) ≠ 0 := by exact_mod_cast (hcopies k).ne'
  have hgroup : ((t.repeated ⟨key, hkey⟩ copies).group key k).rows = [] ↔ (t.group key k).rows = [] := by
    have hlength := length_group_repeated hkey copies k
    rw [length, length] at hlength
    rw [← List.length_eq_zero_iff, ← List.length_eq_zero_iff, hlength, Nat.mul_eq_zero, or_iff_right (hcopies k).ne']
  rw [get?_groupMeanBy hmeans, get?_groupMeanBy h, total_group_repeated hkey copies k read hc,
    length_group_repeated hkey copies k, Nat.cast_mul, mul_div_mul_left _ _ hn]
  simp only [hgroup]

/-- The mean of all rows counts the mean of a group once for each of its rows, the mean of group means counts it once.
They agree if all groups have the same number of rows, as one group does and rows with keys of their own do. Repeating
the rows of groups, those of each group equally often, and putting the rows in any order keeps the second. -/
theorem exact_reductions (t : Table) (read : Float → ℚ) (key c : Nat) (hrows : t.rows ≠ []) (hkey : key < t.width)
    (hc : c < t.width) :
    ∃ (means : Series ℚ) (overall nested : ℚ), t.groupMeanBy read key c = .ok means ∧
      t.overallMeanBy read c = .ok overall ∧ t.meanOfGroupMeansBy read key c = .ok nested ∧
      (∀ k m, means.get? k = some m ↔ (t.group key k).overallMeanBy read c = .ok m) ∧
      overall = (means.points.map fun p => ((t.group key p.1).length : ℚ) * p.2).sum /
        ((means.keys.map fun k => (t.group key k).length).sum : ℕ) ∧
      nested = means.values.sum / means.size ∧
      (∀ n, (∀ k ∈ means.keys, (t.group key k).length = n) → overall = nested) ∧
      (means.size = 1 → overall = nested) ∧
      ((t.rows.map (keyOf ⟨key, hkey⟩)).Nodup → overall = nested) ∧
      ∀ copies : Key → Nat, (∀ k, 0 < copies k) →
        ∀ rows : List (Row t.width), rows.Perm (t.repeated ⟨key, hkey⟩ copies).rows →
          (t.withRows rows).groupMeanBy read key c = .ok means ∧
          (t.withRows rows).meanOfGroupMeansBy read key c = .ok nested := by
  have hmeans := groupMeanBy_of_ne_nil read hrows hkey hc
  generalize groupedMeans (t.rows.map fun row => (keyOf ⟨key, hkey⟩ row, read row[c])) = means at hmeans
  have hnested {u : Table} (h : u.groupMeanBy read key c = .ok means) :
      u.meanOfGroupMeansBy read key c = .ok (means.values.sum / means.size) := by
    rw [meanOfGroupMeansBy, h, ok_bind, runningMean_eq, Series.values, List.length_map]
    rfl
  have hoverall : t.overallMeanBy read c =
      .ok ((means.points.map fun p => ((t.group key p.1).length : ℚ) * p.2).sum /
        ((means.keys.map fun k => (t.group key k).length).sum : ℕ)) := by
    rw [overallMeanBy_eq_total read hrows hc, sum_weighted hmeans, sum_length_group hmeans]
  have hsize := fun n => weighted_of_size hmeans (n := n)
  refine ⟨means, _, _, hmeans, hoverall, hnested hmeans, ?_, rfl, rfl, hsize, ?_, ?_, ?_⟩
  · intro k m
    rw [get?_groupMeanBy hmeans]
    split_ifs with hgroup
    · simp [overallMeanBy_of_nil read hgroup]
    · rw [overallMeanBy_eq_total read hgroup hc, Option.some.injEq, Except.ok.injEq]
  · intro hone
    obtain ⟨k, hk⟩ : ∃ k, means.keys = [k] := List.length_eq_one_iff.1 ((List.length_map _).trans hone)
    refine hsize (t.group key k).length fun j hj => ?_
    rw [hk, List.mem_singleton] at hj
    rw [hj]
  · intro hnodup
    exact hsize 1 fun k hk => length_group_of_nodup hkey hnodup ((mem_keys_groupMeanBy read hmeans).1 hk)
  · intro copies hcopies rows hperm
    have hrepeated : (t.withRows rows).groupMeanBy read key c = .ok means :=
      (groupMeanBy_exact_perm (t := t.repeated ⟨key, hkey⟩ copies) read hperm key c).trans
        (groupMeanBy_repeated hkey copies hmeans hcopies)
    exact ⟨hrepeated, hnested hrepeated⟩

/-- Of three rows with mean 10 and one with 40, whatever they are repeated, the groups have mean 25. -/
theorem exact_reductions_uneven :
    uneven.rows ≠ [] ∧ 0 < uneven.width ∧ 1 < uneven.width ∧
      uneven.overallMeanBy Double.value 1 = .ok (35 / 2) ∧
      ∀ copies : Key → Nat, (∀ k, 0 < copies k) →
        (uneven.repeated ⟨0, by decide⟩ copies).meanOfGroupMeansBy Double.value 0 1 = .ok 25 := by
  have hrows : uneven.rows ≠ [] := List.cons_ne_nil _ _
  have hkey : 0 < uneven.width := by decide
  have hc : 1 < uneven.width := by decide
  obtain ⟨means, overall, nested, -, hoverall, hnested, -, -, -, -, -, -, hrepeated⟩ :=
    exact_reductions uneven Double.value 0 1 hrows hkey hc
  have hall : (uneven.overallMeanBy Double.value 1).toOption = some (35 / 2) := by decide +kernel
  have hgroups : (uneven.meanOfGroupMeansBy Double.value 0 1).toOption = some 25 := by decide +kernel
  rw [hoverall] at hall
  rw [hnested] at hgroups
  obtain rfl := Option.some.inj hall
  obtain rfl := Option.some.inj hgroups
  exact ⟨hrows, hkey, hc, hoverall, fun copies hcopies => (hrepeated copies hcopies _ (.refl _)).2⟩

end LoadSweep.Table
