import LoadSweep.Proofs.Table.Means

/-! A mean of finite values that is finite lies between the smallest and the largest of them. It is finite exactly if
the values were steady, as they are if no two of them are out of range of each other; `opposed` holds two that are. -/
namespace LoadSweep.Table

open Double

/-- The numbers of a column, row by row. -/
def numbers (t : Table) (c : Nat) : List Float := t.rows.filterMap (·[c]?)

variable {t : Table} {key c : Nat} {low high : ℚ}

theorem numbers_eq (t : Table) (hc : c < t.width) : t.numbers c = t.rows.map (·[c]) := by
  rw [numbers, ← List.filterMap_eq_map]
  apply List.filterMap_congr
  intro row _
  exact getElem?_pos row c hc

theorem numbers_ne_nil (hrows : t.rows ≠ []) (hc : c < t.width) : t.numbers c ≠ [] := by
  simpa [numbers_eq t hc] using hrows

theorem numbers_group_subset (t : Table) (key c : Nat) (k : Key) : t.numbers c ⊇ (t.group key k).numbers c :=
  List.filterMap_subset _ (List.filter_subset_self _)

theorem overallMean_numbers (hrows : t.rows ≠ []) (hc : c < t.width) :
    t.overallMean c = .ok (runningMean (t.numbers c)) := by
  rw [overallMean_of_ne_nil hrows hc, numbers_eq t hc]

/-- The mean at a key is that of the numbers of its group. -/
theorem get?_groupMean {means : Series Float} (hc : c < t.width) (h : t.groupMean key c = .ok means) {k : Key} {x : Float} :
    means.get? k = some x ↔ (t.group key k).rows ≠ [] ∧ runningMean ((t.group key k).numbers c) = x := by
  obtain ⟨-, hkey, rfl⟩ := groupMean_inv hc h
  rw [get?_groupedMeans_rows hkey hc]
  by_cases hnil : (t.group key k).rows = []
  · simp [overallMean_of_nil hnil, hnil, Except.toOption]
  · rw [overallMean_numbers (t := t.group key k) hnil hc]
    simp [hnil, Except.toOption]

/-- Steady values of a column have a mean in the range of the column. -/
theorem within_of_steady (hrange : ∀ x ∈ t.numbers c, value x ∈ Set.Icc low high) {xs : List Float}
    (hsubset : t.numbers c ⊇ xs) (hsome : xs ≠ []) (hsteady : Steady xs) : Within low high (runningMean xs) :=
  hsteady.within hsome fun x hx => hrange x (hsubset hx)

/-- The finite means of groups are in the range of their column. -/
theorem within_of_mem_values (hrange : ∀ x ∈ t.numbers c, value x ∈ Set.Icc low high) {means : Series Float}
    (hc : c < t.width) (h : t.groupMean key c = .ok means) {x : Float} (hx : x ∈ means.values)
    (hfinite : x.isFinite = true) : Within low high x := by
  obtain ⟨⟨k, y⟩, hpoint, rfl⟩ := List.mem_map.1 hx
  obtain ⟨hgroup, rfl⟩ := (get?_groupMean hc h).1 (Series.mem_points_iff.1 hpoint)
  exact within_of_steady hrange (numbers_group_subset t key c k) (numbers_ne_nil (t := t.group key k) hgroup hc)
    (runningMean_isFinite_iff.1 hfinite)

theorem exists_means (hrows : t.rows ≠ []) (hkey : key < t.width) (hc : c < t.width) :
    ∃ means, t.groupMean key c = .ok means ∧ means.values ≠ [] ∧
      t.meanOfGroupMeans key c = .ok (runningMean means.values) := by
  have hmeans := groupMean_of_ne_nil hrows hkey hc
  exact ⟨_, hmeans, values_groupMean_ne_nil hc hmeans, by rw [meanOfGroupMeans_eq_bind, hmeans]; rfl⟩

/-- The means of a table of finite numbers, whether over all rows, of a group or over the groups. One that is finite is
between the smallest and the largest number of the column. It is finite if and only if no number was out of range of
the mean before it, so all are if no two numbers of the column are out of range of each other. -/
theorem means_between (t : Table) (key c : Nat) (hrows : t.rows ≠ []) (hkey : key < t.width) (hc : c < t.width)
    (hfinite : ∀ row ∈ t.rows, ∀ (i : Nat) (hi : i < t.width), row[i].isFinite = true) :
    ∃ overall means nested, t.overallMean c = .ok overall ∧ t.groupMean key c = .ok means ∧
      t.meanOfGroupMeans key c = .ok nested ∧
      (∀ x ∈ overall :: nested :: means.values, x.isFinite = true →
        (∃ least ∈ t.numbers c, least ≤ x) ∧ ∃ greatest ∈ t.numbers c, x ≤ greatest) ∧
      (overall.isFinite = true ↔ Steady (t.numbers c)) ∧
      (∀ k x, means.get? k = some x → (x.isFinite = true ↔ Steady ((t.group key k).numbers c))) ∧
      (nested.isFinite = true ↔ Steady means.values) ∧
      ((∀ x ∈ t.numbers c, ∀ y ∈ t.numbers c, (x - y).isFinite = true) →
        ∀ x ∈ overall :: nested :: means.values, x.isFinite = true) := by
  obtain ⟨means, hmeans, hsome, hnested⟩ := exists_means hrows hkey hc
  have hnumbers : ∀ x ∈ t.numbers c, x.isFinite = true := by
    intro x hx
    rw [numbers_eq t hc] at hx
    obtain ⟨row, hrow, rfl⟩ := List.mem_map.1 hx
    exact hfinite row hrow c hc
  obtain ⟨least, hleast, greatest, hgreatest, hrange⟩ := exists_extremes (numbers_ne_nil hrows hc)
  have hvalues (x : Float) (hx : x ∈ means.values) (hx' : x.isFinite = true) :=
    within_of_mem_values hrange hc hmeans hx hx'
  have hwithin : ∀ x ∈ runningMean (t.numbers c) :: runningMean means.values :: means.values, x.isFinite = true →
      Within (value least) (value greatest) x := by
    intro x hx hx'
    simp only [List.mem_cons] at hx
    rcases hx with rfl | rfl | hx
    · exact within_of_steady hrange (List.Subset.refl _) (numbers_ne_nil hrows hc) (runningMean_isFinite_iff.1 hx')
    · have hsteady := runningMean_isFinite_iff.1 hx'
      exact hsteady.within hsome fun y hy => (hvalues y hy (hsteady.isFinite hy)).2
    · exact hvalues x hx hx'
  refine ⟨_, means, _, overallMean_numbers hrows hc, hmeans, hnested, ?_, runningMean_isFinite_iff, ?_,
    runningMean_isFinite_iff, ?_⟩
  · intro x hx hx'
    have hmem := hwithin x hx hx'
    exact ⟨⟨least, hleast, (le_iff (hnumbers _ hleast) hx').2 hmem.2.1⟩,
      greatest, hgreatest, (le_iff hx' (hnumbers _ hgreatest)).2 hmem.2.2⟩
  · intro k x hx
    obtain ⟨-, rfl⟩ := (get?_groupMean hc hmeans).1 hx
    exact runningMean_isFinite_iff
  · intro hclose
    have hgroups : ∀ x ∈ means.values, x.isFinite = true := by
      intro x hx
      obtain ⟨⟨k, y⟩, hpoint, rfl⟩ := List.mem_map.1 hx
      obtain ⟨-, rfl⟩ := (get?_groupMean hc hmeans).1 (Series.mem_points_iff.1 hpoint)
      have hsubset := numbers_group_subset t key c k
      exact runningMean_isFinite_iff.2
        (steady_of_pairwise fun x hx y hy => hclose x (hsubset hx) y (hsubset hy))
    have hwidth : |value greatest - value least| < overflow :=
      (sub_isFinite_iff (hnumbers _ hgreatest) (hnumbers _ hleast)).1 (hclose _ hgreatest _ hleast)
    -- the means of the groups are no further apart than the numbers
    have hbetween : ∀ x ∈ means.values, ∀ y ∈ means.values, (x - y).isFinite = true := by
      intro x hx y hy
      have hx' := hvalues x hx (hgroups x hx)
      have hy' := hvalues y hy (hgroups y hy)
      refine (sub_isFinite_iff hx'.1 hy'.1).2 (lt_of_le_of_lt ?_ ((le_abs_self _).trans_lt hwidth))
      exact abs_sub_le_of_le_of_le hx'.2.1 hx'.2.2 hy'.2.1 hy'.2.2
    intro x hx
    simp only [List.mem_cons] at hx
    rcases hx with rfl | rfl | hx
    · exact runningMean_isFinite_iff.2 (steady_of_pairwise hclose)
    · exact runningMean_isFinite_iff.2 (steady_of_pairwise hbetween)
    · exact hgroups x hx

/-- Numbers near the end of the range, all on one side of zero. -/
def lofty : Table := ⟨"lofty.csv", 2, [#v[1, 1e308], #v[1, 1e308], #v[2, 1.5e308]]⟩

theorem means_lofty :
    lofty.rows ≠ [] ∧ 0 < lofty.width ∧ 1 < lofty.width ∧
      (∀ row ∈ lofty.rows, ∀ (i : Nat) (hi : i < lofty.width), row[i].isFinite = true) ∧
      ∃ overall means nested, lofty.overallMean 1 = .ok overall ∧ lofty.groupMean 0 1 = .ok means ∧
        lofty.meanOfGroupMeans 0 1 = .ok nested ∧
        ∀ x ∈ overall :: nested :: means.values, x.isFinite = true := by
  have hrows : lofty.rows ≠ [] := List.cons_ne_nil _ _
  have hkey : 0 < lofty.width := by decide
  have hc : 1 < lofty.width := by decide
  have hfinite : ∀ row ∈ lofty.rows, ∀ (i : Nat) (hi : i < lofty.width), row[i].isFinite = true := by decide +kernel
  have hclose : ∀ x ∈ lofty.numbers 1, ∀ y ∈ lofty.numbers 1, (x - y).isFinite = true := by decide +kernel
  obtain ⟨overall, means, nested, hoverall, hmeans, hnested, -, -, -, -, hall⟩ :=
    means_between lofty 0 1 hrows hkey hc hfinite
  exact ⟨hrows, hkey, hc, hfinite, overall, means, nested, hoverall, hmeans, hnested, hall hclose⟩

/-- Two numbers that are out of range of each other. -/
def opposed : Table := ⟨"opposed.csv", 2, [#v[1, 1e308], #v[1, -1e308]]⟩

/-- The mean of finite numbers need not be finite. -/
theorem opposed_means :
    opposed.rows ≠ [] ∧ (∀ row ∈ opposed.rows, ∀ (i : Nat) (hi : i < opposed.width), row[i].isFinite = true) ∧
      ∃ overall means mean nested, opposed.overallMean 1 = .ok overall ∧ overall.isFinite = false ∧
        opposed.groupMean 0 1 = .ok means ∧ means.get? (.ofFloat 1) = some mean ∧ mean.isFinite = false ∧
        opposed.meanOfGroupMeans 0 1 = .ok nested ∧ nested.isFinite = false := by
  have hrows : opposed.rows ≠ [] := List.cons_ne_nil _ _
  have hc : 1 < opposed.width := by decide
  have hfinite : ∀ row ∈ opposed.rows, ∀ (i : Nat) (hi : i < opposed.width), row[i].isFinite = true := by
    decide +kernel
  obtain ⟨means, hmeans, -, hnested⟩ := exists_means hrows (show 0 < opposed.width by decide) hc
  have hgroup : (opposed.group 0 (.ofFloat 1)).rows ≠ [] :=
    (group_rows_ne_nil_iff (by decide)).2 ⟨#v[1, 1e308], .head _, rfl⟩
  have hmean := (get?_groupMean hc hmeans).2 ⟨hgroup, rfl⟩
  have hinfinite : (runningMean ((opposed.group 0 (.ofFloat 1)).numbers 1)).isFinite = false := by decide +kernel
  refine ⟨hrows, hfinite, _, means, _, _, overallMean_numbers hrows hc, by decide +kernel, hmeans, hmean, hinfinite,
    hnested, ?_⟩
  -- a mean over the groups would be steady, and then so would each of them
  rw [← Bool.not_eq_true, runningMean_isFinite_iff]
  intro hsteady
  have hmem : runningMean ((opposed.group 0 (.ofFloat 1)).numbers 1) ∈ means.values :=
    List.mem_map.2 ⟨_, Series.mem_points_iff.2 hmean, rfl⟩
  simp [hsteady.isFinite hmem] at hinfinite

end LoadSweep.Table
