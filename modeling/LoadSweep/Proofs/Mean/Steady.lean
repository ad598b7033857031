import LoadSweep.Proofs.Double.Order
import LoadSweep.Proofs.Mean

/-! A step that is in range keeps the mean between the values, and one that is not leaves a mean that no later value
can bring back. So a mean is finite exactly if every step to it was in range, and then it is between the values. -/
namespace LoadSweep

open Double

/-- No value is out of range as seen from the mean of the values before it. -/
def Steady (xs : List Float) : Prop :=
  ∀ before x after, xs = before ++ x :: after → (x - runningMean before).isFinite = true

variable {xs : List Float} {x : Float} {low high : ℚ}

theorem steady_nil : Steady [] := by
  intro before x after h
  simp at h

theorem steady_concat : Steady (xs ++ [x]) ↔ Steady xs ∧ (x - runningMean xs).isFinite = true := by
  constructor
  · intro h
    refine ⟨?_, h xs x [] rfl⟩
    rintro before y after rfl
    exact h before y (after ++ [x]) (by simp)
  · rintro ⟨hxs, hx⟩ before y after h
    rcases List.eq_nil_or_concat after with rfl | ⟨rest, z, rfl⟩
    · obtain ⟨rfl, hy⟩ := List.append_inj' h rfl
      obtain rfl : x = y := by simpa using hy
      exact hx
    · rw [List.concat_eq_append, ← List.cons_append, ← List.append_assoc] at h
      exact hxs before y rest (List.append_inj' h rfl).1

theorem Steady.isFinite (h : Steady xs) (hx : x ∈ xs) : x.isFinite = true := by
  obtain ⟨before, after, hxs⟩ := List.append_of_mem hx
  exact (isFinite_of_sub (h before x after hxs)).1

theorem runningMean_concat (xs : List Float) (x : Float) :
    runningMean (xs ++ [x]) = ((xs.foldl RunningMean.push .empty).push x).mean := by
  rw [runningMean, List.foldl_append]
  rfl

theorem count_foldl_push (xs : List Float) (m : RunningMean Float) :
    (xs.foldl RunningMean.push m).count = m.count + xs.length := by
  induction xs generalizing m with
  | nil => rfl
  | cons x xs ih =>
    rw [List.foldl_cons, ih, List.length_cons]
    simp only [RunningMean.push]
    omega

/-- A step out of range shows in the mean, and so does every mean out of range before it. -/
theorem steady_of_isFinite (h : (runningMean xs).isFinite = true) : Steady xs := by
  induction xs using List.reverseRecOn with
  | nil => exact steady_nil
  | append_singleton xs x ih =>
    rw [runningMean_concat] at h
    have hstep : (x - runningMean xs).isFinite = true := isFinite_of_div (isFinite_of_add h).2
    exact steady_concat.2 ⟨ih (isFinite_of_add h).1, hstep⟩

/-- A steady mean is finite and in the range of its values. -/
theorem Steady.within (h : Steady xs) (hsome : xs ≠ []) (hxs : ∀ x ∈ xs, value x ∈ Set.Icc low high) :
    Within low high (runningMean xs) := by
  induction xs using List.reverseRecOn with
  | nil => exact absurd rfl hsome
  | append_singleton xs x ih =>
    obtain ⟨hsteady, hstep⟩ := steady_concat.1 h
    obtain ⟨hx, hmean⟩ := isFinite_of_sub hstep
    have hvalue : value x ∈ Set.Icc low high := hxs x (by simp)
    rw [runningMean_concat]
    rcases eq_or_ne xs [] with rfl | hprior
    · obtain ⟨hfinite, hfirst⟩ := RunningMean.push_empty hx
      exact ⟨hfinite, by rw [List.foldl_nil, hfirst]; exact hvalue⟩
    · have hbefore := ih hsteady hprior fun y hy => hxs y (by simp [hy])
      have hcount : 1 ≤ (xs.foldl RunningMean.push .empty).count := by
        rw [count_foldl_push]
        exact (List.length_pos_iff.2 hprior).trans_le (Nat.le_add_left _ _)
      obtain ⟨hfinite, hmem⟩ := RunningMean.push_mem hmean hx hcount ((sub_isFinite_iff hx hmean).1 hstep)
      exact ⟨hfinite, Set.uIcc_subset_Icc hbefore.2 hvalue hmem⟩

/-- Some value is the smallest of a list, and some value the largest. -/
theorem exists_extremes (hsome : xs ≠ []) :
    ∃ least ∈ xs, ∃ greatest ∈ xs, ∀ x ∈ xs, value x ∈ Set.Icc (value least) (value greatest) := by
  obtain ⟨least, hleast⟩ := Option.ne_none_iff_exists'.1 (mt List.argmin_eq_none.1 hsome : List.argmin value xs ≠ none)
  obtain ⟨greatest, hgreatest⟩ :=
    Option.ne_none_iff_exists'.1 (mt List.argmax_eq_none.1 hsome : List.argmax value xs ≠ none)
  refine ⟨least, List.argmin_mem hleast, greatest, List.argmax_mem hgreatest, ?_⟩
  intro x hx
  exact ⟨List.le_of_mem_argmin hx hleast, List.le_of_mem_argmax hx hgreatest⟩

theorem runningMean_isFinite_iff : (runningMean xs).isFinite = true ↔ Steady xs := by
  refine ⟨steady_of_isFinite, fun h => ?_⟩
  rcases eq_or_ne xs [] with rfl | hsome
  · rfl
  · obtain ⟨least, -, greatest, -, hrange⟩ := exists_extremes hsome
    exact (h.within hsome hrange).1

/-- Values in a range no wider than the doubles are steady. -/
theorem steady_of_range (hrange : high - low < overflow) (hxs : ∀ x ∈ xs, Within low high x) : Steady xs := by
  induction xs using List.reverseRecOn with
  | nil => exact steady_nil
  | append_singleton xs x ih =>
    have hbefore : ∀ y ∈ xs, Within low high y := fun y hy => hxs y (by simp [hy])
    have hsteady := ih hbefore
    have hx : Within low high x := hxs x (by simp)
    refine steady_concat.2 ⟨hsteady, ?_⟩
    rcases eq_or_ne xs [] with rfl | hsome
    · have hfirst : Steady ([] ++ [x]) := steady_of_isFinite (RunningMean.push_empty hx.1).1
      exact (steady_concat.1 hfirst).2
    · have hmean := hsteady.within hsome fun y hy => (hbefore y hy).2
      exact (sub_isFinite_iff hx.1 hmean.1).2 ((abs_sub_le_of_le_of_le hx.2.1 hx.2.2 hmean.2.1 hmean.2.2).trans_lt hrange)

/-- The mean of some values is finite and in their range. -/
theorem runningMean_within (hrange : high - low < overflow) (hsome : xs ≠ []) (hxs : ∀ x ∈ xs, Within low high x) :
    Within low high (runningMean xs) :=
  (steady_of_range hrange hxs).within hsome fun x hx => (hxs x hx).2

/-- Values of which no two are out of range of each other are steady. -/
theorem steady_of_pairwise (h : ∀ x ∈ xs, ∀ y ∈ xs, (x - y).isFinite = true) : Steady xs := by
  rcases eq_or_ne xs [] with rfl | hsome
  · exact steady_nil
  obtain ⟨least, hleast, greatest, hgreatest, hrange⟩ := exists_extremes hsome
  have hfinite : ∀ x ∈ xs, x.isFinite = true := fun x hx => (isFinite_of_sub (h x hx x hx)).1
  have hwidth : value greatest - value least < overflow :=
    (le_abs_self _).trans_lt
      ((sub_isFinite_iff (hfinite _ hgreatest) (hfinite _ hleast)).1 (h greatest hgreatest least hleast))
  exact steady_of_range hwidth fun x hx => ⟨hfinite x hx, hrange x hx⟩

end LoadSweep
