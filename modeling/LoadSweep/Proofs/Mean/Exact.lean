import LoadSweep.Proofs.Table.Groups
import Mathlib

/-! Without rounding, the running mean of some numbers is their sum in equal parts, although no sum is ever formed. So
their order does not matter, neither within a group nor between groups. -/
namespace LoadSweep

instance : Averaging ℚ where
  zero := 0
  add := (· + ·)
  sub := (· - ·)
  share x n := x / n

/-- One step leads from the mean of `n` numbers to the mean of one more. -/
theorem RunningMean.push_mean {s : ℚ} {n : ℕ} (hnone : n = 0 → s = 0) (x : ℚ) :
    push ⟨s / n, n⟩ x = ⟨(s + x) / (n + 1 : ℕ), n + 1⟩ := by
  have hstep : s / n + (x - s / n) / (n + 1 : ℕ) = (s + x) / (n + 1 : ℕ) := by
    rcases Nat.eq_zero_or_pos n with rfl | hn
    · simp [hnone rfl]
    · have hn' : (n : ℚ) ≠ 0 := by exact_mod_cast hn.ne'
      have hnext : ((n + 1 : ℕ) : ℚ) ≠ 0 := by exact_mod_cast n.succ_ne_zero
      push_cast at hnext ⊢
      field_simp
      ring
  exact congrArg (RunningMean.mk · (n + 1)) hstep

theorem foldl_push (xs : List ℚ) : xs.foldl RunningMean.push .empty = ⟨xs.sum / xs.length, xs.length⟩ := by
  induction xs using List.reverseRecOn with
  | nil =>
    have hzero : (0 : ℚ) / (0 : ℕ) = 0 := by simp
    exact congrArg (RunningMean.mk · 0) hzero.symm
  | append_singleton xs x ih =>
    have hnone : xs.length = 0 → xs.sum = 0 := by
      intro h
      rw [List.length_eq_zero_iff.1 h, List.sum_nil]
    rw [List.foldl_append, ih, List.foldl_cons, List.foldl_nil, RunningMean.push_mean hnone, List.sum_append,
      List.sum_singleton, List.length_append, List.length_singleton]

/-- The running mean is the arithmetic mean. -/
theorem runningMean_eq (xs : List ℚ) : runningMean xs = xs.sum / xs.length := by
  rw [runningMean, foldl_push]

theorem runningMean_perm {xs ys : List ℚ} (h : xs.Perm ys) : runningMean xs = runningMean ys := by
  rw [runningMean_eq, runningMean_eq, h.sum_eq, h.length_eq]

theorem groupedMeans_perm {rows rows' : List (Key × ℚ)} (h : rows'.Perm rows) :
    groupedMeans rows' = groupedMeans rows := by
  refine Series.ext_get? fun k => ?_
  have hkeys : k ∈ rows'.map (·.1) ↔ k ∈ rows.map (·.1) := (h.map _).mem_iff
  rw [get?_groupedMeans, get?_groupedMeans, runningMean_perm ((h.filter _).map _)]
  simp only [hkeys]

/-- In any arithmetic there are means for the same keys. -/
theorem keys_groupedMeans_perm {α : Type} [Averaging α] {rows rows' : List (Key × α)} (h : rows'.Perm rows) :
    (groupedMeans rows').keys = (groupedMeans rows).keys :=
  Series.keys_ext fun k => by rw [mem_keys_groupedMeans, mem_keys_groupedMeans, (h.map _).mem_iff]

end LoadSweep
