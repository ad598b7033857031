import LoadSweep.Decimal.Shortest
import LoadSweep.Proofs.Double.Rounding

/-! The basin of a double is cut so that its numbers are those that round to the double. So a decimal found in it
stands for the double, whatever its digits, and so does the exact value that is taken if none is found. -/
namespace LoadSweep

namespace Double

/-- A number within half of a whole number is rounded to it, at a half if it is even. -/
theorem nearestEven_of_near {n : ℤ} {y : ℚ} (hlow : n - 1 / 2 ≤ y) (hhigh : y ≤ n + 1 / 2)
    (hends : n % 2 = 0 ∨ n - 1 / 2 < y ∧ y < n + 1 / 2) : nearestEven y = n := by
  rcases lt_or_ge y n with hbelow | habove
  · rcases hlow.lt_or_eq with hlt | heq
    · have hround : nearestEven y = n - 1 + 1 :=
        nearestEven_of_half_lt (by push_cast; linarith) (by push_cast; linarith)
      omega
    · have heven : n % 2 = 0 := hends.resolve_right fun h => h.1.ne heq
      have hhalf : y = ((n - 1 : ℤ) : ℚ) + 1 / 2 := by push_cast; linarith
      rw [hhalf, nearestEven_half]
      omega
  · rcases hhigh.lt_or_eq with hlt | heq
    · exact nearestEven_of_lt_half habove hlt
    · have heven : n % 2 = 0 := hends.resolve_right fun h => h.2.ne heq
      rw [heq, nearestEven_half]
      omega

theorem nearest_of_spacing {q : ℚ} {e n : ℤ} (h : spacing q = e) (hn : nearestEven (q / 2 ^ e) = n) :
    nearest q = n * 2 ^ e := by
  rw [nearest, h, hn]

/-- With all its digits, a number of units tells how far points of the grid lie apart. -/
theorem spacing_of_digits {k : ℕ} {y : ℚ} {e : ℤ} (hlow : k ≤ y) (hhigh : y < k + 1) (hy : 0 < y)
    (digits : k < 2 ^ 53) (least : -1074 ≤ e) (full : 2 ^ 52 ≤ k ∨ e = -1074) : spacing (y * 2 ^ e) = e := by
  have hsome : 0 < k ∨ e ≤ -1074 := full.imp (fun h => by omega) fun h => h.le
  rw [spacing_eq hlow hhigh hsome hy]
  rcases full with hfull | rfl
  · have hlog : k.log2 = 52 := (Nat.log2_eq_iff (by omega)).2 ⟨hfull, digits⟩
    omega
  · have hlog : k.log2 < 53 := by
      rcases Nat.eq_zero_or_pos k with rfl | hk
      · norm_num
      · exact (Nat.log2_lt hk.ne').2 digits
    omega

end Double

namespace Decimal

open Double

def number (d : Decimal) : ℚ := d.digits * 10 ^ d.exponent

namespace Basin

/-- A number between the ends of a basin. -/
def Contains (b : Basin) (q : ℚ) : Prop :=
  if b.closed = true then b.low ≤ q * b.unit ∧ q * b.unit ≤ b.high else b.low < q * b.unit ∧ q * b.unit < b.high

theorem holds_iff {b : Basin} (hunit : 0 < b.unit) {fine : Nat} (hfine : 0 < fine) (point : Nat) :
    b.holds fine point = true ↔ b.Contains (point / (b.unit * fine)) := by
  have hunit' : (b.unit : ℚ) ≠ 0 := by exact_mod_cast hunit.ne'
  have hfine' : (0 : ℚ) < fine := by exact_mod_cast hfine
  have hpoint : (point / (b.unit * fine) : ℚ) * b.unit = point / fine := by
    field_simp
  rw [holds, Contains, hpoint, le_div_iff₀ hfine', div_le_iff₀ hfine', lt_div_iff₀ hfine', div_lt_iff₀ hfine']
  split_ifs
  · rw [Bool.and_eq_true, decide_eq_true_iff, decide_eq_true_iff]
    norm_cast
  · rw [Bool.and_eq_true, decide_eq_true_iff, decide_eq_true_iff]
    norm_cast

/-- The steps of a grid of decimals, in the two parts in which they are taken. -/
theorem number_eq_div (n : Nat) (step : Int) {unit : Nat} (hunit : 0 < unit) :
    (Decimal.mk n step).number =
      (n * (Nat.pow 10 step.toNat * unit) : ℕ) / (unit * (Nat.pow 10 (-step).toNat : ℕ)) := by
  have hunit' : (unit : ℚ) ≠ 0 := by exact_mod_cast hunit.ne'
  have hscale : (10 : ℚ) ^ step = 10 ^ step.toNat / 10 ^ (-step).toNat := by
    rw [← zpow_natCast, ← zpow_natCast, ← zpow_sub₀ (by norm_num)]
    congr 1
    omega
  rw [number, hscale]
  simp only [Nat.pow_eq, Nat.cast_mul, Nat.cast_pow, Nat.cast_ofNat]
  field_simp

/-- A point of a grid of decimals is in a basin if the decimal is. -/
theorem holds_step_iff {b : Basin} (hunit : 0 < b.unit) (step : Int) (k : Nat) :
    b.holds (Nat.pow 10 (-step).toNat) (k * (Nat.pow 10 step.toNat * b.unit)) = true ↔
      b.Contains (Decimal.mk k step).number := by
  rw [number_eq_div k _ hunit]
  exact holds_iff hunit (Nat.pow_pos (by norm_num)) _

theorem contains_of_withDigits? {b : Basin} (hunit : 0 < b.unit) {tie : Tie} {n : Nat} {d : Decimal}
    (h : b.withDigits? tie n = some d) : b.Contains d.number := by
  have hat (k : Nat) := holds_step_iff hunit (b.magnitude - n) k
  unfold withDigits? at h
  dsimp only at h
  split at h
  · cases h
  · rename_i hdown _
    cases h
    exact (hat _).1 hdown
  · rename_i _ hup
    cases h
    exact (hat _).1 hup
  · rename_i hdown hup
    split_ifs at h <;> cases h
    · exact (hat _).1 hdown
    · exact (hat _).1 hup
    · exact (hat _).1 hdown
    · exact (hat _).1 hup

/-- How far a basin reaches below its double, in units of the last digit. -/
def reach (m : Nat) (e : Int) : ℚ := if m = 2 ^ 52 ∧ -1074 < e then 1 / 4 else 1 / 2

theorem reach_le (m : Nat) (e : Int) : reach m e ≤ 1 / 2 := by
  unfold reach
  split_ifs <;> norm_num

theorem contains_of_iff {m : Nat} (hm : 0 < m) {e : Int} {q : ℚ} :
    (Basin.of m e).Contains q ↔
      if m % 2 = 0 then m - reach m e ≤ q / 2 ^ e ∧ q / 2 ^ e ≤ m + 1 / 2
      else m - reach m e < q / 2 ^ e ∧ q / 2 ^ e < m + 1 / 2 := by
  have hunit : (0 : ℚ) < (2 : ℚ) ^ (2 - e).toNat := pow_pos (by norm_num) _
  have hscale : (2 : ℚ) ^ (e - 2).toNat = 2 ^ e / 4 * 2 ^ (2 - e).toNat := by
    rw [show (4 : ℚ) = 2 ^ (2 : ℤ) by norm_num, ← zpow_natCast, ← zpow_natCast, ← zpow_sub₀ (by norm_num), ← two_zpow_add]
    congr 1
    omega
  have hlow : ((Basin.of m e).low : ℚ) = (m - reach m e) * 2 ^ e * (2 : ℚ) ^ (2 - e).toNat := by
    have hbelow : 2 ≤ 4 * m := by omega
    have hbelow' : 1 ≤ 4 * m := by omega
    simp only [Basin.of, Nat.pow_eq, reach]
    split_ifs
    · push_cast [hbelow']
      rw [hscale]
      ring
    · push_cast [hbelow]
      rw [hscale]
      ring
  have hhigh : ((Basin.of m e).high : ℚ) = (m + 1 / 2) * 2 ^ e * (2 : ℚ) ^ (2 - e).toNat := by
    simp only [Basin.of, Nat.pow_eq]
    push_cast
    rw [hscale]
    ring
  have hpow := two_zpow_pos e
  have hq : q * (Basin.of m e).unit = q * (2 : ℚ) ^ (2 - e).toNat := by
    simp [Basin.of]
  rw [Contains, hlow, hhigh, hq]
  simp only [mul_le_mul_iff_of_pos_right hunit, mul_lt_mul_iff_of_pos_right hunit, le_div_iff₀ hpow, div_le_iff₀ hpow, lt_div_iff₀ hpow,
    div_lt_iff₀ hpow]
  simp [Basin.of]

/-- The numbers in the basin of a double are rounded to it. -/
theorem Contains.nearest {m : Nat} {e : Int} (hm : 0 < m) (digits : m < 2 ^ 53) (least : -1074 ≤ e)
    (full : 2 ^ 52 ≤ m ∨ e = -1074) {q : ℚ} (h : (Basin.of m e).Contains q) : Double.nearest q = m * 2 ^ e := by
  have hm' : (1 : ℚ) ≤ m := by exact_mod_cast hm
  have hreach := reach_le m e
  obtain ⟨y, rfl⟩ : ∃ y : ℚ, q = y * 2 ^ e := ⟨q / 2 ^ e, (div_mul_cancel₀ _ (two_zpow_pos e).ne').symm⟩
  have hy : y * 2 ^ e / 2 ^ e = y := mul_div_cancel_right₀ _ (two_zpow_pos e).ne'
  rw [contains_of_iff hm, hy] at h
  have hlow : m - reach m e ≤ y := by
    split_ifs at h
    · exact h.1
    · exact h.1.le
  have hhigh : y ≤ m + 1 / 2 := by
    split_ifs at h
    · exact h.2
    · exact h.2.le
  have hends : (m : ℤ) % 2 = 0 ∨ m - reach m e < y ∧ y < m + 1 / 2 := by
    split_ifs at h with heven
    · exact .inl (by omega)
    · exact .inr h
  by_cases hhalf : m = 2 ^ 52 ∧ -1074 < e ∧ y < m
  · -- below a power of two the grid is twice as fine
    obtain ⟨rfl, hleast, hlt⟩ := hhalf
    have hquarter : reach (2 ^ 52) e = 1 / 4 := if_pos ⟨rfl, hleast⟩
    rw [hquarter] at hlow
    push_cast at hlow hlt ⊢
    have hfiner : (2 : ℚ) ^ e = 2 * 2 ^ (e - 1) := by
      rw [← zpow_one_add₀ (by norm_num), add_sub_cancel]
    have hspacing : spacing (2 * y * 2 ^ (e - 1)) = e - 1 :=
      spacing_of_digits (k := 2 ^ 53 - 1) (by norm_num; linarith) (by norm_num; linarith) (by linarith) (by norm_num)
        (by omega) (.inl (by norm_num))
    have hround : nearestEven (2 * y * 2 ^ (e - 1) / 2 ^ (e - 1)) = 2 ^ 53 := by
      rw [mul_div_cancel_right₀ _ (two_zpow_pos (e - 1)).ne']
      exact nearestEven_of_near (by push_cast; linarith) (by push_cast; linarith) (.inl (by norm_num))
    rw [hfiner, ← mul_assoc, mul_comm y, nearest_of_spacing hspacing hround]
    push_cast
    ring
  · have hspacing : spacing (y * 2 ^ e) = e := by
      rcases le_or_gt (m : ℚ) y with habove | hbelow
      · exact spacing_of_digits habove (by linarith) (by linarith) digits least full
      · have hfull : 2 ^ 52 ≤ m - 1 ∨ e = -1074 := by
          by_contra! hnot
          exact hhalf ⟨by omega, by omega, hbelow⟩
        have hcast : ((m - 1 : ℕ) : ℚ) = m - 1 := by push_cast [hm]; rfl
        exact spacing_of_digits (k := m - 1) (by linarith) (by linarith) (by linarith) (by omega) least hfull
    have hround : nearestEven y = m :=
      nearestEven_of_near (by push_cast; linarith) (by push_cast; linarith)
        (hends.imp_right fun h => ⟨by push_cast; linarith [h.1], by push_cast; exact h.2⟩)
    rw [nearest_of_spacing hspacing (hy.symm ▸ hround), Int.cast_natCast]

end Basin

theorem exact_number (m : Nat) (e : Int) : (exact m e).number = m * 2 ^ e := by
  unfold exact
  split_ifs with he
  · obtain ⟨k, rfl⟩ := Int.eq_ofNat_of_zero_le he
    simp [number]
  · obtain ⟨k, rfl⟩ : ∃ k : ℕ, e = -k := ⟨e.natAbs, by omega⟩
    have hten : (10 : ℚ) ^ (-k : ℤ) = (2 : ℚ) ^ (-k : ℤ) * ((5 : ℚ) ^ k)⁻¹ := by
      rw [← zpow_natCast, ← zpow_neg, ← mul_zpow]
      norm_num
    have hfive : (5 : ℚ) ^ k ≠ 0 := pow_ne_zero _ (by norm_num)
    simp only [number, hten, neg_neg, Int.toNat_natCast, Nat.pow_eq, Nat.cast_mul, Nat.cast_pow, Nat.cast_ofNat]
    field_simp

theorem contains_shortest (tie : Tie) {m : Nat} (hm : 0 < m) (e : Int) :
    (Basin.of m e).Contains (shortest tie m e).number := by
  unfold shortest
  cases hfound : (List.range 17).findSome? fun n => (Basin.of m e).withDigits? tie (n + 1) with
  | some d =>
    obtain ⟨n, -, hd⟩ := List.exists_of_findSome?_eq_some hfound
    exact Basin.contains_of_withDigits? (Nat.pow_pos (by norm_num)) hd
  | none =>
    have hreach : 0 < Basin.reach m e := by
      unfold Basin.reach
      split_ifs <;> norm_num
    rw [Option.getD_none, exact_number, Basin.contains_of_iff hm, mul_div_cancel_right₀ _ (two_zpow_pos e).ne']
    split_ifs
    · constructor <;> linarith
    · constructor <;> linarith

/-- The shortest decimal of a double is rounded to it. -/
theorem nearest_shortest (tie : Tie) {m : Nat} (hm : 0 < m) {e : Int} (digits : m < 2 ^ 53) (least : -1074 ≤ e)
    (full : 2 ^ 52 ≤ m ∨ e = -1074) : Double.nearest (shortest tie m e).number = m * 2 ^ e :=
  (contains_shortest tie hm e).nearest hm digits least full

end Decimal
end LoadSweep
