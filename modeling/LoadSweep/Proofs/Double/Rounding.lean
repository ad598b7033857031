import LoadSweep.Proofs.Double.Unpacked

/-! A result is held as a whole number of units and what is known of the rest: nothing, less than half a unit, half a
unit or more. Halving the number of units keeps that knowledge, and it is enough to round to the nearest double. -/
namespace LoadSweep.Double

open Float.Model (Format UnpackedFloat totalExponent)
open Float.Model.UnpackedFloat (Sign Accuracy ExtendedMantissa roundWithAccuracy shiftToTargetExponent shiftToExponent)

/-- A number of units is `m` and the rest that an accuracy tells of. -/
def Holds (m : Nat) (y : ℚ) : Accuracy → Prop
  | .exact => y = m
  | .inexact .lt => m < y ∧ y < m + 1 / 2
  | .inexact .eq => y = m + 1 / 2
  | .inexact .gt => m + 1 / 2 < y ∧ y < m + 1

theorem Holds.bounds {m : Nat} {y : ℚ} {a : Accuracy} (h : Holds m y a) : m ≤ y ∧ y < m + 1 := by
  match a, h with
  | .exact, h => exact ⟨h.ge, by rw [show y = m from h]; linarith⟩
  | .inexact .lt, h => exact ⟨h.1.le, by linarith [h.2]⟩
  | .inexact .eq, h => rw [show y = m + 1 / 2 from h]; constructor <;> linarith
  | .inexact .gt, h => exact ⟨by linarith [h.1], h.2⟩

theorem Holds.round {m : Nat} {y : ℚ} {a : Accuracy} (h : Holds m y a) :
    (a.roundToNearestEven m : ℤ) = nearestEven y := by
  match a, h with
  | .exact, h =>
    rw [show y = ((m : ℤ) : ℚ) by exact_mod_cast h, nearestEven_intCast]
    rfl
  | .inexact .lt, h => exact (nearestEven_of_lt_half (n := m) (by exact_mod_cast h.1.le) (by exact_mod_cast h.2)).symm
  | .inexact .eq, h =>
    rw [show y = ((m : ℤ) : ℚ) + 1 / 2 by exact_mod_cast h, nearestEven_half]
    rfl
  | .inexact .gt, h => exact (nearestEven_of_half_lt (n := m) (by exact_mod_cast h.1) (by exact_mod_cast h.2)).symm

theorem Holds.shiftRightOne {em : ExtendedMantissa} {y : ℚ} (h : Holds em.mantissa y em.accuracy) :
    Holds em.shiftRightOne.mantissa (y / 2) em.shiftRightOne.accuracy := by
  obtain ⟨m, round, sticky⟩ := em
  have hm : m = 2 * (m / 2) + m % 2 := by omega
  have hcast : (m : ℚ) = 2 * (m / 2 : ℕ) + (m % 2 : ℕ) := by exact_mod_cast hm
  rcases Nat.mod_two_eq_zero_or_one m with hbit | hbit <;> rw [hbit] at hcast <;> cases round <;> cases sticky <;>
    simp only [ExtendedMantissa.shiftRightOne, ExtendedMantissa.accuracy, Holds, hbit, hcast] at h ⊢ <;> grind

theorem Holds.shiftRight {em : ExtendedMantissa} {y : ℚ} (h : Holds em.mantissa y em.accuracy) (k : Nat) :
    Holds (em >>> k).mantissa (y / 2 ^ k) (em >>> k).accuracy := by
  induction k with
  | zero =>
    rw [pow_zero, div_one]
    exact h
  | succ k ih =>
    rw [pow_succ, ← div_div]
    exact ih.shiftRightOne

theorem holds_ofMantissaAndAccuracy {m : Nat} {y : ℚ} {a : Accuracy} (h : Holds m y a) :
    Holds (ExtendedMantissa.ofMantissaAndAccuracy m a).mantissa y
      (ExtendedMantissa.ofMantissaAndAccuracy m a).accuracy := by
  match a, h with
  | .exact, h => exact h
  | .inexact .lt, h => exact h
  | .inexact .eq, h => exact h
  | .inexact .gt, h => exact h

theorem targetExponent_eq (m : Nat) (e : Int) :
    Format.binary64.targetExponent (totalExponent m e) = max (m.log2 + e - 52) (-1074) := by
  simp only [Format.targetExponent, totalExponent, Format.mantissaBits, Format.minExponent]
  omega

/-- The whole units already tell how far points of the grid lie apart. -/
theorem spacing_eq {m : Nat} {y : ℚ} {e : Int} (hlow : m ≤ y) (hhigh : y < m + 1) (hm : 0 < m ∨ e ≤ -1074)
    (hy : 0 < y) : spacing (y * 2 ^ e) = max (m.log2 + e - 52) (-1074) := by
  have hpos : 0 < y * 2 ^ e := mul_pos hy (two_zpow_pos e)
  have below {n : ℤ} (h : y * 2 ^ e < 2 ^ n) : Int.log 2 (y * 2 ^ e) < n :=
    (Int.lt_zpow_iff_log_lt (by norm_num) hpos).1 (by simpa using h)
  rcases Nat.eq_zero_or_pos m with rfl | hm'
  · have hlog : Int.log 2 (y * 2 ^ e) < e := below (by
      have hy1 : y < 1 := by simpa using hhigh
      exact mul_lt_of_lt_one_left (two_zpow_pos e) hy1)
    simp only [spacing, Nat.log2_zero]
    omega
  · have hlow' : (2 : ℚ) ^ m.log2 ≤ m := by exact_mod_cast Nat.log2_self_le hm'.ne'
    have hhigh' : (m : ℚ) + 1 ≤ 2 ^ (m.log2 + 1) := by exact_mod_cast Nat.lt_log2_self
    have hlog : Int.log 2 (y * 2 ^ e) = m.log2 + e := by
      apply le_antisymm
      · have hlt := below (n := ((m.log2 + 1 : ℕ) : ℤ) + e) (by
          rw [two_zpow_add, zpow_natCast]
          exact mul_lt_mul_of_pos_right (hhigh.trans_le hhigh') (two_zpow_pos e))
        push_cast at hlt
        omega
      · refine (Int.zpow_le_iff_le_log (by norm_num) hpos).1 ?_
        push_cast
        rw [two_zpow_add, zpow_natCast]
        exact mul_le_mul_of_nonneg_right (hlow'.trans hlow) (two_zpow_pos e).le
    rw [spacing, hlog]

theorem shiftToTargetExponent_of_lt {m : Nat} {e : Int} (hm : m < 2 ^ 53) (he : -1074 ≤ e) :
    (shiftToTargetExponent .binary64 m e .exact).1.mantissa = m ∧
      (shiftToTargetExponent .binary64 m e .exact).2 = e := by
  have hlog : m.log2 < 53 := by
    rcases Nat.eq_zero_or_pos m with rfl | hpos
    · norm_num
    · exact (Nat.log2_lt hpos.ne').2 hm
  have hshift : (Format.binary64.targetExponent (totalExponent m e) - e).toNat = 0 := by
    rw [targetExponent_eq]
    omega
  simp only [shiftToTargetExponent, shiftToExponent, hshift]
  exact ⟨rfl, by simp⟩

theorem shiftToTargetExponent_carry {e : Int} (he : -1074 ≤ e) :
    (shiftToTargetExponent .binary64 (2 ^ 53) e .exact).1.mantissa = 2 ^ 52 ∧
      (shiftToTargetExponent .binary64 (2 ^ 53) e .exact).2 = e + 1 := by
  have hshift : (Format.binary64.targetExponent (totalExponent (2 ^ 53) e) - e).toNat = 1 := by
    rw [targetExponent_eq, Nat.log2_two_pow]
    omega
  simp only [shiftToTargetExponent, shiftToExponent, hshift]
  exact ⟨rfl, rfl⟩

/-- After rounding there may be one digit too many; it is dropped, being zero. -/
theorem shows_carried (s : Sign) {m : Nat} {e : Int} (digits : m ≤ 2 ^ 53) (least : -1074 ≤ e)
    (full : 2 ^ 52 ≤ m ∨ e = -1074) :
    Shows s (m * 2 ^ e) (
      if h : (shiftToTargetExponent .binary64 m e .exact).1.mantissa = 0 then .zero s
      else .finite s (shiftToTargetExponent .binary64 m e .exact).1.mantissa
        (shiftToTargetExponent .binary64 m e .exact).2 (Nat.pos_of_ne_zero h)) := by
  rcases digits.lt_or_eq with hlt | rfl
  · obtain ⟨hmantissa, hexponent⟩ := shiftToTargetExponent_of_lt hlt least
    simp only [hmantissa, hexponent]
    split_ifs with hzero
    · exact .zero (by simp [hzero])
    · exact .finite _ hlt least full rfl
  · obtain ⟨hmantissa, hexponent⟩ := shiftToTargetExponent_carry least
    simp only [hmantissa, hexponent]
    rw [dif_neg (by norm_num)]
    refine .finite _ (by norm_num) (by omega) (.inl le_rfl) ?_
    rw [two_zpow_add, zpow_one]
    push_cast
    ring

/-- Once the digits that fit are kept, they are the nearest number of units of the spacing: at most one digit too
many, and as many as there is room for unless the spacing is the least. -/
theorem nearestEven_kept {m : Nat} {y : ℚ} {e : Int} {k : Nat} (hlow : m ≤ y) (hhigh : y < m + 1)
    (hm : 0 < m ∨ e ≤ -1074) (hk : e + k = max (m.log2 + e - 52) (-1074)) :
    nearestEven (y / 2 ^ k) * 2 ^ (e + k) = nearest (y * 2 ^ e) ∧ nearestEven (y / 2 ^ k) ≤ 2 ^ 53 ∧
      (2 ^ 52 ≤ nearestEven (y / 2 ^ k) ∨ e + k = -1074) := by
  have hy : 0 ≤ y := le_trans (Nat.cast_nonneg m) hlow
  have hpow : (0 : ℚ) < 2 ^ k := pow_pos (by norm_num) k
  have hlog : m.log2 ≤ 52 + k := by omega
  refine ⟨?_, ?_, ?_⟩
  · rcases hy.eq_or_lt with rfl | hy
    · have hzero : nearestEven 0 = 0 := by simpa using nearestEven_intCast 0
      simp [nearest_zero, hzero]
    · have hscale : y * 2 ^ e / 2 ^ (e + k : ℤ) = y / 2 ^ k := by
        rw [two_zpow_add, zpow_natCast, mul_comm ((2 : ℚ) ^ e), mul_div_mul_right _ _ (two_zpow_pos e).ne']
      rw [nearest, spacing_eq hlow hhigh hm hy, ← hk, hscale]
  · have hfits : (m : ℚ) + 1 ≤ 2 ^ (53 + k) := by
      have hlt : m < 2 ^ (m.log2 + 1) := Nat.lt_log2_self
      have hle : 2 ^ (m.log2 + 1) ≤ 2 ^ (53 + k) := Nat.pow_le_pow_right (by norm_num) (by omega)
      exact_mod_cast hlt.trans_le hle
    refine nearestEven_le ?_
    rw [div_le_iff₀ hpow, Int.cast_pow, Int.cast_ofNat, ← pow_add]
    exact (hhigh.trans_le hfits).le
  · rcases eq_or_ne (e + k : ℤ) (-1074) with hleast | hleast
    · exact .inr hleast
    · have hlog' : m.log2 = 52 + k := by omega
      have hm' : m ≠ 0 := by
        rintro rfl
        simp at hlog'
        omega
      have hfull : (2 : ℚ) ^ (52 + k) ≤ m := by exact_mod_cast hlog' ▸ Nat.log2_self_le hm'
      left
      refine le_nearestEven ?_
      rw [le_div_iff₀ hpow, Int.cast_pow, Int.cast_ofNat, ← pow_add]
      exact hfull.trans hlow

/-- A number of units is rounded to the nearest point of the grid. -/
theorem shows_roundWithAccuracy (s : Sign) {m : Nat} {y : ℚ} {e : Int} {a : Accuracy} (h : Holds m y a)
    (he : e ≤ max (m.log2 + e - 52) (-1074)) (hm : 0 < m ∨ e ≤ -1074) :
    Shows s (nearest (y * 2 ^ e)) (roundWithAccuracy .binary64 s m e a) := by
  obtain ⟨k, hk⟩ := Int.le.dest he
  have hshift : shiftToTargetExponent .binary64 m e a =
      (ExtendedMantissa.ofMantissaAndAccuracy m a >>> k, e + k) := by
    have hamount : (max (m.log2 + e - 52) (-1074) - e).toNat = k := by omega
    rw [shiftToTargetExponent, targetExponent_eq, shiftToExponent, hamount]
  have hround : ((ExtendedMantissa.ofMantissaAndAccuracy m a >>> k).roundedMantissa : ℤ) = nearestEven (y / 2 ^ k) :=
    ((holds_ofMantissaAndAccuracy h).shiftRight k).round
  obtain ⟨hnearest, hdigits, hfull⟩ := nearestEven_kept h.bounds.1 h.bounds.2 hm hk
  rw [← hround] at hnearest hdigits hfull
  rw [← hnearest, roundWithAccuracy]
  simp only [hshift]
  exact shows_carried s (by omega) (by omega) (by omega)

theorem log2_shiftLeft {m : Nat} (hm : 0 < m) (k : Nat) : (m <<< k).log2 = m.log2 + k := by
  rw [Nat.shiftLeft_eq]
  refine (Nat.log2_eq_iff (Nat.mul_pos hm (Nat.two_pow_pos k)).ne').2 ⟨?_, ?_⟩
  · rw [Nat.pow_add]
    exact Nat.mul_le_mul_right _ (Nat.log2_self_le hm.ne')
  · rw [Nat.add_right_comm, Nat.pow_add]
    exact Nat.mul_lt_mul_of_pos_right Nat.lt_log2_self (Nat.two_pow_pos k)

theorem shiftLeft_mul_zpow (m k : Nat) (e : ℤ) : ((m <<< k : ℕ) : ℚ) * 2 ^ (e - k) = m * 2 ^ e := by
  have hpow : (2 : ℚ) ^ e = 2 ^ (e - k) * 2 ^ k := by rw [← zpow_natCast, ← two_zpow_add, Int.sub_add_cancel]
  rw [Nat.shiftLeft_eq, hpow]
  push_cast
  ring

theorem shows_round (s : Sign) {m : Nat} (hm : 0 < m) (e : ℤ) :
    Shows s (nearest (m * 2 ^ e)) (UnpackedFloat.round .binary64 s m e) := by
  unfold UnpackedFloat.round UnpackedFloat.decreaseExponent
  simp only [targetExponent_eq]
  generalize hk : (e - max (m.log2 + e - 52) (-1074)).toNat = k
  have hlog := log2_shiftLeft hm k
  have hexact : Holds (m <<< k) ((m <<< k : ℕ) : ℚ) .exact := rfl
  rw [← shiftLeft_mul_zpow m k e]
  refine shows_roundWithAccuracy s hexact ?_ (.inl ?_)
  · omega
  · rw [Nat.shiftLeft_eq]
    exact Nat.mul_pos hm (Nat.two_pow_pos k)

/-- The sign of a number, positive for zero. -/
def signOf (x : ℚ) : Sign := if x < 0 then .negative else .positive

theorem shows_normalize {n : ℤ} (hn : n ≠ 0) (e : ℤ) (z : Sign) :
    Shows (signOf (n * 2 ^ e)) (nearest |n * 2 ^ e|) (UnpackedFloat.normalize .binary64 n e z) := by
  have hpos := two_zpow_pos e
  rw [abs_mul, abs_of_pos hpos]
  unfold UnpackedFloat.normalize
  rcases hn.lt_or_gt with hneg | hpos'
  · have hsign : signOf (n * 2 ^ e) = .negative :=
      if_pos (mul_neg_of_neg_of_pos (by exact_mod_cast hneg) hpos)
    have habs : |(n : ℚ)| = ((-n).toNat : ℕ) := by
      rw [abs_of_neg (by exact_mod_cast hneg)]
      exact_mod_cast (Int.toNat_of_nonneg (by omega : 0 ≤ -n)).symm
    rw [Int.compare_eq_lt.2 hneg, hsign, habs]
    exact shows_round .negative (by omega) e
  · have hsign : signOf (n * 2 ^ e) = .positive :=
      if_neg (not_lt.2 (mul_pos (by exact_mod_cast hpos') hpos).le)
    have habs : |(n : ℚ)| = (n.toNat : ℕ) := by
      rw [abs_of_pos (by exact_mod_cast hpos')]
      exact_mod_cast (Int.toNat_of_nonneg hpos'.le).symm
    rw [Int.compare_eq_gt.2 hpos', hsign, habs]
    exact shows_round .positive (by omega) e

end LoadSweep.Double
