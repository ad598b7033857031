import LoadSweep.Decimal.Reader
import LoadSweep.Proofs.Double.Division

/-! A whole number of units of a power of ten becomes the nearest double. Few digits and a small power are doubles
themselves, so one product or quotient is enough; otherwise the power is taken exactly, unless it is so large or so
small that the result is beyond all doubles. -/
namespace LoadSweep.Double

open Float.Model (Format UnpackedFloat)
open Float.Model.UnpackedFloat (Sign pack unpack)

theorem onGrid_natCast {n : ℕ} (hn : n < 2 ^ 53) : OnGrid n := ⟨n, 0, hn, by norm_num, by simp⟩

theorem natCast_lt_overflow {n : ℕ} (hn : n < 2 ^ 53) : (n : ℚ) < overflow := by
  have hcast : (n : ℚ) < 2 ^ 53 := by exact_mod_cast hn
  have hgap := one_le_halfGap
  rw [overflow]
  linarith

theorem shows_natCast {n : ℕ} (hn : n < 2 ^ 53) :
    Shows .positive n (unpack .binary64 (pack .binary64 (UnpackedFloat.normalize .binary64 (n : ℤ) 0 .positive))) := by
  rcases Nat.eq_zero_or_pos n with rfl | hpos
  · exact .zero rfl
  · have hshows := shows_normalize (n := n) (by omega) 0 .positive
    rw [zpow_zero, mul_one, Int.cast_natCast, abs_of_nonneg (Nat.cast_nonneg n), nearest_of_onGrid (onGrid_natCast hn),
      signOf, if_neg (not_lt.2 (Nat.cast_nonneg n))] at hshows
    rwa [hshows.unpack_pack ((natCast_lt_overflow hn).trans overflow_lt_limit)]

theorem shows_toFloat {n : ℕ} (hn : n < 2 ^ 53) : Shows .positive n (Decimal.unpack n.toUInt64.toFloat) := by
  have hunpack : Decimal.unpack n.toUInt64.toFloat =
      unpack .binary64 (pack .binary64 (UnpackedFloat.normalize .binary64 (n.toUInt64.toNat : ℤ) 0 .positive)) := rfl
  have hword : n.toUInt64.toNat = n := by
    rw [Nat.toUInt64, UInt64.toNat_ofNat']
    exact Nat.mod_eq_of_lt (by omega)
  rw [hunpack, hword]
  exact shows_natCast hn

theorem value_toFloat {n : ℕ} (hn : n < 2 ^ 53) : n.toUInt64.toFloat.isFinite = true ∧ value n.toUInt64.toFloat = n :=
  ⟨(shows_toFloat hn).isFinite, (shows_toFloat hn).value⟩

theorem value_powerOfTen (k : Fin Float.exactlyRepresentablePowersOfTen.size) :
    Float.exactlyRepresentablePowersOfTen[k].isFinite = true ∧
      value Float.exactlyRepresentablePowersOfTen[k] = 10 ^ k.val := by
  revert k
  decide +kernel

theorem nearest_eq_zero {q : ℚ} (hq : 0 < q) (h : q < 2 ^ (-1075 : ℤ)) : nearest q = 0 := by
  have hlog : Int.log 2 q < -1075 := (Int.lt_zpow_iff_log_lt (by norm_num) hq).1 (by exact_mod_cast h)
  have hspacing : spacing q = -1074 := by
    rw [spacing]
    omega
  have hhalf : (2 : ℚ) ^ (-1075 : ℤ) = 1 / 2 * 2 ^ (-1074 : ℤ) := by
    rw [show (-1075 : ℤ) = -1 + -1074 by norm_num, two_zpow_add]
    norm_num
  have hround : nearestEven (q / 2 ^ (-1074 : ℤ)) = 0 := by
    have hpos := two_zpow_pos (-1074)
    refine nearestEven_of_lt_half (n := 0) (div_nonneg hq.le hpos.le) ?_
    rw [div_lt_iff₀ hpos]
    linarith
  rw [nearest, hspacing, hround, Int.cast_zero, zero_mul]

theorem scientific_lt {n : ℕ} {e : ℤ} (he : e < -(2 ^ 11 + n.log2)) : (n : ℚ) * 10 ^ e < 2 ^ (-1075 : ℤ) := by
  obtain ⟨k, rfl⟩ : ∃ k : ℕ, e = -k := ⟨e.natAbs, by omega⟩
  have hn : (n : ℚ) < 2 ^ (n.log2 + 1) := by exact_mod_cast Nat.lt_log2_self
  have hten : (10 : ℚ) ^ (-k : ℤ) ≤ 2 ^ (-k : ℤ) := by
    rw [zpow_neg, zpow_neg, zpow_natCast, zpow_natCast]
    exact inv_anti₀ (by positivity) (pow_le_pow_left₀ (by norm_num) (by norm_num) k)
  calc (n : ℚ) * 10 ^ (-k : ℤ) ≤ n * 2 ^ (-k : ℤ) := mul_le_mul_of_nonneg_left hten (Nat.cast_nonneg n)
    _ < 2 ^ (n.log2 + 1) * 2 ^ (-k : ℤ) := mul_lt_mul_of_pos_right hn (two_zpow_pos _)
    _ = 2 ^ ((n.log2 + 1 : ℕ) + -k : ℤ) := by rw [two_zpow_add, zpow_natCast]
    _ ≤ 2 ^ (-1075 : ℤ) := zpow_le_zpow_right₀ (by norm_num) (by push_cast; omega)

theorem overflow_le_scientific {n : ℕ} (hn : 0 < n) {e : ℤ} (he : 2 ^ 11 < e) : overflow ≤ (n : ℚ) * 10 ^ e := by
  obtain ⟨k, rfl⟩ := Int.eq_ofNat_of_zero_le (by omega : 0 ≤ e)
  have hn' : (1 : ℚ) ≤ n := by exact_mod_cast hn
  calc overflow ≤ limit := overflow_lt_limit.le
    _ = 2 ^ (1024 : ℤ) := limit_eq
    _ ≤ 2 ^ (k : ℤ) := zpow_le_zpow_right₀ (by norm_num) (by omega)
    _ ≤ 10 ^ (k : ℤ) := by
      rw [zpow_natCast, zpow_natCast]
      exact pow_le_pow_left₀ (by norm_num) (by norm_num) k
    _ ≤ n * 10 ^ (k : ℤ) := le_mul_of_one_le_left (by positivity) hn'

theorem shows_ofScientific (n : ℕ) {e : ℤ} (he : e ≤ 2 ^ 11) :
    Shows .positive (nearest (n * 10 ^ e)) (UnpackedFloat.ofScientific .binary64 n e) := by
  unfold UnpackedFloat.ofScientific
  have hbits : (2 : ℤ) ^ Format.binary64.exponentBits = 2 ^ 11 := rfl
  rw [hbits]
  split_ifs with hn hlarge hsmall hwhole
  · rw [hn, Nat.cast_zero, zero_mul, nearest_zero]
    exact .zero rfl
  · omega
  · have hpos : (0 : ℚ) < n * 10 ^ e := mul_pos (by exact_mod_cast Nat.pos_of_ne_zero hn) (zpow_pos (by norm_num) e)
    rw [nearest_eq_zero hpos (scientific_lt hsmall)]
    exact .zero rfl
  · obtain ⟨k, rfl⟩ := Int.eq_ofNat_of_zero_le hwhole
    have hshift : 0 < n <<< 53 := by
      rw [Nat.shiftLeft_eq]
      exact Nat.mul_pos (Nat.pos_of_ne_zero hn) (Nat.two_pow_pos 53)
    have hten : 0 < 10 ^ k := Nat.pow_pos (by norm_num)
    have hfull : 2 ^ 52 ≤ n <<< 53 * 10 ^ k := by
      rw [Nat.shiftLeft_eq, Nat.mul_assoc, Nat.mul_left_comm]
      calc 2 ^ 52 ≤ 2 ^ 53 := by norm_num
        _ ≤ 2 ^ 53 * (n * 10 ^ k) := Nat.le_mul_of_pos_right _ (Nat.mul_pos (Nat.pos_of_ne_zero hn) hten)
    have hvalue : ((n <<< 53 : ℕ) : ℚ) * 2 ^ (-53 : ℤ) * ((10 ^ k : ℕ) * 2 ^ (0 : ℤ)) = n * 10 ^ (k : ℤ) := by
      have hunits := shiftLeft_mul_zpow n 53 0
      rw [zpow_zero, mul_one] at hunits
      rw [zpow_natCast, zpow_zero, mul_one, Nat.cast_pow, Nat.cast_ofNat, ← hunits]
      rfl
    rw [← hvalue]
    exact shows_mul_units .positive .positive hshift hten (.inl hfull)
  · obtain ⟨k, rfl⟩ : ∃ k : ℕ, e = -k := ⟨e.natAbs, by omega⟩
    have hvalue : (n : ℚ) * 2 ^ (0 : ℤ) / ((10 ^ k : ℕ) * 2 ^ (0 : ℤ)) = n * 10 ^ (-k : ℤ) := by
      rw [zpow_zero, mul_one, mul_one, zpow_neg, zpow_natCast, Nat.cast_pow, Nat.cast_ofNat, div_eq_mul_inv]
    rw [← hvalue]
    simp only [neg_neg, Int.toNat_natCast]
    exact shows_div_units .positive .positive 0 0 (Nat.pos_of_ne_zero hn) (Nat.pow_pos (by norm_num))

theorem isRounded_model (n : ℕ) (e : ℤ) : IsRounded (n * 10 ^ e) (Float.ofModel (Float.Model.ofScientific n e)) := by
  have hnonneg : (0 : ℚ) ≤ n * 10 ^ e := mul_nonneg (Nat.cast_nonneg n) (zpow_pos (by norm_num) e).le
  have hsign : n * (10 : ℚ) ^ e ≠ 0 → Sign.positive = signOf (n * 10 ^ e) := fun _ => (if_neg (not_lt.2 hnonneg)).symm
  rcases le_or_gt e (2 ^ 11) with he | he
  · have hshows := shows_ofScientific n he
    rw [← abs_of_nonneg hnonneg] at hshows
    exact isRounded_of_shows hshows hsign rfl
  rcases Nat.eq_zero_or_pos n with rfl | hn
  · refine isRounded_of_shows (s := .positive) (u := .zero .positive) (.zero ?_) hsign rfl
    rw [Nat.cast_zero, zero_mul, abs_zero, nearest_zero]
  · have hover := overflow_le_scientific hn he
    refine ⟨fun hin => absurd hin (not_lt.2 (hover.trans (le_abs_self _))), fun _ => ?_⟩
    have hinfinite : UnpackedFloat.ofScientific .binary64 n e = .infinity .positive := by
      rw [UnpackedFloat.ofScientific, dif_neg hn.ne', if_pos he]
    change unpack .binary64 (pack .binary64 (UnpackedFloat.ofScientific .binary64 n e)) = _
    rw [hinfinite, ← hsign (overflow_pos.trans_le hover).ne']
    rfl

/-- Digits and a power of ten become the nearest double. -/
theorem isRounded_nearest (n : ℕ) (e : ℤ) : IsRounded (n * 10 ^ e) (Decimal.nearest n e) := by
  cases e with
  | ofNat k =>
    have hsign : decide (Int.ofNat k < 0) = false := decide_eq_false (not_lt.2 (Int.natCast_nonneg k))
    rw [Decimal.nearest, hsign, Int.natAbs_ofNat', Float.ofScientific]
    by_cases hfast : n < 2 ^ 53 ∧ k ≤ 22
    · obtain ⟨hn, hnvalue⟩ := value_toFloat hfast.1
      obtain ⟨hten, htenvalue⟩ := value_powerOfTen ⟨k, Nat.lt_succ_of_le hfast.2⟩
      have hproduct := isRounded_mul hn hten
      rw [hnvalue, htenvalue] at hproduct
      rw [dif_pos hfast, Int.ofNat_eq_natCast, zpow_natCast]
      exact hproduct
    · rw [dif_neg hfast]
      exact isRounded_model n k
  | negSucc k =>
    have hsign : decide (Int.negSucc k < 0) = true := decide_eq_true (Int.negSucc_lt_zero k)
    rw [Decimal.nearest, hsign, Int.natAbs_negSucc, Float.ofScientific]
    by_cases hfast : n < 2 ^ 53 ∧ k + 1 ≤ 22
    · obtain ⟨hn, hnvalue⟩ := value_toFloat hfast.1
      obtain ⟨hten, htenvalue⟩ := value_powerOfTen ⟨k + 1, Nat.lt_succ_of_le hfast.2⟩
      have hquotient := isRounded_div hn hten (by rw [htenvalue]; positivity)
      rw [hnvalue, htenvalue] at hquotient
      rw [dif_pos hfast, zpow_negSucc, ← div_eq_mul_inv]
      exact hquotient
    · rw [dif_neg hfast]
      exact isRounded_model n (Int.negSucc k)

theorem isRounded_ofNat (n : ℕ) : IsRounded n (Float.ofNat n) := by
  have h := isRounded_nearest n 0
  rw [zpow_zero, mul_one] at h
  exact h

theorem value_ofNat {n : ℕ} (hn : n < 2 ^ 53) : (Float.ofNat n).isFinite = true ∧ value (Float.ofNat n) = n := by
  have habs : |(n : ℚ)| = n := abs_of_nonneg (Nat.cast_nonneg n)
  have hgrid : OnGrid |(n : ℚ)| := habs.symm ▸ onGrid_natCast hn
  have hcount := (isRounded_ofNat n).inRange (habs.symm ▸ natCast_lt_overflow hn)
  rwa [rounded_of_onGrid hgrid] at hcount

end LoadSweep.Double
