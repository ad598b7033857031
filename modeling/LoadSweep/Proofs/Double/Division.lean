import LoadSweep.Proofs.Double.Arithmetic

/-! The quotient of finite doubles is the exact one rounded, with so many units taken that none of its digits are
lost. -/
namespace LoadSweep.Double

open Float.Model (Format UnpackedFloat totalExponent)
open Float.Model.UnpackedFloat (Sign pack unpack accuracyOfFraction divCore)

theorem holds_accuracyOfFraction (m : Nat) {n : Nat} (hn : 0 < n) :
    Holds (m / n) (m / n : ℚ) (accuracyOfFraction (m % n) n) := by
  have hn' : (0 : ℚ) < n := by exact_mod_cast hn
  have hquotient : (m / n : ℚ) = (m / n : ℕ) + (m % n : ℕ) / n := by
    rw [div_eq_iff hn'.ne', add_mul, div_mul_cancel₀ _ hn'.ne', mul_comm]
    exact_mod_cast (Nat.div_add_mod m n).symm
  have hlt : ((m % n : ℕ) : ℚ) / n < 1 := (div_lt_one hn').2 (by exact_mod_cast Nat.mod_lt m hn)
  rw [hquotient, accuracyOfFraction]
  generalize m % n = r at hlt ⊢
  split_ifs with hr
  · simp [Holds, hr]
  have hpos : (0 : ℚ) < r / n := div_pos (by exact_mod_cast Nat.pos_of_ne_zero hr) hn'
  rcases Nat.lt_trichotomy (2 * r) n with h | h | h
  · have hhalf : (r : ℚ) / n < 1 / 2 := by
      rw [div_lt_div_iff₀ hn' (by norm_num)]
      exact_mod_cast (by omega : r * 2 < 1 * n)
    rw [Nat.compare_eq_lt.2 h]
    exact ⟨by linarith, by linarith⟩
  · have hhalf : (r : ℚ) / n = 1 / 2 := by
      rw [div_eq_div_iff hn'.ne' (by norm_num)]
      exact_mod_cast (by omega : r * 2 = 1 * n)
    rw [Nat.compare_eq_eq.2 h]
    exact congrArg _ hhalf
  · have hhalf : 1 / 2 < (r : ℚ) / n := by
      rw [div_lt_div_iff₀ (by norm_num) hn']
      exact_mod_cast (by omega : 1 * n < r * 2)
    rw [Nat.compare_eq_gt.2 h]
    exact ⟨by linarith, by linarith⟩

/-- A quotient before it is rounded: units of a power of two, and what is known of the rest. -/
theorem divCore_eq (m : Nat) (e : ℤ) (n : Nat) (f : ℤ) :
    ∃ k : ℕ, ∃ t : ℤ, t + k = e - f ∧ t ≤ max (m.log2 - n.log2 + (e - f) - 53) (-1074) ∧
      divCore .binary64 m e n f = ((m <<< k) / n, t, accuracyOfFraction ((m <<< k) % n) n) := by
  have htarget : Format.binary64.targetExponent (totalExponent m e - totalExponent n f) =
      max (m.log2 - n.log2 + (e - f) - 53) (-1074) := by
    simp only [Format.targetExponent, totalExponent, Format.mantissaBits, Format.minExponent]
    omega
  set t := min (e - f) (max (m.log2 - n.log2 + (e - f) - 53) (-1074)) with ht
  refine ⟨(e - f - t).toNat, t, by omega, min_le_right _ _, ?_⟩
  rw [divCore, htarget]

/-- The quotient is taken to so many units that it has all digits of a double, or its exponent is the least. -/
theorem quotient_full {m n k : ℕ} {t d : ℤ} (hm : 0 < m) (hn : 0 < n) (hk : t + k = d)
    (ht : t ≤ max (m.log2 - n.log2 + d - 53) (-1074)) : 2 ^ 52 ≤ (m <<< k) / n ∨ t ≤ -1074 := by
  by_contra! h
  have hbits : n.log2 + 53 ≤ m.log2 + k := by omega
  refine not_le.2 h.1 ((Nat.le_div_iff_mul_le hn).2 ?_)
  calc 2 ^ 52 * n ≤ 2 ^ 52 * 2 ^ (n.log2 + 1) := Nat.mul_le_mul_left _ Nat.lt_log2_self.le
    _ = 2 ^ (n.log2 + 53) := by rw [← Nat.pow_add]; congr 1; omega
    _ ≤ 2 ^ (m.log2 + k) := Nat.pow_le_pow_right (by norm_num) hbits
    _ ≤ m <<< k := by
      rw [Nat.pow_add, Nat.shiftLeft_eq]
      exact Nat.mul_le_mul_right _ (Nat.log2_self_le hm.ne')

theorem shows_div_units (s t : Sign) {m n : ℕ} (e f : ℤ) (hm : 0 < m) (hn : 0 < n) :
    Shows (s / t) (nearest (m * 2 ^ e / (n * 2 ^ f))) (UnpackedFloat.div .binary64 (.finite s m e hm) (.finite t n f hn)) := by
  obtain ⟨k, d, hk, hd, hcore⟩ := divCore_eq m e n f
  have hn' : (n : ℚ) ≠ 0 := by exact_mod_cast hn.ne'
  have hvalue : (m : ℚ) * 2 ^ e / (n * 2 ^ f) = ((m <<< k : ℕ) : ℚ) / n * 2 ^ d := by
    rw [← shiftLeft_mul_zpow m k e, show e - k = d + f by omega, two_zpow_add]
    field_simp [hn', (two_zpow_pos f).ne']
  have hfull := quotient_full hm hn hk hd
  simp only [UnpackedFloat.div, hcore]
  rw [hvalue]
  refine shows_roundWithAccuracy _ (holds_accuracyOfFraction _ hn) ?_ ?_
  · rcases hfull with hfull | hleast
    · have hlog : 52 ≤ (m <<< k / n).log2 := (Nat.le_log2 (by omega)).2 hfull
      omega
    · omega
  · exact hfull.imp_left fun h => by omega

theorem shows_div {s t : Sign} {v w : ℚ} {u z : UnpackedFloat} (hu : Shows s v u) (hz : Shows t w z) (hw : w ≠ 0) :
    Shows (s / t) (nearest (v / w)) (UnpackedFloat.div .binary64 u z) := by
  cases hz with
  | zero hzero => exact absurd hzero hw
  | @finite n f hn digits' least' full' hw' =>
    cases hu with
    | zero hv =>
      rw [hv, zero_div, nearest_zero]
      exact .zero rfl
    | @finite m e hm digits least full hv =>
      rw [hv, hw']
      exact shows_div_units s t e f hm hn

theorem signed_div (s t : Sign) (v w : ℚ) : signed s v / signed t w = signed (s / t) (v / w) := by
  cases s with
  | negative => cases t with
    | negative => exact neg_div_neg_eq v w
    | positive => exact neg_div w v
  | positive => cases t with
    | negative => exact div_neg v
    | positive => rfl

theorem isRounded_div {x y : Float} (hx : x.isFinite = true) (hy : y.isFinite = true) (hsome : value y ≠ 0) :
    IsRounded (value x / value y) (x / y) := by
  obtain ⟨s, v, hu, -⟩ := exists_shows hx
  obtain ⟨t, w, hz, -⟩ := exists_shows hy
  have hvw : 0 ≤ v / w := div_nonneg hu.onGrid.nonneg hz.onGrid.nonneg
  rw [hz.value] at hsome
  have hw : w ≠ 0 := by
    rintro rfl
    exact hsome (signed_zero t)
  have hshows := shows_div hu hz hw
  rw [hu.value, hz.value, signed_div]
  rw [← abs_signed hvw (s / t)] at hshows
  exact isRounded_of_shows hshows (signOf_signed hvw) rfl

theorem div_infinity {x y : Float} {s : Sign} (hx : x.isFinite = true)
    (hy : Decimal.unpack y = .infinity s) : (x / y).isFinite = true ∧ value (x / y) = 0 := by
  obtain ⟨t, v, hshows, -⟩ := exists_shows hx
  have hquotient : UnpackedFloat.div .binary64 (Decimal.unpack x) (Decimal.unpack y) = .zero (t / s) := by
    rw [hy]
    generalize Decimal.unpack x = u at hshows
    cases hshows with
    | zero => rfl
    | finite => rfl
  have hunpack : Decimal.unpack (x / y) =
      unpack .binary64 (pack .binary64 (UnpackedFloat.div .binary64 (Decimal.unpack x) (Decimal.unpack y))) := rfl
  have hzero : Shows (t / s) 0 (.zero (t / s)) := .zero rfl
  rw [hquotient, hzero.unpack_pack limit_pos] at hunpack
  rw [← hunpack] at hzero
  exact ⟨hzero.isFinite, by rw [hzero.value, signed_zero]⟩

theorem infinity_div {x y : Float} (hx : Decimal.unpack x = .infinity .positive) (hy : y.isFinite = true)
    (hpos : 0 < value y) : Decimal.unpack (x / y) = .infinity .positive := by
  obtain ⟨s, v, hshows, -⟩ := exists_shows hy
  have hquotient : UnpackedFloat.div .binary64 (Decimal.unpack x) (Decimal.unpack y) = .infinity .positive := by
    rw [hshows.value] at hpos
    rw [hx]
    generalize Decimal.unpack y = u at hshows
    cases hshows with
    | zero hv =>
      rw [hv, signed_zero] at hpos
      exact absurd hpos (lt_irrefl 0)
    | finite hm digits least full hv =>
      cases s with
      | positive => rfl
      | negative =>
        have hv' : 0 < v := hv ▸ mul_pos (by exact_mod_cast hm) (two_zpow_pos _)
        exact absurd hpos (not_lt.2 (neg_nonpos.2 hv'.le))
  change unpack .binary64 (pack .binary64 (UnpackedFloat.div .binary64 (Decimal.unpack x) (Decimal.unpack y))) = _
  rw [hquotient]
  rfl

end LoadSweep.Double
