import LoadSweep.Proofs.Double.Division

/-! Finite doubles are ordered as the numbers that they are, and each number is but one of them for a sign. What has
left the range of doubles stays outside: no sum, difference or quotient brings it back. -/
namespace LoadSweep.Double

open Float.Model (UnpackedFloat)
open Float.Model.UnpackedFloat (Sign pack unpack)

/-- Of two numbers in their forms, the one with the larger exponent is larger. -/
theorem lt_of_exponent_lt {m n : ℕ} {e f : ℤ} (digits : m < 2 ^ 53) (least : -1074 ≤ e)
    (full : 2 ^ 52 ≤ n ∨ f = -1074) (h : e < f) : (m : ℚ) * 2 ^ e < n * 2 ^ f := by
  have hdigits : (m : ℚ) < 2 ^ 53 := by exact_mod_cast digits
  have hfull : (2 : ℚ) ^ 52 ≤ n := by exact_mod_cast full.resolve_right (by omega)
  have hpow : (2 : ℚ) ^ (e + 1) ≤ 2 ^ f := zpow_le_zpow_right₀ (by norm_num) (by omega)
  calc (m : ℚ) * 2 ^ e < 2 ^ 53 * 2 ^ e := mul_lt_mul_of_pos_right hdigits (two_zpow_pos e)
    _ = 2 ^ 52 * 2 ^ (e + 1) := by rw [two_zpow_add, zpow_one]; ring
    _ ≤ 2 ^ 52 * 2 ^ f := mul_le_mul_of_nonneg_left hpow (by norm_num)
    _ ≤ n * 2 ^ f := mul_le_mul_of_nonneg_right hfull (two_zpow_pos f).le

/-- Forms are compared by their exponents, then by their digits. -/
theorem isLE_compare_iff {m n : ℕ} {e f : ℤ} (digits : m < 2 ^ 53) (least : -1074 ≤ e) (full : 2 ^ 52 ≤ m ∨ e = -1074)
    (digits' : n < 2 ^ 53) (least' : -1074 ≤ f) (full' : 2 ^ 52 ≤ n ∨ f = -1074) :
    ((compare e f).then (compare m n)).isLE = true ↔ (m : ℚ) * 2 ^ e ≤ n * 2 ^ f := by
  rcases lt_trichotomy e f with h | rfl | h
  · have hlt := lt_of_exponent_lt digits least full' h
    simp [compare_lt_iff_lt.2 h, hlt.le]
  · have hcancel : (m : ℚ) * 2 ^ e ≤ n * 2 ^ e ↔ m ≤ n := by
      rw [mul_le_mul_iff_of_pos_right (two_zpow_pos e)]
      exact Nat.cast_le
    rw [hcancel]
    simp [Nat.isLE_compare]
  · have hlt := lt_of_exponent_lt digits' least' full h
    simp [compare_gt_iff_gt.2 h, hlt]

theorem le_iff {x y : Float} (hx : x.isFinite = true) (hy : y.isFinite = true) : x ≤ y ↔ value x ≤ value y := by
  obtain ⟨s, v, hshows, -⟩ := exists_shows hx
  obtain ⟨t, w, hshows', -⟩ := exists_shows hy
  rw [hshows.value, hshows'.value, le_iff_unpack]
  generalize Decimal.unpack x = u at hshows
  generalize Decimal.unpack y = z at hshows'
  cases hshows with
  | zero hv =>
    rw [hv, signed_zero]
    cases hshows' with
    | zero hw =>
      rw [hw, signed_zero]
      simp [UnpackedFloat.le, UnpackedFloat.compare]
    | finite hn digits' least' full' hw =>
      have hpos : 0 < w := hw ▸ mul_pos (by exact_mod_cast hn) (two_zpow_pos _)
      cases t <;> simp [signed, hpos, hpos.le, UnpackedFloat.le, UnpackedFloat.compare]
  | @finite m e hm digits least full hv =>
    have hpos : 0 < v := hv ▸ mul_pos (by exact_mod_cast hm) (two_zpow_pos _)
    cases hshows' with
    | zero hw =>
      rw [hw, signed_zero]
      cases s <;> simp [signed, hpos, hpos.le, UnpackedFloat.le, UnpackedFloat.compare]
    | @finite n f hn digits' least' full' hw =>
      have hpos' : 0 < w := hw ▸ mul_pos (by exact_mod_cast hn) (two_zpow_pos _)
      cases s with
      | positive => cases t with
        | positive =>
          rw [signed, signed, hv, hw, ← isLE_compare_iff digits least full digits' least' full']
          rfl
        | negative => simp [signed, UnpackedFloat.le, UnpackedFloat.compare]; linarith
      | negative => cases t with
        | positive => simp [signed, UnpackedFloat.le, UnpackedFloat.compare]; linarith
        | negative =>
          have hswap : ((compare e f).then (compare m n)).swap = (compare f e).then (compare n m) := by
            rw [Ordering.swap_then, Int.compare_swap, Nat.compare_swap]
          rw [signed, signed, neg_le_neg_iff, hv, hw, ← isLE_compare_iff digits' least' full' digits least full, ← hswap]
          rfl

/-- A sign and a magnitude have one form. -/
theorem Shows.unique {s : Sign} {v : ℚ} {u z : UnpackedFloat} (hu : Shows s v u) (hz : Shows s v z) : u = z := by
  cases hu with
  | zero hv =>
    cases hz with
    | zero => rfl
    | finite hn digits' least' full' hw =>
      have hpos : 0 < v := hw ▸ mul_pos (by exact_mod_cast hn) (two_zpow_pos _)
      exact absurd hv hpos.ne'
  | @finite m e hm digits least full hv =>
    cases hz with
    | zero hw =>
      have hpos : 0 < v := hv ▸ mul_pos (by exact_mod_cast hm) (two_zpow_pos _)
      exact absurd hw hpos.ne'
    | @finite n f hn digits' least' full' hw =>
      rw [hv] at hw
      rcases lt_trichotomy e f with h | rfl | h
      · exact absurd hw (lt_of_exponent_lt digits least full' h).ne
      · have hdigits : (m : ℚ) = n := mul_right_cancel₀ (two_zpow_pos e).ne' hw
        obtain rfl : m = n := by exact_mod_cast hdigits
        rfl
      · exact absurd hw (lt_of_exponent_lt digits' least' full h).ne'

theorem unpack_injective {x y : Float} (h : Decimal.unpack x = Decimal.unpack y) : x = y := by
  have hbits : x.toBits.toBitVec = y.toBits.toBitVec :=
    (UnpackedFloat.unpack_inj_of_valid x.toModel.valid y.toModel.valid).1 h
  exact Float.toBits_inj.1 (UInt64.toBitVec_inj.1 hbits)

theorem Shows.eq {s : Sign} {v : ℚ} {x y : Float} (hx : Shows s v (Decimal.unpack x))
    (hy : Shows s v (Decimal.unpack y)) : x = y := unpack_injective (hx.unique hy)

theorem unpack_pack_not_finite {u : UnpackedFloat} (h : u.isFinite = false) :
    (unpack .binary64 (pack .binary64 u)).isFinite = false := by
  cases u with
  | notANumber => rfl
  | infinity s => cases s <;> rfl
  | zero => cases h
  | finite => cases h

theorem add_not_finite {u z : UnpackedFloat} (h : u.isFinite = false ∨ z.isFinite = false) :
    (UnpackedFloat.add .binary64 u z).isFinite = false := by
  cases u <;> cases z <;> simp [UnpackedFloat.isFinite] at h <;> simp only [UnpackedFloat.add] <;> try split_ifs
  all_goals rfl

theorem div_not_finite {u z : UnpackedFloat} (h : u.isFinite = false) :
    (UnpackedFloat.div .binary64 u z).isFinite = false := by
  cases u <;> simp [UnpackedFloat.isFinite] at h <;> cases z <;> rfl

theorem neg_isFinite (u : UnpackedFloat) : u.neg.isFinite = u.isFinite := by
  cases u <;> rfl

variable {x y : Float}

/-- A finite sum has finite parts. -/
theorem isFinite_of_add (h : (x + y).isFinite = true) : x.isFinite = true ∧ y.isFinite = true := by
  change (unpack .binary64 (pack .binary64 (UnpackedFloat.add .binary64 (Decimal.unpack x) (Decimal.unpack y)))).isFinite =
    true at h
  change (Decimal.unpack x).isFinite = true ∧ (Decimal.unpack y).isFinite = true
  by_contra hparts
  rw [not_and_or, Bool.not_eq_true, Bool.not_eq_true] at hparts
  rw [unpack_pack_not_finite (add_not_finite hparts)] at h
  cases h

theorem isFinite_of_sub (h : (x - y).isFinite = true) : x.isFinite = true ∧ y.isFinite = true := by
  change (unpack .binary64 (pack .binary64 (UnpackedFloat.sub .binary64 (Decimal.unpack x) (Decimal.unpack y)))).isFinite =
    true at h
  change (Decimal.unpack x).isFinite = true ∧ (Decimal.unpack y).isFinite = true
  by_contra hparts
  rw [not_and_or, Bool.not_eq_true, Bool.not_eq_true, ← neg_isFinite (Decimal.unpack y)] at hparts
  rw [unpacked_sub, unpack_pack_not_finite (add_not_finite hparts)] at h
  cases h

theorem isFinite_of_div (h : (x / y).isFinite = true) : x.isFinite = true := by
  change (unpack .binary64 (pack .binary64 (UnpackedFloat.div .binary64 (Decimal.unpack x) (Decimal.unpack y)))).isFinite =
    true at h
  change (Decimal.unpack x).isFinite = true
  by_contra hpart
  rw [Bool.not_eq_true] at hpart
  rw [unpack_pack_not_finite (div_not_finite hpart)] at h
  cases h

theorem isInf_of_isFinite (h : x.isFinite = true) : x.isInf = false := by
  change (Decimal.unpack x).isInf = false
  change (Decimal.unpack x).isFinite = true at h
  cases hu : Decimal.unpack x <;> rw [hu] at h <;> first | rfl | cases h

/-- A double that equals zero is a zero of either sign. -/
theorem shows_of_beq_zero (h : (x == 0) = true) : ∃ s, Shows s 0 (Decimal.unpack x) := by
  change (Decimal.unpack x).beq (.zero .positive) = true at h
  cases hu : Decimal.unpack x with
  | notANumber => rw [hu] at h; cases h
  | infinity s => rw [hu] at h; cases s <;> cases h
  | zero s => exact ⟨s, .zero rfl⟩
  | finite s => rw [hu] at h; cases s <;> cases h

/-- A zero stays the same when it is divided by a positive number. -/
theorem div_of_beq_zero (hx : (x == 0) = true) (hy : y.isFinite = true) (hpos : 0 < value y) : x / y = x := by
  obtain ⟨s, hzero⟩ := shows_of_beq_zero hx
  obtain ⟨t, w, hshows, -⟩ := exists_shows hy
  rw [hshows.value] at hpos
  have hw : 0 ≤ w := hshows.onGrid.nonneg
  obtain rfl : t = .positive := by
    cases t with
    | positive => rfl
    | negative => exact absurd hpos (not_lt.2 (neg_nonpos.2 hw))
  have hquotient := shows_div hzero hshows hpos.ne'
  have hsign : s / Sign.positive = s := by cases s <;> rfl
  rw [zero_div, nearest_zero, hsign] at hquotient
  have hunpack : Decimal.unpack (x / y) =
      unpack .binary64 (pack .binary64 (UnpackedFloat.div .binary64 (Decimal.unpack x) (Decimal.unpack y))) := rfl
  rw [hquotient.unpack_pack limit_pos] at hunpack
  exact Shows.eq (hunpack ▸ hquotient) hzero

/-- A difference of doubles is out of range if and only if the exact difference is. -/
theorem sub_isFinite_iff (hx : x.isFinite = true) (hy : y.isFinite = true) :
    (x - y).isFinite = true ↔ |value x - value y| < overflow := by
  have hrounded := isRounded_sub hx hy
  refine ⟨fun h => not_le.1 fun hbeyond => ?_, fun h => (hrounded.inRange h).1⟩
  have hinfinite : (Decimal.unpack (x - y)).isFinite = true := h
  rw [hrounded.beyond hbeyond] at hinfinite
  cases hinfinite

end LoadSweep.Double
