import LoadSweep.Proofs.Double.Rounding

/-! Sums, differences and products of finite doubles are the exact ones rounded to the nearest double. -/
namespace LoadSweep.Double

open Float.Model (Format UnpackedFloat totalExponent)
open Float.Model.UnpackedFloat (Sign Accuracy pack unpack decreaseExponent accuracyOfFraction divCore)

/-- The nearest point of the grid, of either sign. -/
def rounded (x : ℚ) : ℚ := signed (signOf x) (nearest |x|)

/-- A double is the nearest one to a number, or the infinity of its sign if the number is out of range. -/
structure IsRounded (x : ℚ) (r : Float) : Prop where
  inRange : |x| < overflow → r.isFinite = true ∧ value r = rounded x
  beyond : overflow ≤ |x| → Decimal.unpack r = .infinity (signOf x)

theorem rounded_of_nonneg {x : ℚ} (hx : 0 ≤ x) : rounded x = nearest x := by
  rw [rounded, signOf, if_neg (not_lt.2 hx), abs_of_nonneg hx, signed]

theorem rounded_of_neg {x : ℚ} (hx : x < 0) : rounded x = -nearest (-x) := by
  rw [rounded, signOf, if_pos hx, abs_of_neg hx, signed]

theorem rounded_le {c x : ℚ} (hc : OnGrid |c|) (h : x ≤ c) : rounded x ≤ c := by
  rcases lt_or_ge x 0 with hx | hx
  · rw [rounded_of_neg hx]
    rcases le_or_gt 0 c with hc0 | hc0
    · linarith [nearest_nonneg (neg_nonneg.2 hx.le)]
    · rw [abs_of_neg hc0] at hc
      linarith [le_nearest hc (neg_le_neg h)]
  · rw [abs_of_nonneg (hx.trans h)] at hc
    rw [rounded_of_nonneg hx]
    exact nearest_le hc hx h

theorem le_rounded {c x : ℚ} (hc : OnGrid |c|) (h : c ≤ x) : c ≤ rounded x := by
  rcases lt_or_ge x 0 with hx | hx
  · rw [abs_of_neg (h.trans_lt hx)] at hc
    rw [rounded_of_neg hx]
    linarith [nearest_le hc (neg_nonneg.2 hx.le) (neg_le_neg h)]
  · rw [rounded_of_nonneg hx]
    rcases le_or_gt 0 c with hc0 | hc0
    · rw [abs_of_nonneg hc0] at hc
      exact le_nearest hc h
    · exact hc0.le.trans (nearest_nonneg hx)

theorem rounded_of_onGrid {x : ℚ} (hx : OnGrid |x|) : rounded x = x :=
  le_antisymm (rounded_le hx le_rfl) (le_rounded hx le_rfl)

/-- A result in its form, put into bits, is the rounded number. -/
theorem isRounded_of_shows {x : ℚ} {r : Float} {s : Sign} {u : UnpackedFloat} (h : Shows s (nearest |x|) u)
    (hs : x ≠ 0 → s = signOf x) (hr : Decimal.unpack r = unpack .binary64 (pack .binary64 u)) : IsRounded x r := by
  have hrange := nearest_lt_limit_iff (abs_nonneg x)
  constructor
  · intro hx
    rw [h.unpack_pack (hrange.2 hx)] at hr
    rw [← hr] at h
    refine ⟨h.isFinite, ?_⟩
    rw [h.value, rounded]
    by_cases hzero : x = 0
    · rw [hzero, abs_zero, nearest_zero, signed_zero, signed_zero]
    · rw [hs hzero]
  · intro hx
    have hsome : x ≠ 0 := by
      rintro rfl
      rw [abs_zero] at hx
      exact not_lt.2 hx overflow_pos
    rw [hr, h.unpack_pack_of_limit_le (not_lt.1 fun hlt => not_lt.2 hx (hrange.1 hlt)), hs hsome]

theorem signOf_signed {v : ℚ} (hv : 0 ≤ v) {s : Sign} (h : signed s v ≠ 0) : s = signOf (signed s v) := by
  cases s with
  | negative => exact (if_pos (lt_of_le_of_ne (neg_nonpos.2 hv) h)).symm
  | positive => exact (if_neg (not_lt.2 hv)).symm

theorem IsRounded.exact {x y : Float} (h : IsRounded (value x) y) (hx : x.isFinite = true) :
    y.isFinite = true ∧ value y = value x := by
  rw [← rounded_of_onGrid (onGrid_abs_value hx)]
  exact h.inRange (abs_value_lt hx)

/-- A positive number in range is rounded to a positive double. -/
theorem IsRounded.shows {q : ℚ} {r : Float} (h : IsRounded q r) (hq : 0 ≤ q) (hrange : q < overflow)
    (hpos : 0 < nearest q) : Shows .positive (nearest q) (Decimal.unpack r) := by
  obtain ⟨hfinite, hvalue⟩ := h.inRange ((abs_of_nonneg hq).symm ▸ hrange)
  obtain ⟨s, v, hshows, -⟩ := exists_shows hfinite
  have hsigned := hshows.value
  have hv := hshows.onGrid.nonneg
  rw [hvalue, rounded_of_nonneg hq] at hsigned
  cases s with
  | positive => exact hsigned ▸ hshows
  | negative =>
    have hneg : nearest q = -v := hsigned
    linarith

/-- A number from zero on that is rounded to a double, or to infinity if it is out of range. -/
structure Clipped (q : ℚ) (r : Float) : Prop where
  nonneg : 0 ≤ r
  finite_iff : r.isFinite = true ↔ q < overflow
  infinite : overflow ≤ q → Decimal.unpack r = .infinity .positive

theorem clipped_of_infinity {q : ℚ} {r : Float} (hq : overflow ≤ q) (hr : Decimal.unpack r = .infinity .positive) :
    Clipped q r := by
  have hinfinite : r.isFinite = false := by
    change (Decimal.unpack r).isFinite = false
    rw [hr]
    rfl
  exact ⟨zero_le_of_infinity hr, iff_of_false (by simp [hinfinite]) (not_lt.2 hq), fun _ => hr⟩

theorem clipped_of_finite {q : ℚ} {r : Float} (hq : q < overflow) (hr : r.isFinite = true) (hnonneg : 0 ≤ value r) :
    Clipped q r :=
  ⟨(zero_le_iff hr).2 hnonneg, iff_of_true hr hq, fun h => absurd hq (not_lt.2 h)⟩

theorem IsRounded.clipped {q : ℚ} {r : Float} (h : IsRounded q r) (hq : 0 ≤ q) : Clipped q r := by
  have habs : |q| = q := abs_of_nonneg hq
  rcases lt_or_ge q overflow with hlt | hge
  · obtain ⟨hfinite, hvalue⟩ := h.inRange (habs.symm ▸ hlt)
    refine clipped_of_finite hlt hfinite ?_
    rw [hvalue, rounded_of_nonneg hq]
    exact nearest_nonneg hq
  · have hinfinity := h.beyond (habs.symm ▸ hge)
    rw [signOf, if_neg (not_lt.2 hq)] at hinfinity
    exact clipped_of_infinity hge hinfinity

/-- With a smaller exponent there are more units of it. -/
theorem signed_decreaseExponent (s : Sign) (m : Nat) {e t : ℤ} (ht : t ≤ e) :
    ((s.apply ((decreaseExponent m e t).1 : ℤ) : ℤ) : ℚ) * 2 ^ t = signed s (m * 2 ^ e) := by
  obtain ⟨k, rfl⟩ := Int.le.dest ht
  have hk : (t + k - t).toNat = k := by omega
  have hunits := shiftLeft_mul_zpow m k (t + k)
  rw [Int.add_sub_cancel] at hunits
  rw [signed_apply, decreaseExponent, hk, hunits]

theorem shows_add {s t : Sign} {v w : ℚ} {u z : UnpackedFloat} (hu : Shows s v u) (hz : Shows t w z) :
    ∃ r, Shows r (nearest |signed s v + signed t w|) (UnpackedFloat.add .binary64 u z) ∧
      (signed s v + signed t w ≠ 0 → r = signOf (signed s v + signed t w)) := by
  have alone {s : Sign} {v : ℚ} {u : UnpackedFloat} (hu : Shows s v u) :
      ∃ r, Shows r (nearest |signed s v|) u ∧ (signed s v ≠ 0 → r = signOf (signed s v)) := by
    refine ⟨s, ?_, signOf_signed hu.onGrid.nonneg⟩
    rw [abs_signed hu.onGrid.nonneg, nearest_of_onGrid hu.onGrid]
    exact hu
  cases hu with
  | zero hv =>
    rw [hv, signed_zero, zero_add]
    cases hz with
    | zero hw =>
      rw [hw, signed_zero, abs_zero, nearest_zero]
      simp only [UnpackedFloat.add]
      split_ifs
      · exact ⟨s, .zero rfl, fun h => absurd rfl h⟩
      · exact ⟨.positive, .zero rfl, fun h => absurd rfl h⟩
    | finite hm digits least full hw => exact alone (.finite hm digits least full hw)
  | @finite m e hm digits least full hv =>
    cases hz with
    | zero hw =>
      rw [hw, signed_zero, add_zero]
      exact alone (.finite hm digits least full hv)
    | @finite n f hn digits' least' full' hw =>
      set units := s.apply ((decreaseExponent m e (min e f)).1 : ℤ) + t.apply ((decreaseExponent n f (min e f)).1 : ℤ)
      have hunits : (units : ℚ) * 2 ^ (min e f) = signed s v + signed t w := by
        rw [Int.cast_add, add_mul, signed_decreaseExponent s m (min_le_left e f),
          signed_decreaseExponent t n (min_le_right e f), hv, hw]
      change ∃ r, Shows r _ (UnpackedFloat.normalize .binary64 units (min e f) .positive) ∧ _
      rw [← hunits]
      rcases eq_or_ne units 0 with hzero | hsome
      · rw [hzero]
        refine ⟨.positive, ?_, fun h => absurd (by simp) h⟩
        rw [Int.cast_zero, zero_mul, abs_zero, nearest_zero]
        exact .zero rfl
      · exact ⟨_, shows_normalize hsome _ _, fun _ => rfl⟩

theorem Shows.neg {s : Sign} {v : ℚ} {u : UnpackedFloat} (h : Shows s v u) : Shows (-s) v u.neg := by
  cases h with
  | zero hv => exact .zero hv
  | finite hm digits least full hv => exact .finite hm digits least full hv

theorem signed_neg (s : Sign) (v : ℚ) : signed (-s) v = -signed s v := by
  cases s with
  | negative => exact (neg_neg v).symm
  | positive => rfl

theorem unpacked_sub (u z : UnpackedFloat) :
    UnpackedFloat.sub .binary64 u z = UnpackedFloat.add .binary64 u z.neg := by
  cases u <;> cases z <;> try rfl
  case finite.finite s m e hm t n f hn =>
    cases t <;> simp [UnpackedFloat.sub, UnpackedFloat.add, UnpackedFloat.neg, Sign.apply, Int.sub_eq_add_neg]

section

variable {x y : Float} (hx : x.isFinite = true) (hy : y.isFinite = true)

include hx hy

theorem isRounded_add : IsRounded (value x + value y) (x + y) := by
  obtain ⟨s, v, hu, -⟩ := exists_shows hx
  obtain ⟨t, w, hz, -⟩ := exists_shows hy
  obtain ⟨r, hshows, hsign⟩ := shows_add hu hz
  rw [hu.value, hz.value]
  exact isRounded_of_shows hshows hsign rfl

theorem isRounded_sub : IsRounded (value x - value y) (x - y) := by
  obtain ⟨s, v, hu, -⟩ := exists_shows hx
  obtain ⟨t, w, hz, -⟩ := exists_shows hy
  obtain ⟨r, hshows, hsign⟩ := shows_add hu hz.neg
  rw [← unpacked_sub] at hshows
  rw [hu.value, hz.value, sub_eq_add_neg, ← signed_neg]
  exact isRounded_of_shows hshows hsign rfl

end

theorem signed_mul (s t : Sign) (v w : ℚ) : signed s v * signed t w = signed (s * t) (v * w) := by
  cases s <;> cases t <;> simp [signed]

/-- The product of two numbers of units, if it has all digits or its unit is the least. -/
theorem shows_mul_units (s t : Sign) {m n : ℕ} {e f : ℤ} (hm : 0 < m) (hn : 0 < n)
    (hfull : 2 ^ 52 ≤ m * n ∨ e + f ≤ -1074) :
    Shows (s * t) (nearest (m * 2 ^ e * (n * 2 ^ f))) (UnpackedFloat.mul .binary64 (.finite s m e hm) (.finite t n f hn)) := by
  have hpos : 0 < m * n := Nat.mul_pos hm hn
  have hvalue : (m : ℚ) * 2 ^ e * (n * 2 ^ f) = ((m * n : ℕ) : ℚ) * 2 ^ (e + f) := by
    rw [two_zpow_add]
    push_cast
    ring
  have hexact : Holds (m * n) ((m * n : ℕ) : ℚ) .exact := rfl
  rw [hvalue]
  refine shows_roundWithAccuracy (s * t) hexact ?_ (.inl hpos)
  rcases hfull with hfull | hleast
  · have hlog : 52 ≤ (m * n).log2 := (Nat.le_log2 hpos.ne').2 hfull
    omega
  · omega

theorem shows_mul {s t : Sign} {v w : ℚ} {u z : UnpackedFloat} (hu : Shows s v u) (hz : Shows t w z) :
    Shows (s * t) (nearest (v * w)) (UnpackedFloat.mul .binary64 u z) := by
  cases hu with
  | zero hv =>
    rw [hv, zero_mul, nearest_zero]
    cases hz with
    | zero => exact .zero rfl
    | finite => exact .zero rfl
  | @finite m e hm digits least full hv =>
    cases hz with
    | zero hw =>
      rw [hw, mul_zero, nearest_zero]
      exact .zero rfl
    | @finite n f hn digits' least' full' hw =>
      rw [hv, hw]
      refine shows_mul_units s t hm hn ?_
      -- either factor has all its digits, or both exponents are the least
      rcases full with hfull | rfl
      · exact .inl (hfull.trans (Nat.le_mul_of_pos_right m hn))
      · rcases full' with hfull' | rfl
        · exact .inl (hfull'.trans (Nat.le_mul_of_pos_left n hm))
        · exact .inr (by norm_num)

theorem isRounded_mul {x y : Float} (hx : x.isFinite = true) (hy : y.isFinite = true) :
    IsRounded (value x * value y) (x * y) := by
  obtain ⟨s, v, hu, -⟩ := exists_shows hx
  obtain ⟨t, w, hz, -⟩ := exists_shows hy
  have hvw : 0 ≤ v * w := mul_nonneg hu.onGrid.nonneg hz.onGrid.nonneg
  have hshows := shows_mul hu hz
  rw [hu.value, hz.value, signed_mul]
  rw [← abs_signed hvw (s * t)] at hshows
  exact isRounded_of_shows hshows (signOf_signed hvw) rfl

end LoadSweep.Double
