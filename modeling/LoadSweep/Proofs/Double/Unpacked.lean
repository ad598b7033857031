import LoadSweep.Decimal.Written
import LoadSweep.Proofs.Double.Nearest
import Mathlib

/-! A finite double is a sign and a point of the grid below the limit, each in exactly one form (but for the sign of
zero). Putting such a form into bits and taking it out again changes nothing; beyond the limit it leaves infinity. -/
namespace LoadSweep.Double

open Float.Model (Format UnpackedFloat)
open Float.Model.UnpackedFloat (Sign pack unpack packComponents unpackExponent unpackMantissa
  unpackExponent_packComponents unpackMantissa_packComponents unpackSign_packComponents packedInfinity)

/-- A magnitude with a sign. -/
def signed : Sign → ℚ → ℚ
  | .negative, v => -v
  | .positive, v => v

theorem abs_signed {v : ℚ} (hv : 0 ≤ v) (s : Sign) : |signed s v| = v := by
  cases s <;> simp [signed, abs_of_nonneg hv]

theorem signed_apply (s : Sign) (m : Nat) (c : ℚ) : ((s.apply m : ℤ) : ℚ) * c = signed s (m * c) := by
  cases s <;> simp [Sign.apply, signed]

theorem signed_zero (s : Sign) : signed s 0 = 0 := by
  cases s <;> simp [signed]

/-- A sign and a magnitude, in the form that has as many digits as there is room for. -/
inductive Shows (s : Sign) (v : ℚ) : UnpackedFloat → Prop
  | zero (hv : v = 0) : Shows s v (.zero s)
  | finite {m : Nat} {e : Int} (hm : 0 < m) (digits : m < 2 ^ 53) (least : -1074 ≤ e)
      (full : 2 ^ 52 ≤ m ∨ e = -1074) (hv : v = m * 2 ^ e) : Shows s v (.finite s m e hm)

theorem Shows.onGrid {s : Sign} {v : ℚ} {u : UnpackedFloat} (h : Shows s v u) : OnGrid v := by
  cases h with
  | zero hv => exact hv ▸ onGrid_zero
  | finite hm digits least full hv => exact ⟨_, _, digits, least, hv⟩

theorem exponent_le_iff {m : Nat} {e : Int} (digits : m < 2 ^ 53) (full : 2 ^ 52 ≤ m ∨ e = -1074) :
    e ≤ 971 ↔ (m : ℚ) * 2 ^ e < limit := by
  have hdigits : (m : ℚ) < 2 ^ 53 := by exact_mod_cast digits
  constructor
  · intro he
    have hpow : (2 : ℚ) ^ e ≤ 2 ^ (971 : ℤ) := zpow_le_zpow_right₀ (by norm_num) he
    calc (m : ℚ) * 2 ^ e < 2 ^ 53 * 2 ^ e := mul_lt_mul_of_pos_right hdigits (two_zpow_pos e)
      _ ≤ 2 ^ 53 * 2 ^ (971 : ℤ) := mul_le_mul_of_nonneg_left hpow (by norm_num)
      _ = limit := by rw [two_zpow_971_eq, limit]; ring
  · intro hlt
    by_contra he
    have hfull : (2 : ℚ) ^ 52 ≤ m := by exact_mod_cast full.resolve_right (by omega)
    have hpow : (2 : ℚ) ^ (971 + 1 : ℤ) ≤ 2 ^ e := zpow_le_zpow_right₀ (by norm_num) (by omega)
    have hge : limit ≤ m * 2 ^ e :=
      calc limit = 2 ^ 52 * 2 ^ (971 + 1 : ℤ) := by rw [two_zpow_add, two_zpow_971_eq, limit, zpow_one]; ring
        _ ≤ 2 ^ 52 * 2 ^ e := mul_le_mul_of_nonneg_left hpow (by norm_num)
        _ ≤ m * 2 ^ e := mul_le_mul_of_nonneg_right hfull (two_zpow_pos e).le
    exact not_lt.2 hge hlt

theorem toNat_implicit (m : BitVec 52) : (1#1 ++ m).toNat = 2 ^ 52 + m.toNat := by
  rw [BitVec.toNat_append, ← Nat.shiftLeft_add_eq_or_of_lt m.isLt]
  simp [Nat.shiftLeft_eq]

theorem unpack_subnormal (s : Sign) {m : BitVec 52} (hm : m ≠ 0#52) (hpos : 0 < m.toNat) :
    unpack .binary64 (packComponents .binary64 s 0#11 m) = .finite s m.toNat (-1074) hpos := by
  unfold unpack
  simp only [unpackExponent_packComponents, unpackMantissa_packComponents, unpackSign_packComponents,
    Sign.ofBitVec_toBitVec]
  simp only [if_neg (show ¬(0#11 = -1#11) by decide), if_pos, dif_neg hm]
  rfl

theorem unpack_normal (s : Sign) {e : BitVec 11} {m : BitVec 52} (hlow : e ≠ 0#11) (hhigh : e ≠ -1#11)
    (hpos : 0 < 2 ^ 52 + m.toNat) :
    unpack .binary64 (packComponents .binary64 s e m) = .finite s (2 ^ 52 + m.toNat) (e.toNat - 1075) hpos := by
  unfold unpack
  simp only [unpackExponent_packComponents, unpackMantissa_packComponents, unpackSign_packComponents,
    Sign.ofBitVec_toBitVec]
  simp only [if_neg hlow, if_neg hhigh, toNat_implicit]
  rfl

theorem pack_finite (s : Sign) (m : Nat) (e : Int) (hm : 0 < m) :
    pack .binary64 (.finite s m e hm) =
      if 2 ^ 11 ≤ (e + 1075).toNat + 1 then packedInfinity .binary64 s
      else if m.log2 + 1 = 53 then
        packComponents .binary64 s (BitVec.ofNat 11 (e + 1075).toNat) (BitVec.ofNat 52 m)
      else packComponents .binary64 s 0#11 (BitVec.ofNat 52 m) := by
  have hbias : (e + ((1023 : Nat) : Int) + ((52 : Nat) : Int)).toNat = (e + 1075).toNat := by omega
  rw [← hbias]
  rfl

theorem unpack_pack_finite {s : Sign} {m : Nat} {e : Int} (hm : 0 < m) (digits : m < 2 ^ 53) (least : -1074 ≤ e)
    (full : 2 ^ 52 ≤ m ∨ e = -1074) (most : e ≤ 971) :
    unpack .binary64 (pack .binary64 (.finite s m e hm)) = .finite s m e hm := by
  rw [pack_finite, if_neg (by omega)]
  by_cases hnormal : 2 ^ 52 ≤ m
  · have hlog : m.log2 = 52 := (Nat.log2_eq_iff hm.ne').2 ⟨hnormal, digits⟩
    have hexponent : (BitVec.ofNat 11 (e + 1075).toNat).toNat = (e + 1075).toNat := by
      rw [BitVec.toNat_ofNat]
      omega
    have hfraction : 2 ^ 52 + (BitVec.ofNat 52 m).toNat = m := by
      rw [BitVec.toNat_ofNat]
      omega
    have hother {c : BitVec 11} (hc : c.toNat ≠ (e + 1075).toNat) : BitVec.ofNat 11 (e + 1075).toNat ≠ c := by
      rintro rfl
      exact hc hexponent
    have hlow : BitVec.ofNat 11 (e + 1075).toNat ≠ 0#11 := hother (by rw [BitVec.toNat_zero]; omega)
    have hhigh : BitVec.ofNat 11 (e + 1075).toNat ≠ -1#11 :=
      hother (by rw [show (-1#11).toNat = 2047 from rfl]; omega)
    rw [if_pos (by omega), unpack_normal s hlow hhigh (by omega)]
    congr 1
    omega
  · obtain rfl : e = -1074 := full.resolve_left hnormal
    have hlog : m.log2 < 52 := (Nat.log2_lt hm.ne').2 (by omega)
    have hfraction : (BitVec.ofNat 52 m).toNat = m := by
      rw [BitVec.toNat_ofNat]
      omega
    have hsome : BitVec.ofNat 52 m ≠ 0#52 := by
      intro hzero
      rw [hzero, BitVec.toNat_zero] at hfraction
      omega
    rw [if_neg (by omega), unpack_subnormal s hsome (by omega)]
    simp only [hfraction]

theorem unpack_pack_infinite {s : Sign} {m : Nat} {e : Int} (hm : 0 < m) (beyond : 971 < e) :
    unpack .binary64 (pack .binary64 (.finite s m e hm)) = .infinity s := by
  rw [pack_finite, if_pos (by omega)]
  cases s <;> rfl

theorem Shows.unpack_pack {s : Sign} {v : ℚ} {u : UnpackedFloat} (h : Shows s v u) (hv : v < limit) :
    unpack .binary64 (pack .binary64 u) = u := by
  cases h with
  | zero => cases s <;> rfl
  | finite hm digits least full hvalue =>
    exact unpack_pack_finite hm digits least full ((exponent_le_iff digits full).2 (hvalue ▸ hv))

theorem Shows.unpack_pack_of_limit_le {s : Sign} {v : ℚ} {u : UnpackedFloat} (h : Shows s v u) (hv : limit ≤ v) :
    unpack .binary64 (pack .binary64 u) = .infinity s := by
  cases h with
  | zero hzero =>
    linarith [limit_pos]
  | finite hm digits least full hvalue =>
    refine unpack_pack_infinite hm (not_le.1 fun he => ?_)
    exact not_lt.2 (hvalue ▸ hv) ((exponent_le_iff digits full).1 he)

/-- Bits that are no infinity and no other exception show a number below the limit. -/
theorem shows_or_exceptional (b : BitVec 64) :
    (∃ s v, Shows s v (unpack .binary64 b) ∧ v < limit) ∨ (unpack .binary64 b).isFinite = false := by
  have hexponent := (@unpackExponent .binary64 b).isLt
  have hfraction := (@unpackMantissa .binary64 b).isLt
  have hbias : Format.binary64.exponentBias = 1023 := rfl
  have form {s : Sign} {m : Nat} {e : Int} (hm : 0 < m) (digits : m < 2 ^ 53) (least : -1074 ≤ e)
      (full : 2 ^ 52 ≤ m ∨ e = -1074) (most : e ≤ 971) : ∃ s' v, Shows s' v (.finite s m e hm) ∧ v < limit :=
    ⟨s, _, .finite hm digits least full rfl, (exponent_le_iff digits full).1 most⟩
  simp only at hexponent hfraction
  unfold unpack
  simp only [toNat_implicit, hbias]
  split_ifs with hall hnone hzero hsubnormal
  · exact .inr rfl
  · exact .inr rfl
  · exact .inl ⟨_, 0, .zero rfl, limit_pos⟩
  · left
    have hnat : (@unpackExponent .binary64 b).toNat = 0 := by rw [hzero]; rfl
    exact form _ (by omega) (by omega) (.inr (by omega)) (by omega)
  · left
    have hlow : (@unpackExponent .binary64 b).toNat ≠ 0 := fun h => hzero (BitVec.eq_of_toNat_eq h)
    have hhigh : (@unpackExponent .binary64 b).toNat ≠ 2047 := fun h => hall (BitVec.eq_of_toNat_eq h)
    exact form _ (by omega) (by omega) (.inl (by omega)) (by omega)

/-- The number that a finite double is. -/
def value (x : Float) : ℚ :=
  match Decimal.unpack x with
  | .finite s m e _ => signed s (m * 2 ^ e)
  | _ => 0

theorem Shows.value {s : Sign} {v : ℚ} {x : Float} (h : Shows s v (Decimal.unpack x)) : value x = signed s v := by
  unfold Double.value
  cases hu : Decimal.unpack x with
  | notANumber => rw [hu] at h; cases h
  | infinity => rw [hu] at h; cases h
  | zero =>
    rw [hu] at h
    cases h with
    | zero hv => rw [hv, signed_zero]
  | finite =>
    rw [hu] at h
    cases h with
    | finite hm digits least full hv => rw [hv]

theorem Shows.isFinite {s : Sign} {v : ℚ} {x : Float} (h : Shows s v (Decimal.unpack x)) : x.isFinite = true := by
  change (Decimal.unpack x).isFinite = true
  cases hu : Decimal.unpack x with
  | notANumber => rw [hu] at h; cases h
  | infinity => rw [hu] at h; cases h
  | zero => rfl
  | finite => rfl

theorem exists_shows {x : Float} (hx : x.isFinite = true) : ∃ s v, Shows s v (Decimal.unpack x) ∧ v < limit := by
  rcases shows_or_exceptional x.toBits.toBitVec with h | h
  · exact h
  · exact absurd (hx.symm.trans h) (by decide)

theorem onGrid_abs_value {x : Float} (hx : x.isFinite = true) : OnGrid |value x| := by
  obtain ⟨s, v, hshows, -⟩ := exists_shows hx
  rw [hshows.value, abs_signed hshows.onGrid.nonneg]
  exact hshows.onGrid

theorem Shows.le_largest {s : Sign} {v : ℚ} {u : UnpackedFloat} (h : Shows s v u) (hv : v < limit) : v ≤ largest := by
  cases h with
  | zero hzero => exact hzero ▸ onGrid_largest.nonneg
  | @finite m e hm digits least full hvalue =>
    have hm' : (m : ℚ) ≤ 2 ^ 53 - 1 := by
      rw [le_sub_iff_add_le]
      exact_mod_cast digits
    have hpow : (2 : ℚ) ^ e ≤ 2 ^ (971 : ℤ) :=
      zpow_le_zpow_right₀ (by norm_num) ((exponent_le_iff digits full).2 (hvalue ▸ hv))
    calc v = m * 2 ^ e := hvalue
      _ ≤ (2 ^ 53 - 1) * 2 ^ (971 : ℤ) := mul_le_mul hm' hpow (two_zpow_pos e).le (by norm_num)
      _ = largest := by rw [two_zpow_971_eq, largest]; ring

theorem abs_value_le {x : Float} (hx : x.isFinite = true) : |value x| ≤ largest := by
  obtain ⟨s, v, hshows, hlt⟩ := exists_shows hx
  rw [hshows.value, abs_signed hshows.onGrid.nonneg]
  exact hshows.le_largest hlt

theorem abs_value_lt {x : Float} (hx : x.isFinite = true) : |value x| < overflow :=
  (abs_value_le hx).trans_lt largest_lt_overflow

theorem lt_iff_unpack {x y : Float} : x < y ↔ (Decimal.unpack x).lt (Decimal.unpack y) = true := by
  change decide (x.toModel < y.toModel) = true ↔ _
  rw [decide_eq_true_iff]
  rfl

theorem le_iff_unpack {x y : Float} : x ≤ y ↔ (Decimal.unpack x).le (Decimal.unpack y) = true := by
  change decide (x.toModel ≤ y.toModel) = true ↔ _
  rw [decide_eq_true_iff]
  rfl

theorem unpack_zero : Decimal.unpack 0 = .zero .positive := rfl

/-- Against zero, finite doubles are ordered as the numbers that they are. -/
theorem lt_zero_iff {x : Float} (hx : x.isFinite = true) : x < 0 ↔ value x < 0 := by
  obtain ⟨s, v, hshows, -⟩ := exists_shows hx
  rw [hshows.value, lt_iff_unpack, unpack_zero]
  generalize Decimal.unpack x = u at hshows
  cases hshows with
  | zero hv => simp [hv, signed_zero, UnpackedFloat.lt, UnpackedFloat.compare]
  | finite hm digits least full hv =>
    have hpos : 0 < v := hv ▸ mul_pos (by exact_mod_cast hm) (two_zpow_pos _)
    cases s <;> simp [signed, hpos, hpos.le, UnpackedFloat.lt, UnpackedFloat.compare]

theorem zero_lt_iff {x : Float} (hx : x.isFinite = true) : 0 < x ↔ 0 < value x := by
  obtain ⟨s, v, hshows, -⟩ := exists_shows hx
  rw [hshows.value, lt_iff_unpack, unpack_zero]
  generalize Decimal.unpack x = u at hshows
  cases hshows with
  | zero hv => simp [hv, signed_zero, UnpackedFloat.lt, UnpackedFloat.compare]
  | finite hm digits least full hv =>
    have hpos : 0 < v := hv ▸ mul_pos (by exact_mod_cast hm) (two_zpow_pos _)
    cases s <;> simp [signed, hpos, hpos.le, UnpackedFloat.lt, UnpackedFloat.compare]

theorem zero_le_iff {x : Float} (hx : x.isFinite = true) : 0 ≤ x ↔ 0 ≤ value x := by
  obtain ⟨s, v, hshows, -⟩ := exists_shows hx
  rw [hshows.value, le_iff_unpack, unpack_zero]
  generalize Decimal.unpack x = u at hshows
  cases hshows with
  | zero hv => simp [hv, signed_zero, UnpackedFloat.le, UnpackedFloat.compare]
  | finite hm digits least full hv =>
    have hpos : 0 < v := hv ▸ mul_pos (by exact_mod_cast hm) (two_zpow_pos _)
    cases s <;> simp [signed, hpos, hpos.le, UnpackedFloat.le, UnpackedFloat.compare]

theorem zero_le_of_infinity {x : Float} (hx : Decimal.unpack x = .infinity .positive) : 0 ≤ x := by
  rw [le_iff_unpack, hx]
  rfl

end LoadSweep.Double
