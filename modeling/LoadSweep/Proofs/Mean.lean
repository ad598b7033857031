import LoadSweep.Mean
import LoadSweep.Proofs.Double.Scientific
import Mathlib.Order.Interval.Set.UnorderedInterval

/-! A step moves the mean towards the new value by a share of their difference. The difference and the share are
rounded, but neither is carried past a power of two, so the step ends between the mean and the value. -/
namespace LoadSweep

open Double

namespace Double

/-- A finite double in a range. -/
def Within (low high : ℚ) (x : Float) : Prop := x.isFinite = true ∧ value x ∈ Set.Icc low high

theorem rounded_neg (x : ℚ) : rounded (-x) = -rounded x := by
  rcases lt_trichotomy x 0 with h | rfl | h
  · rw [rounded_of_neg h, rounded_of_nonneg (neg_pos.2 h).le, neg_neg]
  · rw [neg_zero, rounded_of_nonneg le_rfl, nearest_zero, neg_zero]
  · rw [rounded_of_neg (neg_neg_iff_pos.2 h), rounded_of_nonneg h.le, neg_neg]

theorem rounded_mem {a b x : ℚ} (ha : OnGrid |a|) (hb : OnGrid |b|) (hx : x ∈ Set.uIcc a b) :
    rounded x ∈ Set.uIcc a b := by
  rw [Set.mem_uIcc] at hx ⊢
  exact hx.imp (fun h => ⟨le_rounded ha h.1, rounded_le hb h.2⟩) fun h => ⟨le_rounded hb h.1, rounded_le ha h.2⟩

theorem rounded_share_le {x c : ℚ} (hx : 2 ^ (-1074 : ℤ) ≤ x) (hc : 2 ≤ c) :
    0 ≤ rounded (rounded x / c) ∧ rounded (rounded x / c) ≤ x := by
  have hpos : 0 < x := (two_zpow_pos (-1074)).trans_le hx
  have hlog : -1074 ≤ Int.log 2 x := (Int.zpow_le_iff_le_log (by norm_num) hpos).1 (by exact_mod_cast hx)
  have hgrid {e : ℤ} (he : -1074 ≤ e) : OnGrid |2 ^ e| := by
    rw [abs_of_pos (two_zpow_pos e)]
    exact onGrid_two_zpow he
  have hzero : OnGrid |0| := by
    rw [abs_zero]
    exact onGrid_zero
  have hnonneg : 0 ≤ rounded x / c := div_nonneg (le_rounded hzero hpos.le) (by linarith)
  -- rounding may carry the number up to the next power of two, but half of that is still below it
  have hshare : rounded x / c ≤ 2 ^ Int.log 2 x := by
    rw [div_le_iff₀ (by linarith)]
    calc rounded x ≤ 2 ^ (Int.log 2 x + 1) := rounded_le (hgrid (by omega)) lt_two_zpow_log_add_one.le
      _ = 2 ^ Int.log 2 x * 2 := by rw [two_zpow_add, zpow_one]
      _ ≤ 2 ^ Int.log 2 x * c := mul_le_mul_of_nonneg_left hc (two_zpow_pos _).le
  exact ⟨le_rounded hzero hnonneg, (rounded_le (hgrid hlog) hshare).trans (two_zpow_log_le hpos)⟩

/-- At most half of a rounded number lies between zero and the number. -/
theorem rounded_share_mem {x c : ℚ} (hx : x = 0 ∨ 2 ^ (-1074 : ℤ) ≤ |x|) (hc : 2 ≤ c) :
    rounded (rounded x / c) ∈ Set.uIcc 0 x := by
  rw [Set.mem_uIcc]
  rcases hx with rfl | hx
  · have hzero : rounded 0 = 0 := by rw [rounded_of_nonneg le_rfl, nearest_zero]
    simp [hzero]
  rcases le_total 0 x with hsign | hsign
  · rw [abs_of_nonneg hsign] at hx
    exact .inl (rounded_share_le hx hc)
  · rw [abs_of_nonpos hsign] at hx
    have hshare := rounded_share_le hx hc
    rw [rounded_neg, neg_div, rounded_neg] at hshare
    exact .inr ⟨by linarith [hshare.2], by linarith [hshare.1]⟩

theorem exists_multiple {x : Float} (hx : x.isFinite = true) : ∃ n : ℤ, value x = n * 2 ^ (-1074 : ℤ) := by
  obtain ⟨m, e, -, he, hvalue⟩ := onGrid_abs_value hx
  obtain ⟨k, rfl⟩ := Int.le.dest he
  rw [add_comm, two_zpow_add, zpow_natCast, ← mul_assoc] at hvalue
  rcases abs_choice (value x) with h | h <;> rw [h] at hvalue
  · exact ⟨m * 2 ^ k, by exact_mod_cast hvalue⟩
  · refine ⟨-(m * 2 ^ k), ?_⟩
    rw [Int.cast_neg, neg_mul, ← neg_eq_iff_eq_neg]
    exact_mod_cast hvalue

theorem sub_eq_zero_or_le {x y : Float} (hx : x.isFinite = true) (hy : y.isFinite = true) :
    value y - value x = 0 ∨ 2 ^ (-1074 : ℤ) ≤ |value y - value x| := by
  obtain ⟨m, hm⟩ := exists_multiple hx
  obtain ⟨n, hn⟩ := exists_multiple hy
  rw [hm, hn, ← sub_mul, abs_mul, abs_of_pos (two_zpow_pos _)]
  rcases eq_or_ne n m with rfl | hne
  · rw [sub_self, zero_mul]
    exact .inl rfl
  · right
    have hone : (1 : ℚ) ≤ |(n : ℚ) - m| := by exact_mod_cast Int.one_le_abs (sub_ne_zero.2 hne)
    exact le_mul_of_one_le_left (two_zpow_pos _).le hone

/-- A share among two or more of a rounded difference, however many there are. -/
theorem share_mem {d : Float} {x : ℚ} (hd : d.isFinite = true) (hvalue : value d = rounded x)
    (hx : x = 0 ∨ 2 ^ (-1074 : ℤ) ≤ |x|) {n : ℕ} (hn : 2 ≤ n) :
    (d / Float.ofNat n).isFinite = true ∧ value (d / Float.ofNat n) ∈ Set.uIcc 0 x := by
  have hcount := isRounded_ofNat n
  rcases lt_or_ge |(n : ℚ)| overflow with hlt | hge
  · obtain ⟨hfinite, hc⟩ := hcount.inRange hlt
    have htwo : 2 ≤ value (Float.ofNat n) := by
      rw [hc]
      refine le_rounded ?_ (by exact_mod_cast hn)
      rw [abs_of_nonneg (by norm_num)]
      exact onGrid_natCast (n := 2) (by norm_num)
    have hsmall : |value d / value (Float.ofNat n)| < overflow := by
      rw [abs_div]
      refine (div_le_self (abs_nonneg _) ?_).trans_lt (abs_value_lt hd)
      rw [abs_of_nonneg (by linarith)]
      linarith
    obtain ⟨hresult, hquotient⟩ := (isRounded_div hd hfinite (by linarith)).inRange hsmall
    rw [hquotient, hvalue]
    exact ⟨hresult, rounded_share_mem hx htwo⟩
  · -- a count that is out of range leaves nothing of the difference
    obtain ⟨hresult, hzero⟩ := div_infinity hd (hcount.beyond hge)
    rw [hzero]
    exact ⟨hresult, Set.left_mem_uIcc⟩

end Double

namespace RunningMean

/-- The first value is the mean. -/
theorem push_empty {x : Float} (hx : x.isFinite = true) :
    (empty.push x).mean.isFinite = true ∧ value (empty.push x).mean = value x := by
  have hshowsZero : Shows .positive 0 (Decimal.unpack 0) := unpack_zero ▸ .zero rfl
  have hzero : value 0 = 0 := by rw [hshowsZero.value, signed_zero]
  have hdifference : IsRounded (value x) (x - 0) := by
    have h := isRounded_sub hx hshowsZero.isFinite
    rwa [hzero, sub_zero] at h
  obtain ⟨hd, hdvalue⟩ := hdifference.exact hx
  obtain ⟨hc, hone⟩ := value_ofNat (n := 1) (by norm_num)
  rw [Nat.cast_one] at hone
  have hshare : IsRounded (value x) ((x - 0) / Float.ofNat 1) := by
    have h := isRounded_div hd hc (by rw [hone]; exact one_ne_zero)
    rwa [hdvalue, hone, div_one] at h
  obtain ⟨hq, hqvalue⟩ := hshare.exact hx
  have hsum : IsRounded (value x) (0 + (x - 0) / Float.ofNat 1) := by
    have h := isRounded_add hshowsZero.isFinite hq
    rwa [hzero, zero_add, hqvalue] at h
  exact hsum.exact hx

/-- A later value draws the mean towards itself. -/
theorem push_mem {m : RunningMean Float} {x : Float} (hm : m.mean.isFinite = true) (hx : x.isFinite = true)
    (hcount : 1 ≤ m.count) (hrange : |value x - value m.mean| < overflow) :
    (m.push x).mean.isFinite = true ∧ value (m.push x).mean ∈ Set.uIcc (value m.mean) (value x) := by
  obtain ⟨hdifference, hd⟩ := (isRounded_sub hx hm).inRange hrange
  obtain ⟨hshare, hq⟩ := share_mem hdifference hd (sub_eq_zero_or_le hm hx) (n := m.count + 1) (by omega)
  have hsum : value m.mean + value ((x - m.mean) / Float.ofNat (m.count + 1)) ∈ Set.uIcc (value m.mean) (value x) := by
    rw [Set.mem_uIcc] at hq ⊢
    exact hq.imp (fun h => ⟨by linarith [h.1], by linarith [h.2]⟩) fun h => ⟨by linarith [h.1], by linarith [h.2]⟩
  have hsmall : |value m.mean + value ((x - m.mean) / Float.ofNat (m.count + 1))| < overflow := by
    refine lt_of_le_of_lt ?_ (max_lt (abs_value_lt hm) (abs_value_lt hx))
    rcases Set.mem_uIcc.1 hsum with h | h
    · exact abs_le_max_abs_abs h.1 h.2
    · rw [max_comm]
      exact abs_le_max_abs_abs h.1 h.2
  obtain ⟨hfinite, hmean⟩ := (isRounded_add hm hshare).inRange hsmall
  refine ⟨hfinite, ?_⟩
  -- both ends are doubles, so the rounded sum stays between them
  change value (m.mean + (x - m.mean) / Float.ofNat (m.count + 1)) ∈ _
  rw [hmean]
  exact rounded_mem (onGrid_abs_value hm) (onGrid_abs_value hx) hsum

end RunningMean
end LoadSweep
