import Mathlib.Data.Int.Log
import Mathlib.Data.Rat.Floor
import Mathlib.Tactic.FieldSimp
import Mathlib.Tactic.Linarith
import Mathlib.Tactic.NormNum
import Mathlib.Tactic.Ring

/-! Without an upper bound on their exponents the doubles form a grid. A number is rounded to the nearest point of the
grid, which never carries it past another point, and it is out of the range of doubles from halfway between the
largest of them and `2 ^ 1024` on. -/
namespace LoadSweep.Double

/-- The nearest whole number, the even one of two that are equally near. -/
def nearestEven (x : ℚ) : ℤ :=
  if x - ⌊x⌋ < 1 / 2 then ⌊x⌋ else if 1 / 2 < x - ⌊x⌋ then ⌊x⌋ + 1 else ⌊x⌋ + ⌊x⌋ % 2

theorem floor_le_nearestEven (x : ℚ) : ⌊x⌋ ≤ nearestEven x := by
  unfold nearestEven
  split_ifs <;> omega

theorem nearestEven_le_floor_add_one (x : ℚ) : nearestEven x ≤ ⌊x⌋ + 1 := by
  unfold nearestEven
  split_ifs <;> omega

theorem nearestEven_intCast (n : ℤ) : nearestEven (n : ℚ) = n := by
  simp [nearestEven]

theorem le_nearestEven {n : ℤ} {x : ℚ} (h : (n : ℚ) ≤ x) : n ≤ nearestEven x :=
  (Int.le_floor.2 h).trans (floor_le_nearestEven x)

theorem nearestEven_le {n : ℤ} {x : ℚ} (h : x ≤ (n : ℚ)) : nearestEven x ≤ n := by
  rcases h.lt_or_eq with hlt | rfl
  · have hfloor : ⌊x⌋ < n := Int.floor_lt.2 hlt
    have hceil := nearestEven_le_floor_add_one x
    omega
  · rw [nearestEven_intCast]

theorem nearestEven_of_lt_half {n : ℤ} {x : ℚ} (hn : (n : ℚ) ≤ x) (h : x < n + 1 / 2) : nearestEven x = n := by
  have hfloor : ⌊x⌋ = n := Int.floor_eq_iff.2 ⟨hn, by linarith⟩
  rw [nearestEven, hfloor, if_pos (by linarith)]

theorem nearestEven_of_half_lt {n : ℤ} {x : ℚ} (h : n + 1 / 2 < x) (hn : x < n + 1) : nearestEven x = n + 1 := by
  have hfloor : ⌊x⌋ = n := Int.floor_eq_iff.2 ⟨by linarith, hn⟩
  rw [nearestEven, hfloor, if_neg (by linarith), if_pos (by linarith)]

theorem nearestEven_half (n : ℤ) : nearestEven (n + 1 / 2) = n + n % 2 := by
  have hfloor : ⌊(n : ℚ) + 1 / 2⌋ = n := Int.floor_eq_iff.2 ⟨by linarith, by linarith⟩
  rw [nearestEven, hfloor, if_neg (by linarith), if_neg (by linarith)]

/-- A multiple of a power of two that fits into the digits of a double. -/
def OnGrid (x : ℚ) : Prop := ∃ (m : ℕ) (e : ℤ), m < 2 ^ 53 ∧ -1074 ≤ e ∧ x = m * 2 ^ e

/-- The power of two by which points of the grid lie apart around a positive number. -/
def spacing (x : ℚ) : ℤ := max (Int.log 2 x - 52) (-1074)

/-- The nearest point of the grid to a number from zero on. -/
def nearest (x : ℚ) : ℚ := nearestEven (x / 2 ^ spacing x) * 2 ^ spacing x

theorem two_zpow_pos (e : ℤ) : (0 : ℚ) < 2 ^ e := zpow_pos (by norm_num) e

theorem two_zpow_add (a b : ℤ) : (2 : ℚ) ^ (a + b) = 2 ^ a * 2 ^ b := zpow_add₀ (by norm_num) a b

theorem onGrid_zero : OnGrid 0 := ⟨0, 0, by norm_num, by norm_num, by norm_num⟩

theorem onGrid_two_zpow {e : ℤ} (he : -1074 ≤ e) : OnGrid (2 ^ e) := ⟨1, e, by norm_num, he, by norm_num⟩

theorem OnGrid.nonneg {c : ℚ} (h : OnGrid c) : 0 ≤ c := by
  obtain ⟨m, e, -, -, rfl⟩ := h
  exact mul_nonneg (by positivity) (two_zpow_pos e).le

theorem two_zpow_log_le {x : ℚ} (hx : 0 < x) : (2 : ℚ) ^ Int.log 2 x ≤ x := by
  simpa using Int.zpow_log_le_self (b := 2) (by norm_num) hx

theorem lt_two_zpow_log_add_one {x : ℚ} : x < (2 : ℚ) ^ (Int.log 2 x + 1) := by
  simpa using Int.lt_zpow_succ_log_self (b := 2) (by norm_num) x

/-- Around `x` the grid consists of multiples; its other points are smaller than a point below `x`. -/
theorem OnGrid.multiple_or_lt {c x : ℚ} (hc : OnGrid c) (hx : 0 < x) :
    (∃ n : ℤ, c = n * 2 ^ spacing x) ∨ c < 2 ^ 52 * 2 ^ spacing x ∧ (2 : ℚ) ^ 52 * 2 ^ spacing x ≤ x := by
  obtain ⟨m, e, hm, he, rfl⟩ := hc
  rcases le_or_gt (spacing x) e with h | h
  · left
    obtain ⟨k, hk⟩ := Int.le.dest h
    refine ⟨m * 2 ^ k, ?_⟩
    rw [← hk, two_zpow_add, zpow_natCast]
    push_cast
    ring
  · right
    have hspacing : spacing x = Int.log 2 x - 52 := by
      unfold spacing at h ⊢
      omega
    have hlog : (2 : ℚ) ^ 52 * 2 ^ spacing x = 2 ^ Int.log 2 x := by
      rw [hspacing, ← zpow_natCast, ← two_zpow_add]
      congr 1
      push_cast
      ring
    refine ⟨?_, hlog ▸ two_zpow_log_le hx⟩
    have hstep : (2 : ℚ) ^ (e + 1) ≤ 2 ^ spacing x := zpow_le_zpow_right₀ (by norm_num) (by omega)
    have hm' : (m : ℚ) < 2 ^ 53 := by exact_mod_cast hm
    calc (m : ℚ) * 2 ^ e < 2 ^ 53 * 2 ^ e := mul_lt_mul_of_pos_right hm' (two_zpow_pos e)
      _ = 2 ^ 52 * 2 ^ (e + 1) := by rw [two_zpow_add]; norm_num; ring
      _ ≤ 2 ^ 52 * 2 ^ spacing x := mul_le_mul_of_nonneg_left hstep (by norm_num)

theorem nearest_zero : nearest 0 = 0 := by
  have h : nearestEven 0 = 0 := by simpa using nearestEven_intCast 0
  simp [nearest, h]

/-- Rounding does not carry a number past a point of the grid above it. -/
theorem nearest_le {c x : ℚ} (hc : OnGrid c) (hx : 0 ≤ x) (h : x ≤ c) : nearest x ≤ c := by
  rcases hx.eq_or_lt with rfl | hx
  · rwa [nearest_zero]
  have hpos := two_zpow_pos (spacing x)
  rcases hc.multiple_or_lt hx with ⟨n, hn⟩ | ⟨hlt, hle⟩
  · rw [hn] at h ⊢
    have hround : nearestEven (x / 2 ^ spacing x) ≤ n := nearestEven_le ((div_le_iff₀ hpos).2 h)
    exact mul_le_mul_of_nonneg_right (by exact_mod_cast hround) hpos.le
  · linarith

/-- Rounding does not carry a number past a point of the grid below it. -/
theorem le_nearest {c x : ℚ} (hc : OnGrid c) (h : c ≤ x) : c ≤ nearest x := by
  rcases (hc.nonneg.trans h).eq_or_lt with rfl | hx
  · rwa [nearest_zero]
  have hpos := two_zpow_pos (spacing x)
  rcases hc.multiple_or_lt hx with ⟨n, hn⟩ | ⟨hlt, hle⟩
  · rw [hn] at h ⊢
    have hround : n ≤ nearestEven (x / 2 ^ spacing x) := le_nearestEven ((le_div_iff₀ hpos).2 h)
    exact mul_le_mul_of_nonneg_right (by exact_mod_cast hround) hpos.le
  · have hround : (2 : ℤ) ^ 52 ≤ nearestEven (x / 2 ^ spacing x) :=
      le_nearestEven (by push_cast; exact (le_div_iff₀ hpos).2 hle)
    have hround' : (2 : ℚ) ^ 52 ≤ nearestEven (x / 2 ^ spacing x) := by exact_mod_cast hround
    exact hlt.le.trans (mul_le_mul_of_nonneg_right hround' hpos.le)

theorem nearest_of_onGrid {c : ℚ} (hc : OnGrid c) : nearest c = c :=
  le_antisymm (nearest_le hc hc.nonneg le_rfl) (le_nearest hc le_rfl)

theorem nearest_nonneg {x : ℚ} (hx : 0 ≤ x) : 0 ≤ nearest x := le_nearest onGrid_zero hx

/-- Half the distance between the largest doubles. -/
def halfGap : ℚ := 2 ^ 970

/-- The largest double. -/
def largest : ℚ := (2 ^ 54 - 2) * halfGap

/-- The power of two beyond the largest double. -/
def limit : ℚ := 2 ^ 54 * halfGap

/-- Halfway between the largest double and the limit. -/
def overflow : ℚ := (2 ^ 54 - 1) * halfGap

theorem halfGap_pos : 0 < halfGap := pow_pos (by norm_num) 970

theorem one_le_halfGap : 1 ≤ halfGap := one_le_pow₀ (by norm_num)

theorem limit_eq : limit = 2 ^ (1024 : ℤ) := by
  rw [limit, halfGap, ← pow_add]
  exact (zpow_natCast 2 1024).symm

theorem limit_pos : 0 < limit := mul_pos (by norm_num) halfGap_pos

theorem two_zpow_1023_eq : (2 : ℚ) ^ (1023 : ℤ) = 2 ^ 53 * halfGap := by
  rw [halfGap, ← pow_add]
  exact zpow_natCast 2 1023

theorem two_zpow_971_eq : (2 : ℚ) ^ (971 : ℤ) = 2 * halfGap := by
  rw [halfGap, ← pow_succ']
  exact zpow_natCast 2 971

theorem onGrid_limit : OnGrid limit := limit_eq ▸ onGrid_two_zpow (by norm_num)

theorem onGrid_largest : OnGrid largest := by
  refine ⟨2 ^ 53 - 1, 971, by norm_num, by norm_num, ?_⟩
  rw [two_zpow_971_eq, largest]
  push_cast
  ring

theorem overflow_pos : 0 < overflow := mul_pos (by norm_num) halfGap_pos

theorem largest_lt_overflow : largest < overflow := by
  have hpos := halfGap_pos
  rw [largest, overflow]
  linarith

theorem overflow_lt_limit : overflow < limit := by
  have hpos := halfGap_pos
  rw [overflow, limit]
  linarith

theorem spacing_of_top {x : ℚ} (hlow : 2 ^ (1023 : ℤ) ≤ x) (hhigh : x < limit) : spacing x = 971 := by
  have hx : 0 < x := (two_zpow_pos 1023).trans_le hlow
  have hlog : Int.log 2 x = 1023 := by
    apply le_antisymm
    · have h : x < ((2 : ℕ) : ℚ) ^ (1024 : ℤ) := by exact_mod_cast limit_eq ▸ hhigh
      have hlt := (Int.lt_zpow_iff_log_lt (by norm_num) hx).1 h
      omega
    · have h : ((2 : ℕ) : ℚ) ^ (1023 : ℤ) ≤ x := by exact_mod_cast hlow
      exact (Int.zpow_le_iff_le_log (by norm_num) hx).1 h
  rw [spacing, hlog]
  norm_num

theorem nearestEven_lt_iff {y : ℚ} (h : y < 2 ^ 53) : nearestEven y < 2 ^ 53 ↔ y < 2 ^ 53 - 1 / 2 := by
  rcases le_or_gt y ((2 ^ 53 - 1 : ℤ) : ℚ) with hlow | hlow
  · have hround : nearestEven y ≤ 2 ^ 53 - 1 := nearestEven_le hlow
    push_cast at hlow
    exact iff_of_true (by omega) (by linarith)
  rcases lt_trichotomy y (2 ^ 53 - 1 / 2) with hlt | heq | hgt
  · have hround : nearestEven y = 2 ^ 53 - 1 := nearestEven_of_lt_half hlow.le (by push_cast; linarith)
    exact iff_of_true (by omega) hlt
  · have hround : nearestEven y = 2 ^ 53 := by
      rw [heq, show (2 ^ 53 - 1 / 2 : ℚ) = (2 ^ 53 - 1 : ℤ) + 1 / 2 by push_cast; ring, nearestEven_half]
      norm_num
    exact iff_of_false (by omega) (by linarith)
  · have hround : nearestEven y = 2 ^ 53 - 1 + 1 :=
      nearestEven_of_half_lt (by push_cast; linarith) (by push_cast; linarith)
    exact iff_of_false (by omega) (by linarith)

/-- A number is rounded to a double if and only if it is nearer to the largest than to the limit. -/
theorem nearest_lt_limit_iff {x : ℚ} (hx : 0 ≤ x) : nearest x < limit ↔ x < overflow := by
  have hpos := halfGap_pos
  rcases lt_or_ge x (2 ^ (1023 : ℤ)) with hlow | hlow
  · have hnearest : nearest x ≤ 2 ^ (1023 : ℤ) := nearest_le (onGrid_two_zpow (by norm_num)) hx hlow.le
    rw [two_zpow_1023_eq] at hlow hnearest
    exact iff_of_true (by rw [limit]; linarith) (by rw [overflow]; linarith)
  rcases le_or_gt limit x with hhigh | hhigh
  · have hnearest := le_nearest onGrid_limit hhigh
    exact iff_of_false (not_lt.2 hnearest) (not_lt.2 (overflow_lt_limit.le.trans hhigh))
  -- in the highest binade the quotient by the spacing decides
  rw [nearest, spacing_of_top hlow hhigh, two_zpow_971_eq]
  have hgap : 0 < 2 * halfGap := by linarith
  have hy : x / (2 * halfGap) < 2 ^ 53 := by
    rw [div_lt_iff₀ hgap]
    rw [limit] at hhigh
    linarith
  have hround := nearestEven_lt_iff hy
  rw [← Int.cast_lt (R := ℚ), Int.cast_pow, Int.cast_ofNat] at hround
  have hlimit : limit = 2 ^ 53 * (2 * halfGap) := by rw [limit]; ring
  have hoverflow : overflow = (2 ^ 53 - 1 / 2) * (2 * halfGap) := by rw [overflow]; ring
  rw [hlimit, mul_lt_mul_iff_left₀ hgap, hround, div_lt_iff₀ hgap, hoverflow]

end LoadSweep.Double
