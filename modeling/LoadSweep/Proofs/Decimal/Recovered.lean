import LoadSweep.Proofs.Decimal.ReadBack

/-! A decimal of at most fifteen digits is recovered from the double that it is rounded to: the basin of a double is
narrower than the last of fifteen digits, so no other such decimal is in it, and the search for the shortest one comes
by it. -/
namespace LoadSweep

namespace Double

/-- How far a number is from the nearest whole one: half at most, and if it is just half the whole number is even. -/
theorem near_nearestEven (y : ℚ) :
    nearestEven y - 1 / 2 ≤ y ∧ y ≤ nearestEven y + 1 / 2 ∧
      (nearestEven y % 2 = 0 ∨ nearestEven y - 1 / 2 < y ∧ y < nearestEven y + 1 / 2) := by
  have hfloor := Int.floor_le y
  have hceil := Int.lt_floor_add_one y
  unfold nearestEven
  split_ifs with hlow hhigh
  · exact ⟨by linarith, by linarith, .inr ⟨by linarith, by linarith⟩⟩
  · push_cast
    exact ⟨by linarith, by linarith, .inr ⟨by linarith, by linarith⟩⟩
  · have hhalf : y - ⌊y⌋ = 1 / 2 := le_antisymm (not_lt.1 hhigh) (not_lt.1 hlow)
    have heven : (⌊y⌋ + ⌊y⌋ % 2) % 2 = 0 := by omega
    rcases Int.emod_two_eq_zero_or_one ⌊y⌋ with h | h
    · rw [h] at heven ⊢
      push_cast
      exact ⟨by linarith, by linarith, .inl heven⟩
    · rw [h] at heven ⊢
      push_cast
      exact ⟨by linarith, by linarith, .inl heven⟩

/-- The units in which a number is rounded: as many as a double has room for, and no fewer than fill it. -/
theorem units_of_spacing {q : ℚ} (hq : 0 < q) :
    q / 2 ^ spacing q < 2 ^ 53 ∧ -1074 ≤ spacing q ∧ (2 ^ 52 ≤ q / 2 ^ spacing q ∨ spacing q = -1074) := by
  have hpos := two_zpow_pos (spacing q)
  have hlow := two_zpow_log_le hq
  have hhigh := lt_two_zpow_log_add_one (x := q)
  have hspacing : spacing q = max (Int.log 2 q - 52) (-1074) := rfl
  refine ⟨?_, by omega, ?_⟩
  · rw [div_lt_iff₀ hpos]
    calc q < 2 ^ (Int.log 2 q + 1) := hhigh
      _ ≤ 2 ^ (53 + spacing q) := zpow_le_zpow_right₀ (by norm_num) (by omega)
      _ = 2 ^ 53 * 2 ^ spacing q := by rw [two_zpow_add]; norm_num
  · rcases le_or_gt (-1074) (Int.log 2 q - 52) with h | h
    · left
      rw [le_div_iff₀ hpos]
      calc (2 : ℚ) ^ 52 * 2 ^ spacing q = 2 ^ (52 + spacing q) := by rw [two_zpow_add]; norm_num
        _ ≤ 2 ^ Int.log 2 q := zpow_le_zpow_right₀ (by norm_num) (by omega)
        _ ≤ q := hlow
    · right
      omega

/-- A number has one form of digits and exponent. -/
theorem form_unique {m n : ℕ} {e f : ℤ} (hm : 0 < m) (digits : m < 2 ^ 53) (least : -1074 ≤ e)
    (full : 2 ^ 52 ≤ m ∨ e = -1074) (hn : 0 < n) (digits' : n < 2 ^ 53) (least' : -1074 ≤ f)
    (full' : 2 ^ 52 ≤ n ∨ f = -1074) (h : (m : ℚ) * 2 ^ e = n * 2 ^ f) : m = n ∧ e = f := by
  have hform : Shows .positive ((m : ℚ) * 2 ^ e) (.finite .positive m e hm) := .finite hm digits least full rfl
  have hform' : Shows .positive ((m : ℚ) * 2 ^ e) (.finite .positive n f hn) := .finite hn digits' least' full' h
  cases hform.unique hform'
  exact ⟨rfl, rfl⟩

end Double

namespace Decimal

open Double

theorem Basin.contains_of_nearest {m : Nat} {e : Int} (hm : 0 < m) (digits : m < 2 ^ 53) (least : -1074 ≤ e)
    (full : 2 ^ 52 ≤ m ∨ e = -1074) {q : ℚ} (hq : 0 < q) (h : Double.nearest q = m * 2 ^ e) :
    (Basin.of m e).Contains q := by
  obtain ⟨hroom, hleast, hfull⟩ := units_of_spacing hq
  obtain ⟨hlow, hhigh, hends⟩ := near_nearestEven (q / 2 ^ spacing q)
  have hpos : 0 < nearestEven (q / 2 ^ spacing q) := by
    have hv : (0 : ℚ) < m * 2 ^ e := mul_pos (by exact_mod_cast hm) (two_zpow_pos e)
    rw [← h, Double.nearest] at hv
    exact_mod_cast (mul_pos_iff_of_pos_right (two_zpow_pos _)).1 hv
  obtain ⟨n, hn⟩ := Int.eq_ofNat_of_zero_le hpos.le
  have hmost : n ≤ 2 ^ 53 := by
    have hround : nearestEven (q / 2 ^ spacing q) ≤ 2 ^ 53 := nearestEven_le (by push_cast; exact hroom.le)
    omega
  have hsome : 2 ^ 52 ≤ n ∨ spacing q = -1074 := by
    refine hfull.imp_left fun hfill => ?_
    have hround : 2 ^ 52 ≤ nearestEven (q / 2 ^ spacing q) := le_nearestEven (by push_cast; exact hfill)
    omega
  rw [Double.nearest, hn, Int.cast_natCast] at h
  rw [hn, Int.cast_natCast] at hlow hhigh hends
  rw [contains_of_iff hm]
  generalize spacing q = s at *
  rcases hmost.lt_or_eq with hlt | rfl
  · obtain ⟨rfl, rfl⟩ := form_unique (by omega) hlt hleast hsome hm digits least full h
    by_cases hpower : n = 2 ^ 52 ∧ -1074 < s
    · have hfill : (2 : ℚ) ^ 52 ≤ q / 2 ^ s := hfull.resolve_right (by omega)
      have hn' : (n : ℚ) = 2 ^ 52 := by exact_mod_cast hpower.1
      have hreach : reach n s = 1 / 4 := if_pos hpower
      rw [if_pos (by omega), hreach]
      exact ⟨by linarith, hhigh⟩
    · have hreach : reach n s = 1 / 2 := if_neg hpower
      rw [hreach]
      split_ifs with heven
      · exact ⟨hlow, hhigh⟩
      · exact hends.resolve_left (by omega)
  · -- a carry: the double is the power of two above
    have hcarry : ((2 ^ 52 : ℕ) : ℚ) * 2 ^ (s + 1) = m * 2 ^ e := by
      rw [← h, two_zpow_add]
      push_cast
      ring
    obtain ⟨rfl, rfl⟩ := form_unique (by norm_num) (by norm_num) (by omega) (.inl le_rfl) hm digits least full hcarry
    have hreach : reach (2 ^ 52) (s + 1) = 1 / 4 := if_pos ⟨rfl, by omega⟩
    have hhalf : q / 2 ^ (s + 1) = q / 2 ^ s / 2 := by
      rw [two_zpow_add, zpow_one, div_div]
    rw [if_pos (by norm_num), hreach, hhalf]
    push_cast at hlow hhigh ⊢
    exact ⟨by linarith, by linarith⟩

theorem ten_zpow_pos (k : ℤ) : (0 : ℚ) < 10 ^ k := zpow_pos (by norm_num) k

theorem lt_pow_digitCount (n : Nat) : n < 10 ^ digitCount n :=
  (Nat.length_toDigits_le_iff (by norm_num) Nat.length_toDigits_pos).1 le_rfl

theorem pow_digitCount_le {n : Nat} (hn : 0 < n) : 10 ^ (digitCount n - 1) ≤ n := by
  rcases Nat.eq_zero_or_pos (digitCount n - 1) with h | h
  · rw [h]
    exact hn
  · by_contra! hlt
    have hle := (Nat.length_toDigits_le_iff (by norm_num) h).2 hlt
    have hpos : 0 < digitCount n := Nat.length_toDigits_pos
    change digitCount n ≤ digitCount n - 1 at hle
    omega

/-- The power of ten above a double is less than ten times as large. -/
theorem Basin.magnitude_spec {b : Basin} (hvalue : 0 < b.value) (hunit : 0 < b.unit) :
    (10 : ℚ) ^ (b.magnitude - 1) ≤ b.value / b.unit ∧ (b.value / b.unit : ℚ) < 10 ^ b.magnitude := by
  have hunit' : (0 : ℚ) < b.unit := by exact_mod_cast hunit
  have hpos : ∀ n, 0 < digitCount n := fun n => Nat.length_toDigits_pos
  unfold magnitude
  rw [le_div_iff₀ hunit', div_lt_iff₀ hunit']
  split_ifs with h
  · have hlow := pow_digitCount_le (Nat.div_pos h hunit)
    have hhigh := lt_pow_digitCount (b.value / b.unit)
    have hcount := hpos (b.value / b.unit)
    generalize digitCount (b.value / b.unit) = k at *
    rw [Nat.le_div_iff_mul_le hunit] at hlow
    rw [Nat.div_lt_iff_lt_mul hunit] at hhigh
    have hexponent : (k : ℤ) - 1 = (k - 1 : ℕ) := by omega
    rw [hexponent, zpow_natCast, zpow_natCast]
    exact ⟨by exact_mod_cast hlow, by exact_mod_cast hhigh⟩
  · have hsome : 0 < (b.unit - 1) / b.value := Nat.div_pos (by omega) hvalue
    have hlow := pow_digitCount_le hsome
    have hhigh := lt_pow_digitCount ((b.unit - 1) / b.value)
    have hcount := hpos ((b.unit - 1) / b.value)
    generalize digitCount ((b.unit - 1) / b.value) = k at *
    rw [Nat.le_div_iff_mul_le hvalue] at hlow
    rw [Nat.div_lt_iff_lt_mul hvalue] at hhigh
    have hbelow : (b.unit : ℚ) ≤ 10 ^ k * b.value := by exact_mod_cast (by omega : b.unit ≤ 10 ^ k * b.value)
    have habove : (10 ^ (k - 1) * b.value : ℚ) < b.unit := by exact_mod_cast (by omega : 10 ^ (k - 1) * b.value < b.unit)
    have hleast : (1 - k - 1 : ℤ) = -k := by omega
    have hmost : (1 - k : ℤ) = -(k - 1 : ℕ) := by omega
    rw [hleast, hmost, zpow_neg, zpow_neg, zpow_natCast, zpow_natCast, inv_mul_le_iff₀ (by positivity),
      lt_inv_mul_iff₀ (by positivity)]
    exact ⟨hbelow, habove⟩

theorem Basin.exponent_of_withDigits? {b : Basin} {tie : Tie} {n : Nat} {d : Decimal}
    (h : b.withDigits? tie n = some d) : d.exponent = b.magnitude - n := by
  unfold withDigits? at h
  dsimp only at h
  split at h
  · cases h
  · cases h
    rfl
  · cases h
    rfl
  · split_ifs at h <;> cases h <;> rfl

/-- A decimal in a basin is found if it is closer to the double than its last digit. -/
theorem Basin.exists_withDigits? {b : Basin} (hunit : 0 < b.unit) (tie : Tie) {n k : Nat}
    (hk : b.Contains (Decimal.mk k (b.magnitude - n)).number)
    (hlow : (Decimal.mk k (b.magnitude - n)).number < b.value / b.unit + 10 ^ (b.magnitude - n))
    (hhigh : (b.value / b.unit : ℚ) < (Decimal.mk k (b.magnitude - n)).number + 10 ^ (b.magnitude - n)) :
    ∃ d, b.withDigits? tie n = some d := by
  generalize hstep : b.magnitude - (n : Int) = step at *
  have hat := (holds_step_iff hunit step k).2 hk
  have hone := number_eq_div 1 step hunit
  rw [number, Nat.cast_one, one_mul] at hone
  have hunit' : (0 : ℚ) < b.unit := by exact_mod_cast hunit
  have hfine : 0 < Nat.pow 10 (-step).toNat := Nat.pow_pos (by norm_num)
  have hfine' : (0 : ℚ) < (Nat.pow 10 (-step).toNat : ℕ) := by exact_mod_cast hfine
  have hcoarse : 0 < Nat.pow 10 step.toNat * b.unit := Nat.mul_pos (Nat.pow_pos (by norm_num)) hunit
  have hvalue : (b.value / b.unit : ℚ) =
      (b.value * Nat.pow 10 (-step).toNat : ℕ) / (b.unit * (Nat.pow 10 (-step).toNat : ℕ)) := by
    push_cast
    field_simp
  rw [number_eq_div k step hunit, hone, hvalue, ← add_div, div_lt_div_iff_of_pos_right (by positivity)] at hlow hhigh
  rw [Nat.one_mul] at hlow hhigh
  norm_cast at hlow hhigh
  generalize hf : Nat.pow 10 (-step).toNat = fine at *
  generalize hc : Nat.pow 10 step.toNat * b.unit = coarse at *
  have hnear : k = b.value * fine / coarse ∨ k = b.value * fine / coarse + 1 := by
    have hbelow := Nat.div_mul_le_self (b.value * fine) coarse
    have habove := Nat.lt_div_mul_add hcoarse (a := b.value * fine)
    generalize b.value * fine / coarse = below at *
    have hleast : below < k + 1 := by
      refine Nat.lt_of_mul_lt_mul_right (a := coarse) ?_
      linarith
    have hmost : k < below + 2 := by
      refine Nat.lt_of_mul_lt_mul_right (a := coarse) ?_
      linarith
    omega
  unfold withDigits?
  simp only [hstep, hf, hc]
  rcases hnear with rfl | rfl
  · simp only [hat]
    cases b.holds fine ((b.value * fine / coarse + 1) * coarse)
    · exact ⟨_, rfl⟩
    · simp only
      split_ifs <;> exact ⟨_, rfl⟩
  · simp only [hat]
    cases b.holds fine (b.value * fine / coarse * coarse)
    · exact ⟨_, rfl⟩
    · simp only
      split_ifs <;> exact ⟨_, rfl⟩

/-- The search stops at the first number of digits with which there is a decimal. -/
theorem exponent_of_shortest {tie : Tie} {m : Nat} {e : Int} {n : Nat} (hn : n < 17)
    (h : ∃ d, (Basin.of m e).withDigits? tie (n + 1) = some d) :
    (Basin.of m e).magnitude - (n + 1) ≤ (shortest tie m e).exponent := by
  obtain ⟨d, hd⟩ := h
  cases hfound : (List.range 17).findSome? fun n => (Basin.of m e).withDigits? tie (n + 1) with
  | none =>
    have hnone := List.findSome?_eq_none_iff.1 hfound n (List.mem_range.2 hn)
    simp [hd] at hnone
  | some found =>
    have hshortest : shortest tie m e = found := by
      rw [shortest, hfound, Option.getD_some]
    obtain ⟨before, k, after, hrange, hk, hbefore⟩ := List.findSome?_eq_some_iff.1 hfound
    have hkn : k ≤ n := by
      have hmem : n ∈ before ++ k :: after := hrange ▸ List.mem_range.2 hn
      have ascending : (before ++ k :: after).Pairwise (· < ·) := hrange ▸ List.pairwise_lt_range
      obtain ⟨-, hlater, -⟩ := List.pairwise_append.1 ascending
      rcases List.mem_append.1 hmem with hearly | hmem
      · simp [hbefore n hearly] at hd
      · rcases List.mem_cons.1 hmem with rfl | hlate
        · exact le_rfl
        · exact ((List.pairwise_cons.1 hlater).1 n hlate).le
    rw [hshortest, Basin.exponent_of_withDigits? hk]
    push_cast
    omega

/-- Two numbers of a basin are no further apart than its double has units in the last place. -/
theorem Basin.Contains.abs_sub_le {m : Nat} (hm : 0 < m) {e : Int} {p q : ℚ} (hp : (Basin.of m e).Contains p)
    (hq : (Basin.of m e).Contains q) : |p - q| ≤ 2 ^ e := by
  have hpos := two_zpow_pos e
  have hreach := reach_le m e
  have hbounds {r : ℚ} (hr : (Basin.of m e).Contains r) : (m - 1 / 2) * 2 ^ e ≤ r ∧ r ≤ (m + 1 / 2) * 2 ^ e := by
    rw [contains_of_iff hm] at hr
    rw [← le_div_iff₀ hpos, ← div_le_iff₀ hpos]
    split_ifs at hr
    · exact ⟨by linarith, hr.2⟩
    · exact ⟨by linarith, hr.2.le⟩
  obtain ⟨hplow, hphigh⟩ := hbounds hp
  obtain ⟨hqlow, hqhigh⟩ := hbounds hq
  rw [abs_le]
  constructor <;> linarith

/-- Multiples of a number that are less than it apart are the same. -/
theorem eq_of_multiples {j k : ℕ} {t : ℚ} (ht : 0 < t) (h : |(j * t - k * t : ℚ)| < t) : j * t = (k * t : ℚ) := by
  rw [← sub_mul, abs_mul, abs_of_pos ht, mul_lt_iff_lt_one_left ht] at h
  have hjk : |(j : ℤ) - k| < 1 := by exact_mod_cast h
  have heq : j = k := by
    have hzero := Int.abs_lt_one_iff.1 hjk
    omega
  rw [heq]

/-- A decimal in larger units is a whole number of smaller ones. -/
theorem exists_multiple_of_exponent {d : Decimal} {k : ℤ} (h : k ≤ d.exponent) :
    d.number = (Decimal.mk (d.digits * 10 ^ (d.exponent - k).toNat) k).number := by
  have hscale : (10 : ℚ) ^ d.exponent = 10 ^ (d.exponent - k).toNat * 10 ^ k := by
    rw [← zpow_natCast, ← zpow_add₀ (by norm_num)]
    congr 1
    omega
  rw [number, number, hscale]
  push_cast
  ring

theorem Basin.value_div_unit (m : Nat) (e : Int) : ((Basin.of m e).value / (Basin.of m e).unit : ℚ) = m * 2 ^ e := by
  have hscale : (2 : ℚ) ^ (e - 2).toNat = 2 ^ (2 - e).toNat * 2 ^ (e - 2) := by
    rw [← zpow_natCast, ← zpow_natCast, ← two_zpow_add]
    congr 1
    omega
  have hfour : (2 : ℚ) ^ e = 4 * 2 ^ (e - 2) := by
    rw [show (4 : ℚ) = 2 ^ (2 : ℤ) by norm_num, ← two_zpow_add]
    congr 1
    omega
  simp only [Basin.of, Nat.pow_eq, Nat.cast_mul, Nat.cast_pow, Nat.cast_ofNat, hscale, hfour]
  field_simp

-- the double `m · 2 ^ e` has all its digits

section

variable {m : Nat} {e : Int} {d : Decimal}

theorem ulp_le (full : 2 ^ 52 ≤ m) : (2 : ℚ) ^ 52 * 2 ^ e ≤ m * 2 ^ e :=
  mul_le_mul_of_nonneg_right (by exact_mod_cast full) (two_zpow_pos e).le

theorem Basin.magnitude_of (hm : 0 < m) :
    (10 : ℚ) ^ ((Basin.of m e).magnitude - 1) ≤ m * 2 ^ e ∧ (m * 2 ^ e : ℚ) < 10 ^ (Basin.of m e).magnitude := by
  have hspec := magnitude_spec (b := Basin.of m e) (Nat.mul_pos (by omega) (Nat.pow_pos (by norm_num)))
    (Nat.pow_pos (by norm_num))
  rwa [value_div_unit] at hspec

/-- The last of fifteen digits counts more than the last binary digit of a double. -/
theorem Basin.ulp_lt (full : 2 ^ 52 ≤ m) : (2 : ℚ) ^ e < 10 ^ ((Basin.of m e).magnitude - 15) := by
  obtain ⟨-, hmost⟩ := magnitude_of (e := e) (by omega : 0 < m)
  have hten : (10 : ℚ) ^ (Basin.of m e).magnitude = 10 ^ 15 * 10 ^ ((Basin.of m e).magnitude - 15) := by
    rw [← zpow_natCast, ← zpow_add₀ (by norm_num)]
    congr 1
    omega
  have hlast := ten_zpow_pos ((Basin.of m e).magnitude - 15)
  have hulp := ulp_le (e := e) full
  rw [hten] at hmost
  linarith

/-- A decimal of at most fifteen digits near a double has no digit behind the fifteenth of the double. -/
theorem Basin.le_exponent (full : 2 ^ 52 ≤ m) (hdigits : d.digits < 10 ^ 15)
    (h : |d.number - m * 2 ^ e| ≤ 2 ^ e) : (Basin.of m e).magnitude - 15 ≤ d.exponent := by
  by_contra! hlt
  obtain ⟨hleast, -⟩ := magnitude_of (e := e) (by omega : 0 < m)
  have hten : (10 : ℚ) ^ ((Basin.of m e).magnitude - 1) = 10 ^ 15 * 10 ^ ((Basin.of m e).magnitude - 16) := by
    rw [← zpow_natCast, ← zpow_add₀ (by norm_num)]
    congr 1
    omega
  have hlast := ten_zpow_pos ((Basin.of m e).magnitude - 16)
  have hulp := ulp_le (e := e) full
  have hnumber : d.number ≤ (10 ^ 15 - 1) * 10 ^ ((Basin.of m e).magnitude - 16) := by
    have hcount : (d.digits : ℚ) ≤ 10 ^ 15 - 1 := by
      rw [le_sub_iff_add_le]
      exact_mod_cast hdigits
    exact mul_le_mul hcount (zpow_le_zpow_right₀ (by norm_num) (by omega)) (ten_zpow_pos _).le (by norm_num)
  rw [hten] at hleast
  rw [abs_le] at h
  linarith

/-- A decimal of at most fifteen digits is the shortest decimal of the double that it is rounded to. -/
theorem number_shortest (tie : Tie) (digits : m < 2 ^ 53) (least : -1074 ≤ e) (full : 2 ^ 52 ≤ m) (hsome : 0 < d.digits)
    (hdigits : d.digits < 10 ^ 15) (h : Double.nearest d.number = m * 2 ^ e) :
    (shortest tie m e).number = d.number := by
  have hm : 0 < m := by omega
  have hunit : 0 < (Basin.of m e).unit := Nat.pow_pos (by norm_num)
  have hd : 0 < d.number := mul_pos (by exact_mod_cast hsome) (ten_zpow_pos _)
  have hv : (0 : ℚ) < m * 2 ^ e := mul_pos (by exact_mod_cast hm) (two_zpow_pos e)
  have hin := Basin.contains_of_nearest hm digits least (.inl full) hd h
  have hself := Basin.contains_of_nearest hm digits least (.inl full) hv (nearest_of_onGrid ⟨m, e, digits, least, rfl⟩)
  have hulp := Basin.ulp_lt (e := e) full
  have hclose := hin.abs_sub_le hm hself
  have hnumber := exists_multiple_of_exponent (Basin.le_exponent full hdigits hclose)
  have hfound : ∃ found, (Basin.of m e).withDigits? tie (14 + 1) = some found := by
    rw [abs_le] at hclose
    rw [hnumber] at hin hclose
    refine Basin.exists_withDigits? hunit tie hin ?_ ?_
    · rw [Basin.value_div_unit]
      push_cast
      linarith
    · rw [Basin.value_div_unit]
      push_cast
      linarith
  have hnumber' := exists_multiple_of_exponent (exponent_of_shortest (by norm_num) hfound)
  have hapart := ((contains_shortest tie hm e).abs_sub_le hm hin).trans_lt hulp
  rw [hnumber', hnumber] at hapart ⊢
  exact eq_of_multiples (ten_zpow_pos _) hapart

end

end Decimal
end LoadSweep
