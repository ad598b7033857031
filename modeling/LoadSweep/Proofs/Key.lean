import LoadSweep.Key
import LoadSweep.Proofs.Decimal.ReadBack

/-! The text of a key is read back as the number that the key is. So keys of one text are one number, and only the
zeros are two keys of one number. -/
namespace LoadSweep

open Double
open Float.Model.UnpackedFloat (Sign)

namespace Key

/-- The two keys of zero. -/
def zeros : List Key := [ofFloat (-0), ofFloat 0]

variable {x : Float}

theorem toFloat_ofFloat (x : Float) : (ofFloat x).toFloat = x := Float.ofBits_toBits x

theorem ofFloat_injective {x y : Float} (h : ofFloat x = ofFloat y) : x = y := by
  rw [← toFloat_ofFloat x, h, toFloat_ofFloat]

theorem mem_zeros_iff (hx : x.isFinite = true) : ofFloat x ∈ zeros ↔ value x = 0 := by
  have hpositive : Shows .positive 0 (Decimal.unpack 0) := .zero rfl
  have hnegative : Shows .negative 0 (Decimal.unpack (-0)) := .zero rfl
  rw [zeros, List.mem_cons, List.mem_singleton]
  constructor
  · rintro (h | h)
    · rw [ofFloat_injective h, hnegative.value, signed_zero]
    · rw [ofFloat_injective h, hpositive.value, signed_zero]
  · intro h
    obtain ⟨s, v, hshows, -⟩ := exists_shows hx
    have hv : v = 0 := by
      rw [hshows.value] at h
      rw [← abs_signed hshows.onGrid.nonneg s, h, abs_zero]
    rw [hv] at hshows
    cases s with
    | negative => exact .inl (congrArg ofFloat (hshows.eq hnegative))
    | positive => exact .inr (congrArg ofFloat (hshows.eq hpositive))

/-- There is no third zero. -/
theorem eq_or_eq_of_mem_zeros {i j k : Key} (hi : i ∈ zeros) (hj : j ∈ zeros) (hne : i ≠ j) (hk : k ∈ zeros) :
    k = i ∨ k = j := by
  simp only [zeros, List.mem_cons, List.not_mem_nil, or_false] at hi hj hk
  rcases hi with rfl | rfl <;> rcases hj with rfl | rfl <;> rcases hk with rfl | rfl <;> simp_all

theorem toString_apply (s : Sign) {n : Nat} (hn : 0 < n) :
    toString (s.apply n) = String.ofList (Decimal.signText s ++ Nat.toDigits 10 n) := by
  obtain ⟨n, rfl⟩ := Nat.exists_eq_succ_of_ne_zero hn.ne'
  cases s with
  | negative =>
    rw [String.ofList_append]
    rfl
  | positive => rfl

/-- The number that a finite key is, if it is whole. -/
theorem natCast_of_whole {m n : Nat} {e : Int} (h : n * Nat.pow 2 (-e).toNat = m * Nat.pow 2 e.toNat) :
    (n : ℚ) = m * 2 ^ e := by
  have hpow : (2 : ℚ) ^ e.toNat = 2 ^ e * 2 ^ (-e).toNat := by
    rw [← zpow_natCast, ← zpow_natCast, ← two_zpow_add]
    congr 1
    omega
  have hcast : (n : ℚ) * 2 ^ (-e).toNat = m * 2 ^ e.toNat := by exact_mod_cast h
  rw [hpow, ← mul_assoc] at hcast
  exact mul_right_cancel₀ (pow_ne_zero _ (by norm_num)) hcast

theorem text_of_zero (hx : x.isFinite = true) (h : value x = 0) : (ofFloat x).text = "0" := by
  have hzero : (ofFloat x).whole? = some 0 := by
    rcases List.mem_cons.1 ((mem_zeros_iff hx).2 h) with h | h
    · rw [h]
      rfl
    · rw [List.mem_singleton.1 h]
      rfl
  rw [text, hzero]
  rfl

/-- The text of a key is the sign of a number and digits that are read as its magnitude. -/
theorem read?_text (hx : x.isFinite = true) (hsome : value x ≠ 0) : Decimal.read? (ofFloat x).text.toList = some x := by
  obtain ⟨s, v, hshows, hlimit⟩ := exists_shows hx
  have hgrid := hshows.onGrid
  have hpos : 0 < v := by
    refine lt_of_le_of_ne hgrid.nonneg ?_
    rintro rfl
    exact hsome (by rw [hshows.value, signed_zero])
  have hplain := Decimal.read?_plain hx
  have hform := hshows
  rw [text, whole?, toFloat_ofFloat]
  generalize Decimal.unpack x = u at hform ⊢
  cases hform with
  | zero hv => exact absurd hv hpos.ne'
  | @finite m e hm digits least full hv =>
    dsimp only
    split_ifs with hwhole
    · have hn := natCast_of_whole hwhole.1
      generalize m * Nat.pow 2 e.toNat / Nat.pow 2 (-e).toNat = n at hn
      rw [← hv] at hn
      have hn' : 0 < n := by exact_mod_cast hn ▸ hpos
      have hdigits := Decimal.denotes_digits Nat.toDigits_ne_nil (Decimal.isDigit_toDigits n)
      rw [Decimal.valueOf_toDigits, hn] at hdigits
      dsimp only
      rw [toString_apply s hn', String.toList_ofList]
      exact hdigits.read?_of_shows hshows hlimit hpos (nearest_of_onGrid hgrid)
    · exact hplain

theorem text_eq_zero_iff (hx : x.isFinite = true) : (ofFloat x).text = "0" ↔ ofFloat x ∈ zeros := by
  rw [mem_zeros_iff hx]
  refine ⟨fun h => ?_, text_of_zero hx⟩
  by_contra hsome
  have hread := read?_text hx hsome
  have hzero : Decimal.read? "0".toList = some 0 := rfl
  rw [h, hzero, Option.some.injEq] at hread
  exact hsome (by rw [← hread]; rfl)

/-- Keys have one text if they are one key or both zero. -/
theorem text_eq_iff {a b : Float} (ha : a.isFinite = true) (hb : b.isFinite = true) :
    (ofFloat a).text = (ofFloat b).text ↔ ofFloat a = ofFloat b ∨ ofFloat a ∈ zeros ∧ ofFloat b ∈ zeros := by
  constructor
  · intro h
    by_cases hzero : ofFloat a ∈ zeros
    · rw [(text_eq_zero_iff ha).2 hzero] at h
      exact .inr ⟨hzero, (text_eq_zero_iff hb).1 h.symm⟩
    · have hzero' : ofFloat b ∉ zeros := by
        rwa [← text_eq_zero_iff hb, ← h, text_eq_zero_iff ha]
      rw [mem_zeros_iff ha] at hzero
      rw [mem_zeros_iff hb] at hzero'
      have hread := read?_text ha hzero
      rw [h, read?_text hb hzero', Option.some.injEq] at hread
      exact .inl (congrArg ofFloat hread.symm)
  · rintro (h | ⟨hazero, hbzero⟩)
    · rw [h]
    · rw [(text_eq_zero_iff ha).2 hazero, (text_eq_zero_iff hb).2 hbzero]

end Key
end LoadSweep
