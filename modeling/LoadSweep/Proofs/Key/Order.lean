import LoadSweep.Proofs.Double.Order
import LoadSweep.Proofs.Series

/-! Without its sign, a pattern of bits is larger the larger its number is: the exponent stands above the digits, and
the numbers of one exponent fill up the patterns below those of the next. -/
namespace LoadSweep

open Float.Model (Format UnpackedFloat)
open Float.Model.UnpackedFloat (Sign pack unpack unpackExponent unpackMantissa unpackSign)

namespace Key

variable {j k : Key}

def sign (k : Key) : Sign := if k.bits.toNat < 2 ^ 63 then .positive else .negative

/-- A pattern without its sign. -/
def magnitude (k : Key) : Nat := k.bits.toNat % 2 ^ 63

/-- What is shown by a pattern of some sign and magnitude. -/
inductive Form (s : Sign) (n : Nat) : UnpackedFloat → Prop
  | zero (hn : n = 0) : Form s n (.zero s)
  | finite {m : Nat} {e : Int} (hm : 0 < m) (digits : m < 2 ^ 53) (least : -1074 ≤ e) (full : 2 ^ 52 ≤ m ∨ e = -1074)
      (hn : (n : ℤ) = (e + 1074) * 2 ^ 52 + m) (below : n < 2047 * 2 ^ 52) : Form s n (.finite s m e hm)
  | infinity (hn : n = 2047 * 2 ^ 52) : Form s n (.infinity s)
  | notANumber (beyond : 2047 * 2 ^ 52 < n) : Form s n .notANumber

theorem unpackSign_bits (b : UInt64) : Sign.ofBitVec (@unpackSign .binary64 b.toBitVec) = sign ⟨b⟩ := by
  have hbits := b.toNat_lt
  have hhighest : (@unpackSign .binary64 b.toBitVec).toNat = b.toNat / 2 ^ 63 := by
    simp [unpackSign, Nat.shiftRight_eq_div_pow]
    omega
  unfold Sign.ofBitVec sign
  by_cases h : b.toNat < 2 ^ 63
  · have hzero : @unpackSign .binary64 b.toBitVec = 0#1 := by
      apply BitVec.eq_of_toNat_eq
      rw [hhighest, BitVec.toNat_zero]
      omega
    rw [if_pos hzero, if_pos h]
  · have hone : @unpackSign .binary64 b.toBitVec ≠ 0#1 := by
      intro hzero
      rw [hzero, BitVec.toNat_zero] at hhighest
      omega
    rw [if_neg hone, if_neg h]

theorem form_unpack (k : Key) : Form k.sign k.magnitude (unpack .binary64 k.bits.toBitVec) := by
  obtain ⟨b⟩ := k
  have hbits := b.toNat_lt
  have hexponent : (@unpackExponent .binary64 b.toBitVec).toNat = b.toNat / 2 ^ 52 % 2 ^ 11 := by
    simp [unpackExponent, Nat.shiftRight_eq_div_pow]
  have hfraction : (@unpackMantissa .binary64 b.toBitVec).toNat = b.toNat % 2 ^ 52 := by
    simp [unpackMantissa]
  have hbias : Format.binary64.exponentBias = 1023 := rfl
  have hmagnitude : magnitude ⟨b⟩ = b.toNat / 2 ^ 52 % 2 ^ 11 * 2 ^ 52 + b.toNat % 2 ^ 52 := by
    change b.toNat % 2 ^ 63 = _
    omega
  rw [← hexponent, ← hfraction] at hmagnitude
  rw [← unpackSign_bits]
  have hbelow := (@unpackExponent .binary64 b.toBitVec).isLt
  have hsmall := (@unpackMantissa .binary64 b.toBitVec).isLt
  simp only at hbelow hsmall
  unfold unpack
  simp only [Double.toNat_implicit, hbias]
  split_ifs with hall hnone hzero hnone
  · have hfull : (@unpackExponent .binary64 b.toBitVec).toNat = 2047 := by rw [hall]; rfl
    have hempty : (@unpackMantissa .binary64 b.toBitVec).toNat = 0 := by rw [hnone]; rfl
    exact .infinity (by omega)
  · have hfull : (@unpackExponent .binary64 b.toBitVec).toNat = 2047 := by rw [hall]; rfl
    have hsome : (@unpackMantissa .binary64 b.toBitVec).toNat ≠ 0 := fun h => hnone (BitVec.eq_of_toNat_eq h)
    exact .notANumber (by omega)
  · have hempty : (@unpackMantissa .binary64 b.toBitVec).toNat = 0 := by rw [hnone]; rfl
    have hlow : (@unpackExponent .binary64 b.toBitVec).toNat = 0 := by rw [hzero]; rfl
    exact .zero (by omega)
  · have hlow : (@unpackExponent .binary64 b.toBitVec).toNat = 0 := by rw [hzero]; rfl
    exact .finite _ (by omega) (by omega) (.inr (by omega)) (by omega) (by omega)
  · have hlow : (@unpackExponent .binary64 b.toBitVec).toNat ≠ 0 := fun h => hzero (BitVec.eq_of_toNat_eq h)
    have hhigh : (@unpackExponent .binary64 b.toBitVec).toNat ≠ 2047 := fun h => hall (BitVec.eq_of_toNat_eq h)
    exact .finite _ (by omega) (by omega) (.inl (by omega)) (by omega) (by omega)

/-- Exponents and then digits are compared as the patterns are. -/
theorem compare_forms {m n a b : Nat} {e f : Int} (digits : m < 2 ^ 53) (least : -1074 ≤ e)
    (full : 2 ^ 52 ≤ m ∨ e = -1074) (digits' : n < 2 ^ 53) (least' : -1074 ≤ f) (full' : 2 ^ 52 ≤ n ∨ f = -1074)
    (ha : (a : ℤ) = (e + 1074) * 2 ^ 52 + m) (hb : (b : ℤ) = (f + 1074) * 2 ^ 52 + n) :
    (compare e f).then (compare m n) = compare a b := by
  rcases Int.lt_trichotomy e f with h | rfl | h
  · have hlt : a < b := by omega
    rw [compare_lt_iff_lt.2 h, compare_lt_iff_lt.2 hlt]
    rfl
  · rw [compare_eq_iff_eq.2 rfl]
    rcases Nat.lt_trichotomy m n with h | rfl | h
    · rw [compare_lt_iff_lt.2 h, compare_lt_iff_lt.2 (show a < b by omega)]
      rfl
    · rw [compare_eq_iff_eq.2 rfl, compare_eq_iff_eq.2 (show a = b by omega)]
      rfl
    · rw [compare_gt_iff_gt.2 h, compare_gt_iff_gt.2 (show b < a by omega)]
      rfl
  · have hlt : b < a := by omega
    rw [compare_gt_iff_gt.2 h, compare_gt_iff_gt.2 hlt]
    rfl

/-- Numbers are ordered as the magnitudes of their patterns with their signs. -/
theorem Form.lt_iff {s t : Sign} {a b : Nat} {u z : UnpackedFloat} (hu : Form s a u) (hz : Form t b z)
    (hu' : u.isNaN = false) (hz' : z.isNaN = false) : u.lt z = true ↔ s.apply a < t.apply b := by
  cases hu with
  | notANumber => cases hu'
  | zero ha =>
    cases hz with
    | notANumber => cases hz'
    | zero hb => cases s <;> cases t <;> simp [UnpackedFloat.lt, UnpackedFloat.compare, Sign.apply, ha, hb]
    | infinity hb => cases s <;> cases t <;> simp [UnpackedFloat.lt, UnpackedFloat.compare, Sign.apply, ha, hb]
    | finite hn digits' least' full' hb below' =>
      have hpos : 0 < b := by omega
      cases s <;> cases t <;> simp [UnpackedFloat.lt, UnpackedFloat.compare, Sign.apply, ha, hpos]
  | infinity ha =>
    cases hz with
    | notANumber => cases hz'
    | zero hb => cases s <;> cases t <;> simp [UnpackedFloat.lt, UnpackedFloat.compare, Sign.apply, ha, hb]
    | infinity hb =>
      cases s <;> cases t <;> simp [UnpackedFloat.lt, UnpackedFloat.compare, Sign.apply, ha, hb, compare]
    | finite hn digits' least' full' hb below' =>
      cases s <;> cases t <;> simp [UnpackedFloat.lt, UnpackedFloat.compare, Sign.apply, ha] <;> omega
  | finite hm digits least full ha below =>
    cases hz with
    | notANumber => cases hz'
    | zero hb =>
      have hpos : 0 < a := by omega
      cases s <;> cases t <;> simp [UnpackedFloat.lt, UnpackedFloat.compare, Sign.apply, hb, hpos]
    | infinity hb =>
      cases s <;> cases t <;> simp [UnpackedFloat.lt, UnpackedFloat.compare, Sign.apply, hb] <;> omega
    | finite hn digits' least' full' hb below' =>
      have hcompare := compare_forms digits least full digits' least' full' ha hb
      cases s with
      | negative => cases t with
        | negative => simp [UnpackedFloat.lt, UnpackedFloat.compare, Sign.apply, hcompare, Nat.compare_eq_gt]
        | positive => simp [UnpackedFloat.lt, UnpackedFloat.compare, Sign.apply]; omega
      | positive => cases t with
        | negative => simp [UnpackedFloat.lt, UnpackedFloat.compare, Sign.apply]
        | positive => simp [UnpackedFloat.lt, UnpackedFloat.compare, Sign.apply, hcompare, Nat.compare_eq_lt]

theorem unpack_toFloat (k : Key) : Decimal.unpack k.toFloat = unpack .binary64 k.bits.toBitVec := by
  change unpack .binary64 (pack .binary64 (unpack .binary64 k.bits.toBitVec)) = unpack .binary64 k.bits.toBitVec
  rcases Double.shows_or_exceptional k.bits.toBitVec with ⟨s, v, hshows, hlimit⟩ | hexceptional
  · exact hshows.unpack_pack hlimit
  · generalize unpack .binary64 k.bits.toBitVec = u at hexceptional ⊢
    cases u with
    | notANumber => rfl
    | infinity s => cases s <;> rfl
    | zero => cases hexceptional
    | finite => cases hexceptional

/-- Patterns of numbers are ordered as the numbers. -/
theorem toFloat_lt_iff (hj : j.toFloat.isNaN = false) (hk : k.toFloat.isNaN = false) :
    j.toFloat < k.toFloat ↔ j.sign.apply j.magnitude < k.sign.apply k.magnitude := by
  change (Decimal.unpack j.toFloat).isNaN = false at hj
  change (Decimal.unpack k.toFloat).isNaN = false at hk
  rw [unpack_toFloat] at hj hk
  rw [Double.lt_iff_unpack, unpack_toFloat, unpack_toFloat, (form_unpack j).lt_iff (form_unpack k) hj hk]

theorem rank_of_positive (h : k.sign = .positive) : k.rank = 2 ^ 63 + k.magnitude := by
  unfold sign at h
  split_ifs at h with hbits
  rw [rank, magnitude, UInt64.size, if_pos (by omega)]
  omega

theorem rank_of_negative (h : k.sign = .negative) : k.rank + k.magnitude + 1 = 2 ^ 63 := by
  have hsize := k.bits.toNat_lt
  unfold sign at h
  split_ifs at h with hbits
  rw [rank, magnitude, UInt64.size, if_neg (by omega)]
  omega

theorem rank_cases (k : Key) :
    k.sign = .positive ∧ k.rank = 2 ^ 63 + k.magnitude ∨ k.sign = .negative ∧ k.rank + k.magnitude + 1 = 2 ^ 63 := by
  cases h : k.sign with
  | positive => exact .inl ⟨rfl, rank_of_positive h⟩
  | negative => exact .inr ⟨rfl, rank_of_negative h⟩

theorem eq_of_sign (hs : j.sign = k.sign) (hn : j.magnitude = k.magnitude) : j = k := by
  apply rank_injective
  cases hk : k.sign with
  | positive => rw [rank_of_positive hk, rank_of_positive (hs.trans hk), hn]
  | negative =>
    have hrank := rank_of_negative hk
    have hrank' := rank_of_negative (hs.trans hk)
    omega

theorem eq_zero_iff : k = ofFloat 0 ↔ k.sign = .positive ∧ k.magnitude = 0 := by
  have hzero : (ofFloat 0).sign = .positive ∧ (ofFloat 0).magnitude = 0 := ⟨rfl, rfl⟩
  exact ⟨fun h => h ▸ hzero, fun h => eq_of_sign (h.1.trans hzero.1.symm) (h.2.trans hzero.2.symm)⟩

theorem eq_neg_zero_iff : k = ofFloat (-0) ↔ k.sign = .negative ∧ k.magnitude = 0 := by
  have hzero : (ofFloat (-0)).sign = .negative ∧ (ofFloat (-0)).magnitude = 0 := ⟨rfl, rfl⟩
  exact ⟨fun h => h ▸ hzero, fun h => eq_of_sign (h.1.trans hzero.1.symm) (h.2.trans hzero.2.symm)⟩

/-- Among numbers, keys are ordered by number, and negative zero stands below zero. -/
theorem lt_iff_toFloat (hj : j.toFloat.isNaN = false) (hk : k.toFloat.isNaN = false) :
    j < k ↔ j.toFloat < k.toFloat ∨ j = ofFloat (-0) ∧ k = ofFloat 0 := by
  rw [toFloat_lt_iff hj hk, eq_zero_iff, eq_neg_zero_iff, lt_def]
  rcases j.rank_cases with ⟨hs, hrank⟩ | ⟨hs, hrank⟩ <;> rcases k.rank_cases with ⟨ht, hrank'⟩ | ⟨ht, hrank'⟩ <;>
    simp [hs, ht, Sign.apply] <;> omega

/-- No key stands between negative zero and zero. -/
theorem neg_zero_covers_zero (k : Key) : ofFloat (-0) < ofFloat 0 ∧ ¬(ofFloat (-0) < k ∧ k < ofFloat 0) := by
  have hpositive : (ofFloat 0).rank = 2 ^ 63 := rfl
  have hnegative : (ofFloat (-0)).rank + 1 = 2 ^ 63 := rfl
  rw [lt_def, lt_def, lt_def]
  omega

/-- A pattern as a signed word, in which those with a sign have all other bits flipped. -/
def signedWord (k : Key) : Int64 :=
  let x := k.bits.toInt64
  x ^^^ ((x >>> 63).toUInt64 >>> 1).toInt64

/-- The bits below the sign, all flipped. -/
theorem toNat_flipped (b : UInt64) :
    (b.toBitVec ^^^ (BitVec.allOnes 64 >>> 1)).toNat = b.toNat / 2 ^ 63 * 2 ^ 63 + (2 ^ 63 - 1 - b.toNat % 2 ^ 63) := by
  have hmask : (BitVec.allOnes 64 >>> 1).toNat = 2 ^ 63 - 1 := rfl
  have hlt : 2 ^ 63 - 1 < 2 ^ 63 := by norm_num
  have hlow : (b.toNat % 2 ^ 63) ^^^ (2 ^ 63 - 1) = 2 ^ 63 - 1 - b.toNat % 2 ^ 63 := by
    have hnot := @BitVec.toNat_not 63 (BitVec.ofNat 63 b.toNat)
    rwa [← BitVec.xor_allOnes, BitVec.toNat_xor, BitVec.toNat_ofNat, BitVec.toNat_allOnes] at hnot
  rw [BitVec.toNat_xor, hmask, UInt64.toNat_toBitVec, ← Nat.div_add_mod' (b.toNat ^^^ (2 ^ 63 - 1)) (2 ^ 63),
    Nat.xor_div_two_pow, Nat.xor_mod_two_pow, Nat.div_eq_of_lt hlt, Nat.xor_zero, Nat.mod_eq_of_lt hlt, hlow]

theorem toBitVec_signedWord (k : Key) :
    k.signedWord.toBitVec =
      if k.bits.toNat < 2 ^ 63 then k.bits.toBitVec else k.bits.toBitVec ^^^ (BitVec.allOnes 64 >>> 1) := by
  have hbits := k.bits.toNat_lt
  have hword : k.signedWord.toBitVec = k.bits.toBitVec ^^^ (k.bits.toBitVec.sshiftRight 63 >>> 1) := by
    simp [signedWord]
  have hmsb := BitVec.msb_eq_decide k.bits.toBitVec
  rw [hword]
  split_ifs with h
  · have hpositive : k.bits.toBitVec.msb = false := by
      rw [hmsb, decide_eq_false_iff_not, UInt64.toNat_toBitVec]
      omega
    have hshifted : k.bits.toBitVec >>> 63 = 0#64 := by
      apply BitVec.eq_of_toNat_eq
      rw [BitVec.toNat_ushiftRight, UInt64.toNat_toBitVec, Nat.shiftRight_eq_div_pow, Nat.div_eq_of_lt h,
        BitVec.toNat_zero]
    rw [BitVec.sshiftRight_eq_of_msb_false hpositive, hshifted]
    simp
  · have hnegative : k.bits.toBitVec.msb = true := by
      rw [hmsb, decide_eq_true_iff, UInt64.toNat_toBitVec]
      omega
    have hshifted : ~~~k.bits.toBitVec >>> 63 = 0#64 := by
      apply BitVec.eq_of_toNat_eq
      rw [BitVec.toNat_ushiftRight, BitVec.toNat_not, UInt64.toNat_toBitVec, Nat.shiftRight_eq_div_pow,
        BitVec.toNat_zero]
      omega
    rw [BitVec.sshiftRight_eq_of_msb_true hnegative, hshifted]
    rfl

/-- The place of a key is its signed word, counted from the least one. -/
theorem rank_eq_signedWord (k : Key) : (k.rank : ℤ) = k.signedWord.toInt + 2 ^ 63 := by
  have hbits := k.bits.toNat_lt
  change (k.rank : ℤ) = k.signedWord.toBitVec.toInt + 2 ^ 63
  rw [BitVec.toInt_eq_toNat_cond, toBitVec_signedWord, rank, UInt64.size]
  by_cases h : k.bits.toNat < 2 ^ 63
  · rw [if_pos h, UInt64.toNat_toBitVec]
    split_ifs <;> omega
  · rw [if_neg h, toNat_flipped]
    split_ifs <;> omega

theorem compare_eq_signedWord (j k : Key) : compare j k = compare j.signedWord k.signedWord := by
  have hj := rank_eq_signedWord j
  have hk := rank_eq_signedWord k
  change compare j.rank k.rank = compareOfLessAndEq j.signedWord k.signedWord
  have hlt : j.signedWord < k.signedWord ↔ j.rank < k.rank := by
    rw [Int64.lt_iff_toInt_lt]
    omega
  have heq : j.signedWord = k.signedWord ↔ j.rank = k.rank := by
    rw [← Int64.toInt_inj]
    omega
  simp only [compareOfLessAndEq, hlt, heq]
  rfl

theorem compare_def (j k : Key) : compare j k = compare j.rank k.rank := rfl

theorem compare_swap (j k : Key) : (compare j k).swap = compare k j := Nat.compare_swap j.rank k.rank

theorem compare_eq_lt_iff : compare j k = .lt ↔ j < k := by
  rw [compare_def, compare_lt_iff_lt, lt_def]

theorem isLE_compare_iff : (compare j k).isLE = true ↔ j ≤ k := Nat.isLE_compare

theorem compare_eq_eq_iff : compare j k = .eq ↔ j = k := by
  rw [compare_def, compare_eq_iff_eq]
  exact ⟨rank_injective, congrArg rank⟩

theorem bits_inj : j.bits = k.bits ↔ j = k := by
  refine ⟨fun h => ?_, congrArg bits⟩
  cases j
  cases k
  exact congrArg mk h

end Key

namespace Series

variable {α : Type}

theorem ofList_concat (ps : List (Key × α)) (p : Key × α) : ofList (ps ++ [p]) = (ofList ps).insert p.1 p.2 := by
  simp [ofList]

/-- Look-up finds what was inserted last. -/
theorem get?_ofList (ps : List (Key × α)) (k : Key) :
    (ofList ps).get? k = (ps.reverse.find? (·.1.bits == k.bits)).map (·.2) := by
  induction ps using List.reverseRecOn with
  | nil => rfl
  | append_singleton ps p ih =>
    rw [ofList_concat, get?_insert, ih, List.reverse_append, List.reverse_singleton, List.singleton_append,
      List.find?_cons]
    by_cases h : k = p.1
    · simp [h]
    · have hbits : (p.1.bits == k.bits) = false := beq_eq_false_iff_ne.2 fun hbits => h (Key.bits_inj.1 hbits).symm
      rw [if_neg h, hbits]

end Series

namespace Key

/-- Keys that are the same to every hash function are the same. -/
theorem beq_iff_feed {a b : Key} :
    (a == b) = true ↔ ∀ (σ : Type) (write : σ → UInt64 → σ) (state : σ), a.feed write state = b.feed write state := by
  rw [beq_iff_eq]
  refine ⟨fun h σ write state => by rw [h], fun h => bits_inj.1 ?_⟩
  exact h UInt64 (fun _ word => word) 0

/-- Keys are fit to look values up by, and in the order of numbers. All patterns are in one order, that of their signed
words; equality, order and hash functions agree on which of them are the same. Numbers come in their order, with negative
zero right below zero. So in a series, whatever was inserted, keys ascend, and look-up finds what was inserted last with
just the same bits. -/
theorem order_laws (a b c : Key) :
    ((compare a b).isLE = true ∨ (compare b a).isLE = true) ∧
    ((compare a b).isLE = true ∧ (compare b a).isLE = true ↔ a = b) ∧
    ((compare a b).isLE = true → (compare b c).isLE = true → (compare a c).isLE = true) ∧
    compare b a = (compare a b).swap ∧
    compare a b = compare a.signedWord b.signedWord ∧
    ((a == b) = true ↔ compare a b = .eq) ∧
    (compare a b = .eq ↔ a.bits = b.bits) ∧
    ((a == b) = true ↔ ∀ (σ : Type) (write : σ → UInt64 → σ) (state : σ), a.feed write state = b.feed write state) ∧
    (a < b ↔ compare a b = .lt) ∧ (a ≤ b ↔ (compare a b).isLE = true) ∧
    (a.toFloat.isNaN = false → b.toFloat.isNaN = false →
      (a < b ↔ a.toFloat < b.toFloat ∨ a = ofFloat (-0) ∧ b = ofFloat 0)) ∧
    (ofFloat (-0) < ofFloat 0 ∧ ¬(ofFloat (-0) < c ∧ c < ofFloat 0)) ∧
    ∀ (α : Type) (ps : List (Key × α)),
      (Series.ofList ps).keys.Pairwise (· < ·) ∧ (Series.ofList ps).keys.Nodup ∧
      (c ∈ (Series.ofList ps).keys ↔ c ∈ ps.map (·.1)) ∧
      (Series.ofList ps).get? c = (ps.reverse.find? (·.1.bits == c.bits)).map (·.2) := by
  refine ⟨?_, ?_, ?_, (compare_swap a b).symm, compare_eq_signedWord a b, ?_, ?_, beq_iff_feed, compare_eq_lt_iff.symm,
    isLE_compare_iff.symm, lt_iff_toFloat, neg_zero_covers_zero c, ?_⟩
  · rw [isLE_compare_iff, isLE_compare_iff]
    exact Nat.le_total a.rank b.rank
  · rw [isLE_compare_iff, isLE_compare_iff]
    refine ⟨fun h => rank_injective (Nat.le_antisymm h.1 h.2), ?_⟩
    rintro rfl
    exact ⟨Nat.le_refl _, Nat.le_refl _⟩
  · rw [isLE_compare_iff, isLE_compare_iff, isLE_compare_iff]
    exact Nat.le_trans
  · rw [beq_iff_eq, compare_eq_eq_iff]
  · rw [compare_eq_eq_iff, bits_inj]
  · intro α ps
    exact ⟨Series.pairwise_keys _, Series.nodup_keys _, Series.mem_keys_ofList, Series.get?_ofList ps c⟩

/-- The laws at negative infinity, negative zero and a pattern without a number. -/
theorem order_laws_at_edges :
    (compare (⟨0xFFF0000000000000⟩ : Key) (ofFloat (-0))).isLE = true ∧
      (compare (ofFloat (-0)) ⟨0x7FF8000000000001⟩).isLE = true ∧
      (compare (⟨0xFFF0000000000000⟩ : Key) ⟨0x7FF8000000000001⟩).isLE = true ∧
      (toFloat ⟨0xFFF0000000000000⟩).isNaN = false ∧ (ofFloat (-0)).toFloat.isNaN = false ∧
      (toFloat ⟨0xFFF0000000000000⟩ < (ofFloat (-0)).toFloat) ∧ (⟨0xFFF0000000000000⟩ : Key) < ofFloat (-0) := by
  have hbelow : (compare (⟨0xFFF0000000000000⟩ : Key) (ofFloat (-0))).isLE = true := by decide +kernel
  have habove : (compare (ofFloat (-0)) ⟨0x7FF8000000000001⟩).isLE = true := by decide +kernel
  have hinfinity : (toFloat ⟨0xFFF0000000000000⟩).isNaN = false := by decide +kernel
  have hzero : (ofFloat (-0)).toFloat.isNaN = false := by decide +kernel
  have hlt : toFloat ⟨0xFFF0000000000000⟩ < (ofFloat (-0)).toFloat := by decide +kernel
  obtain ⟨-, -, htrans, -, -, -, -, -, -, -, hnumbers, -⟩ :=
    order_laws ⟨0xFFF0000000000000⟩ (ofFloat (-0)) ⟨0x7FF8000000000001⟩
  exact ⟨hbelow, habove, htrans hbelow habove, hinfinity, hzero, hlt, (hnumbers hinfinity hzero).2 (.inl hlt)⟩

end Key
end LoadSweep
