import LoadSweep.Text.Utf8
import Mathlib.Data.UInt

/-! A text is found again in the bytes that spell it. -/
namespace LoadSweep.Text.Utf8

section

variable {a b c d : UInt8} (rest : List UInt8)

theorem decode_one (ha : a < 0x80) : decode (a :: rest) = (decode rest).map (Char.ofNat a.toNat :: ·) := by
  rw [decode.eq_def]
  simp only [if_pos ha]

theorem decode_two (ha : 0xC2 ≤ a.toNat) (ha' : a.toNat ≤ 0xDF) (hb : isTail b = true) :
    decode (a :: b :: rest) = (decode rest).map (Char.ofNat (a.toNat % 32 * 64 + tailBits b) :: ·) := by
  have hone : ¬a < 0x80 := by simp only [UInt8.lt_iff_toNat_lt, UInt8.reduceToNat]; omega
  have htwo : (0xC2 ≤ a && a ≤ 0xDF) = true := by simp [UInt8.le_iff_toNat_le, ha, ha']
  rw [decode.eq_def]
  simp only [if_neg hone, if_pos htwo, if_pos hb]

theorem decode_three (ha : 0xE0 ≤ a.toNat) (ha' : a.toNat ≤ 0xEF) (hb : opensThree a b = true) (hc : isTail c = true) :
    decode (a :: b :: c :: rest) =
      (decode rest).map (Char.ofNat ((a.toNat % 16 * 64 + tailBits b) * 64 + tailBits c) :: ·) := by
  have hone : ¬a < 0x80 := by simp only [UInt8.lt_iff_toNat_lt, UInt8.reduceToNat]; omega
  have htwo : ¬(0xC2 ≤ a && a ≤ 0xDF) = true := by simp [UInt8.le_iff_toNat_le]; omega
  have hthree : (0xE0 ≤ a && a ≤ 0xEF) = true := by simp [UInt8.le_iff_toNat_le, ha, ha']
  have hboth : (opensThree a b && isTail c) = true := by rw [hb, hc]; rfl
  rw [decode.eq_def]
  simp only [if_neg hone, if_neg htwo, if_pos hthree, if_pos hboth]

theorem decode_four (ha : 0xF0 ≤ a.toNat) (ha' : a.toNat ≤ 0xF4) (hb : opensFour a b = true) (hc : isTail c = true)
    (hd : isTail d = true) :
    decode (a :: b :: c :: d :: rest) =
      (decode rest).map
        (Char.ofNat (((a.toNat % 8 * 64 + tailBits b) * 64 + tailBits c) * 64 + tailBits d) :: ·) := by
  have hone : ¬a < 0x80 := by simp only [UInt8.lt_iff_toNat_lt, UInt8.reduceToNat]; omega
  have htwo : ¬(0xC2 ≤ a && a ≤ 0xDF) = true := by simp [UInt8.le_iff_toNat_le]; omega
  have hthree : ¬(0xE0 ≤ a && a ≤ 0xEF) = true := by simp [UInt8.le_iff_toNat_le]; omega
  have hfour : (0xF0 ≤ a && a ≤ 0xF4) = true := by simp [UInt8.le_iff_toNat_le, ha, ha']
  have hall : (opensFour a b && isTail c && isTail d) = true := by rw [hb, hc, hd]; rfl
  rw [decode.eq_def]
  simp only [if_neg hone, if_neg htwo, if_neg hthree, if_pos hfour, if_pos hall]

end

/-- Six bits behind the mark of a continuing byte. -/
theorem tail_ofNat {n : Nat} (hn : n < 64) :
    isTail (UInt8.ofNat (n + 128)) = true ∧ tailBits (UInt8.ofNat (n + 128)) = n := by
  have hbyte : (UInt8.ofNat (n + 128)).toNat = n + 128 := by
    rw [UInt8.toNat_ofNat']
    omega
  constructor
  · simp only [isTail, Bool.and_eq_true, decide_eq_true_eq, UInt8.le_iff_toNat_le, hbyte, UInt8.reduceToNat]
    omega
  · rw [tailBits, hbyte]
    omega

theorem decode_encodeChar (c : Char) (rest : List UInt8) :
    decode (String.utf8EncodeChar c ++ rest) = (decode rest).map (c :: ·) := by
  have hvalid : c.val.toNat < 0xD800 ∨ 0xDFFF < c.val.toNat ∧ c.val.toNat < 0x110000 := c.valid
  have hc : Char.ofNat c.val.toNat = c := Char.ofNat_toNat c
  have htail (n : Nat) := tail_ofNat (Nat.mod_lt n (by decide : 64 > 0))
  unfold String.utf8EncodeChar
  generalize c.val.toNat = v at hvalid hc ⊢
  dsimp only
  -- one case for each number of bytes
  split_ifs with h₁ h₂ h₃
  · have hlead : (UInt8.ofNat v).toNat = v := by rw [UInt8.toNat_ofNat']; omega
    rw [List.singleton_append, decode_one, hlead, hc]
    rw [UInt8.lt_iff_toNat_lt, hlead]
    exact Nat.lt_succ_of_le h₁
  · have hlead : (UInt8.ofNat (v / 64 % 32 + 192)).toNat = v / 64 % 32 + 192 := by rw [UInt8.toNat_ofNat']; omega
    have hnumber : (v / 64 % 32 + 192) % 32 * 64 + v % 64 = v := by omega
    rw [List.cons_append, List.singleton_append, decode_two rest (by omega) (by omega) (htail v).1, hlead, (htail v).2,
      hnumber, hc]
  · have hlead : (UInt8.ofNat (v / 4096 % 16 + 224)).toNat = v / 4096 % 16 + 224 := by rw [UInt8.toNat_ofNat']; omega
    have hopens : opensThree (UInt8.ofNat (v / 4096 % 16 + 224)) (UInt8.ofNat (v / 64 % 64 + 128)) = true := by
      have hsecond : (UInt8.ofNat (v / 64 % 64 + 128)).toNat = v / 64 % 64 + 128 := by rw [UInt8.toNat_ofNat']; omega
      simp only [opensThree, (htail _).1, Bool.true_and, Bool.and_eq_true, Bool.or_eq_true, bne_iff_ne, ne_eq,
        decide_eq_true_eq, ← UInt8.toNat_inj, UInt8.le_iff_toNat_le, hlead, hsecond, UInt8.reduceToNat]
      omega
    have hnumber : ((v / 4096 % 16 + 224) % 16 * 64 + v / 64 % 64) * 64 + v % 64 = v := by omega
    rw [List.cons_append, List.cons_append, List.singleton_append,
      decode_three rest (by omega) (by omega) hopens (htail v).1, hlead, (htail _).2, (htail _).2, hnumber, hc]
  · have hlead : (UInt8.ofNat (v / 262144 % 8 + 240)).toNat = v / 262144 % 8 + 240 := by
      rw [UInt8.toNat_ofNat']
      omega
    have hopens : opensFour (UInt8.ofNat (v / 262144 % 8 + 240)) (UInt8.ofNat (v / 4096 % 64 + 128)) = true := by
      have hsecond : (UInt8.ofNat (v / 4096 % 64 + 128)).toNat = v / 4096 % 64 + 128 := by
        rw [UInt8.toNat_ofNat']
        omega
      simp only [opensFour, (htail _).1, Bool.true_and, Bool.and_eq_true, Bool.or_eq_true, bne_iff_ne, ne_eq,
        decide_eq_true_eq, ← UInt8.toNat_inj, UInt8.le_iff_toNat_le, hlead, hsecond, UInt8.reduceToNat]
      omega
    have hnumber : (((v / 262144 % 8 + 240) % 8 * 64 + v / 4096 % 64) * 64 + v / 64 % 64) * 64 + v % 64 = v := by
      omega
    rw [List.cons_append, List.cons_append, List.cons_append, List.singleton_append,
      decode_four rest (by omega) (by omega) hopens (htail _).1 (htail v).1, hlead, (htail _).2, (htail _).2,
      (htail _).2, hnumber, hc]

theorem decode_encode (cs : List Char) : decode (encode cs) = some cs := by
  induction cs with
  | nil => rfl
  | cons c cs ih => rw [encode, List.flatMap_cons, decode_encodeChar, ← encode, ih, Option.map_some]

end LoadSweep.Text.Utf8
