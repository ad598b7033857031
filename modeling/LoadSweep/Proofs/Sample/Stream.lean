import LoadSweep.Sample.Stream
import Mathlib

/-! Each step of the state can be undone and the seed can be told from the first state. So no stream comes to the
state of zeros, in which it would stay, and two streams never come to one state after as many words. Four words in a
row give away the state that they were drawn from, so the streams of two seeds differ in the words themselves. -/
namespace LoadSweep.Sample

theorem getLsbD_rotate (x : UInt64) {k : UInt64} (hpos : 0 < k.toNat) (hk : k.toNat < 64) {i : Nat} (hi : i < 64) :
    (rotate x k).toBitVec.getLsbD i =
      if i < k.toNat then x.toBitVec.getLsbD (64 - k.toNat + i) else x.toBitVec.getLsbD (i - k.toNat) := by
  have hleft : (k.toBitVec % 64).toNat = k.toNat := by
    rw [BitVec.toNat_umod]
    exact Nat.mod_eq_of_lt hk
  have hsub : (64 - k).toNat = 64 - k.toNat := UInt64.toNat_sub_of_le _ _ (UInt64.le_iff_toNat_le.2 hk.le)
  have hright : ((64 - k).toBitVec % 64).toNat = 64 - k.toNat := by
    rw [BitVec.toNat_umod, UInt64.toNat_toBitVec, hsub]
    exact Nat.mod_eq_of_lt (Nat.sub_lt (by norm_num) hpos)
  rw [rotate, UInt64.toBitVec_or, UInt64.toBitVec_shiftLeft, UInt64.toBitVec_shiftRight, BitVec.shiftLeft_eq',
    BitVec.ushiftRight_eq', hleft, hright, BitVec.getLsbD_or, BitVec.getLsbD_shiftLeft, BitVec.getLsbD_ushiftRight]
  split_ifs with h
  · simp [hi, h]
  · have hbeyond : x.toBitVec.getLsbD (64 - k.toNat + i) = false := BitVec.getLsbD_of_ge _ _ (by omega)
    simp [hi, h, hbeyond]

/-- A rotation is undone by the rest of a full turn. -/
theorem rotate_rotate (x : UInt64) {j k : UInt64} (hj : 0 < j.toNat) (hk : 0 < k.toNat) (h : j.toNat + k.toNat = 64) :
    rotate (rotate x j) k = x := by
  apply UInt64.eq_of_toBitVec_eq
  apply BitVec.eq_of_getLsbD_eq
  intro i hi
  rw [getLsbD_rotate _ hk (by omega) hi]
  split_ifs with hlow
  · rw [getLsbD_rotate _ hj (by omega) (by omega), if_neg (by omega)]
    congr 1
    omega
  · rw [getLsbD_rotate _ hj (by omega) (by omega), if_pos (by omega)]
    congr 1
    omega

theorem rotate_injective {k : UInt64} (hpos : 0 < k.toNat) (hk : k.toNat < 64) : Function.Injective (rotate · k) := by
  intro x y h
  have hsub : (64 - k).toNat = 64 - k.toNat := UInt64.toNat_sub_of_le _ _ (UInt64.le_iff_toNat_le.2 hk.le)
  have hback (z : UInt64) : rotate (rotate z k) (64 - k) = z := rotate_rotate z hpos (by omega) (by omega)
  rw [← hback x, ← hback y]
  exact congrArg (rotate · (64 - k)) h

theorem xor_cancel_left (x y : UInt64) : x ^^^ (x ^^^ y) = y := by
  rw [← UInt64.xor_assoc, UInt64.xor_self, UInt64.zero_xor]

theorem xor_cancel_right (x y : UInt64) : x ^^^ y ^^^ y = x := by
  rw [UInt64.xor_assoc, UInt64.xor_self, UInt64.xor_zero]

/-- A factor with an inverse can be cancelled. -/
theorem mul_cancel {m x y : UInt64} (inverse : UInt64) (hm : m * inverse = 1) (h : x * m = y * m) : x = y := by
  have hscaled := congrArg (· * inverse) h
  simpa only [UInt64.mul_assoc, hm, UInt64.mul_one] using hscaled

/-- A word and itself moved up. -/
def spread (x : UInt64) : UInt64 := x ^^^ (x <<< 17)

/-- Undoes `spread`: after four moves nothing of a word is left. -/
def gather (x : UInt64) : UInt64 := x ^^^ (x <<< 17 ^^^ (x <<< 34 ^^^ x <<< 51))

theorem shift_shift (x : UInt64) {j k : UInt64} (hj : j < 64) (hk : k < 64) (h : j + k < 64) :
    x <<< j <<< k = x <<< (j + k) := (UInt64.shiftLeft_add hj hk h).symm

theorem shift_out (x : UInt64) : x <<< 17 <<< 51 = 0 ∧ x <<< 51 <<< 17 = 0 := by
  constructor <;> apply UInt64.eq_of_toBitVec_eq <;> simp [← BitVec.shiftLeft_add]

theorem spread_gather (x : UInt64) : spread (gather x) = x := by
  have htwice : x <<< 17 <<< 17 = x <<< 34 := shift_shift x (by decide) (by decide) (by decide)
  have hthrice : x <<< 34 <<< 17 = x <<< 51 := shift_shift x (by decide) (by decide) (by decide)
  rw [spread, gather]
  simp only [UInt64.shiftLeft_xor, htwice, hthrice, (shift_out x).2, UInt64.xor_zero]
  exact xor_cancel_right x _

theorem gather_spread (x : UInt64) : gather (spread x) = x := by
  have htwice : x <<< 17 <<< 17 = x <<< 34 := shift_shift x (by decide) (by decide) (by decide)
  have hthrice : x <<< 17 <<< 34 = x <<< 51 := shift_shift x (by decide) (by decide) (by decide)
  rw [spread, gather]
  simp only [UInt64.shiftLeft_xor, htwice, hthrice, (shift_out x).1, UInt64.xor_zero]
  simp only [UInt64.xor_assoc, UInt64.xor_self, UInt64.xor_zero]

namespace Stream

/-- The state before a state. -/
def back (s : Stream) : Stream :=
  let u := rotate s.d 19
  let b := gather (s.b ^^^ s.c)
  ⟨s.a ^^^ u, b, b ^^^ (s.b ^^^ (s.a ^^^ u)), u ^^^ b⟩

theorem back_rest (s : Stream) : s.rest.back = s := by
  have hturn : rotate (rotate (s.d ^^^ s.b) 45) 19 = s.d ^^^ s.b := rotate_rotate _ (by decide) (by decide) (by decide)
  have hspread : s.b ^^^ (s.c ^^^ s.a) ^^^ (s.c ^^^ s.a ^^^ s.b <<< 17) = spread s.b := by
    rw [← UInt64.xor_assoc, xor_cancel_right, spread]
  have hc : s.b ^^^ (s.b ^^^ (s.c ^^^ s.a) ^^^ s.a) = s.c := by
    rw [UInt64.xor_assoc s.b, xor_cancel_right, xor_cancel_left]
  simp only [rest, back, hturn, hspread, gather_spread, xor_cancel_right, hc]

theorem rest_back (s : Stream) : s.back.rest = s := by
  have hturn : rotate (rotate s.d 19) 45 = s.d := rotate_rotate _ (by decide) (by decide) (by decide)
  have hmix (x y : UInt64) : x ^^^ (s.b ^^^ y) ^^^ y = x ^^^ s.b := by
    rw [← UInt64.xor_assoc, xor_cancel_right]
  have hspread : gather (s.b ^^^ s.c) ^^^ s.b ^^^ gather (s.b ^^^ s.c) <<< 17 = s.c := by
    rw [UInt64.xor_comm _ s.b, UInt64.xor_assoc]
    exact (congrArg (s.b ^^^ ·) (spread_gather _)).trans (xor_cancel_left _ _)
  simp only [rest, back, hturn, hmix, hspread, xor_cancel_right, xor_cancel_left]

theorem bijective_rest : Function.Bijective rest :=
  Function.bijective_iff_has_inverse.2 ⟨back, back_rest, rest_back⟩

theorem scatter_injective : Function.Injective scatter := by
  intro x y h
  have hproduct : x * 6364136223846793005 = y * 6364136223846793005 := (UInt64.add_left_inj 1).1 h
  exact mul_cancel 13877824140714322085 (by decide) hproduct

theorem ofSeed_injective : Function.Injective ofSeed := by
  intro seed other h
  exact scatter_injective (congrArg a h)

/-- No seed gives zeros, for the word that follows 0 is 1. -/
theorem ofSeed_ne_zero (seed : UInt64) : ofSeed seed ≠ ⟨0, 0, 0, 0⟩ := by
  intro h
  have hfirst : scatter seed = 0 := congrArg a h
  have hsecond : scatter (scatter seed) = 0 := congrArg b h
  rw [hfirst] at hsecond
  exact absurd hsecond (by decide)

/-- The state of a stream after some words. -/
def after (n : Nat) (s : Stream) : Stream := (Draw.times n Draw.word s).2

/-- The next words of a stream. -/
def words (n : Nat) (s : Stream) : List UInt64 := (Draw.times n Draw.word s).1

theorem after_zero (s : Stream) : s.after 0 = s := rfl

theorem after_succ (n : Nat) (s : Stream) : s.after (n + 1) = s.rest.after n := rfl

theorem words_zero (s : Stream) : s.words 0 = [] := rfl

theorem words_succ (n : Nat) (s : Stream) : s.words (n + 1) = s.word :: s.rest.words n := rfl

theorem after_injective (n : Nat) : Function.Injective (after n) := by
  induction n with
  | zero => exact Function.injective_id
  | succ n ih => exact ih.comp bijective_rest.injective

/-- The state of zeros is its own successor, so no other state leads to it. -/
theorem after_ne_zero {s : Stream} (h : s ≠ ⟨0, 0, 0, 0⟩) (n : Nat) : s.after n ≠ ⟨0, 0, 0, 0⟩ := by
  induction n generalizing s with
  | zero => exact h
  | succ n ih =>
    have hzero : rest ⟨0, 0, 0, 0⟩ = ⟨0, 0, 0, 0⟩ := by decide
    exact ih (hzero ▸ bijective_rest.injective.ne h)

theorem word_eq_iff {s t : Stream} : s.word = t.word ↔ s.b = t.b := by
  constructor
  · intro h
    have hturned : rotate (s.b * 5) 7 = rotate (t.b * 5) 7 := mul_cancel 10248191152060862009 (by decide) h
    have hproduct : s.b * 5 = t.b * 5 := rotate_injective (by decide) (by decide) hturned
    exact mul_cancel 14757395258967641293 (by decide) hproduct
  · intro h
    rw [word, word, h]

theorem rest_b (s : Stream) : s.rest.b = s.b ^^^ (s.c ^^^ s.a) := rfl

theorem rest_rest_b (s : Stream) : s.rest.rest.b = s.b <<< 17 ^^^ (s.a ^^^ s.d) := by
  have hmix (v : UInt64) :
      s.b ^^^ v ^^^ (v ^^^ s.b <<< 17 ^^^ (s.a ^^^ (s.d ^^^ s.b))) = s.b <<< 17 ^^^ (s.a ^^^ s.d) := by
    rw [UInt64.xor_assoc v, UInt64.xor_assoc s.b, xor_cancel_left, ← UInt64.xor_assoc s.a,
      ← UInt64.xor_assoc (s.b <<< 17), UInt64.xor_comm s.b, xor_cancel_right]
  exact hmix _

/-- Four words in a row tell the state that they come from. -/
theorem words_injective : Function.Injective (words 4) := by
  intro s t h
  simp only [words_succ, words_zero, List.cons.injEq, and_true, word_eq_iff] at h
  obtain ⟨hb, hsecond, hthird, hfourth⟩ := h
  have had : s.a ^^^ s.d = t.a ^^^ t.d := by
    rwa [rest_rest_b, rest_rest_b, hb, UInt64.xor_right_inj] at hthird
  have hnext : s.rest.a ^^^ s.rest.d = t.rest.a ^^^ t.rest.d := by
    rwa [rest_rest_b, rest_rest_b, hsecond, UInt64.xor_right_inj] at hfourth
  have hturned : rotate (s.d ^^^ t.b) 45 = rotate (t.d ^^^ t.b) 45 := by
    have hmix (u : Stream) : u.rest.a ^^^ u.rest.d = u.a ^^^ u.d ^^^ u.b ^^^ rotate (u.d ^^^ u.b) 45 := by
      rw [UInt64.xor_assoc u.a]
      rfl
    rwa [hmix, hmix, had, hb, UInt64.xor_right_inj] at hnext
  have hd : s.d = t.d := by
    have hdb := rotate_injective (by decide) (by decide) hturned
    rwa [UInt64.xor_left_inj] at hdb
  have ha : s.a = t.a := by
    rwa [hd, UInt64.xor_left_inj] at had
  have hc : s.c = t.c := by
    rwa [rest_b, rest_b, hb, ha, UInt64.xor_right_inj, UInt64.xor_left_inj] at hsecond
  cases s
  cases t
  congr

end Stream

/-- The step of a stream is a bijection of the states, and with any two seeds and after any number of words the state
is not that of zeros, is another state for another seed, and so are the words that come next: the next four differ. -/
theorem streams_apart (seed other : UInt64) (n : Nat) :
    (Function.Bijective fun s : Stream => (Draw.word s).2) ∧
    (Stream.ofSeed seed).after n ≠ ⟨0, 0, 0, 0⟩ ∧
    ((Stream.ofSeed seed).after n = (Stream.ofSeed other).after n ↔ seed = other) ∧
    (((Stream.ofSeed seed).after n).words 4 = ((Stream.ofSeed other).after n).words 4 ↔ seed = other) := by
  have hstate : (Stream.ofSeed seed).after n = (Stream.ofSeed other).after n ↔ seed = other :=
    ((Stream.after_injective n).comp Stream.ofSeed_injective).eq_iff
  exact ⟨Stream.bijective_rest, Stream.after_ne_zero (Stream.ofSeed_ne_zero seed) n, hstate,
    Stream.words_injective.eq_iff.trans hstate⟩

end LoadSweep.Sample
