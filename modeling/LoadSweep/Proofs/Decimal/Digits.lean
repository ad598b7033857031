import LoadSweep.Decimal.Reader
import Mathlib

/-! Whole numbers are written with digits and digits are the value of a whole number. Digits behind those of a number
make a larger number, and the first digits of a number are those of a smaller one. -/
namespace LoadSweep.Decimal

theorem valueOf_eq_ofDigitChars (ds : List Char) : valueOf ds = Nat.ofDigitChars 10 ds 0 := by
  simp only [valueOf, Nat.ofDigitChars_eq_foldl, Nat.mul_comm]
  rfl

theorem valueOf_toDigits (n : Nat) : valueOf (Nat.toDigits 10 n) = n := by
  rw [valueOf_eq_ofDigitChars, Nat.ofDigitChars_ten_toDigits]

theorem valueOf_append (ds es : List Char) : valueOf (ds ++ es) = valueOf ds * 10 ^ es.length + valueOf es := by
  rw [valueOf_eq_ofDigitChars, valueOf_eq_ofDigitChars, valueOf_eq_ofDigitChars, Nat.ofDigitChars_append,
    Nat.ofDigitChars_eq_ofDigitChars_zero, Nat.mul_comm]

theorem valueOf_replicate_zero (n : Nat) : valueOf (List.replicate n '0') = 0 := by
  rw [valueOf_eq_ofDigitChars, Nat.ofDigitChars_replicate_zero, Nat.mul_zero]

theorem toDigits_inj {m n : Nat} : Nat.toDigits 10 m = Nat.toDigits 10 n ↔ m = n := by
  refine ⟨fun h => ?_, congrArg _⟩
  have hvalue := congrArg valueOf h
  rwa [valueOf_toDigits, valueOf_toDigits] at hvalue

theorem isDigit_toDigits (n : Nat) : ∀ c ∈ Nat.toDigits 10 n, c.isDigit = true :=
  fun _ hc => Nat.isDigit_of_mem_toDigits (by decide) (by decide) hc

theorem isDigit_zeros (k : Nat) : ∀ c ∈ List.replicate k '0', c.isDigit = true :=
  fun _ hc => List.eq_of_mem_replicate hc ▸ rfl

theorem toList_toString (n : UInt32) : (toString n).toList = Nat.toDigits 10 n.toNat := by
  change (toString n.toNat).toList = _
  rw [Nat.toString_eq_ofList_toDigits, String.toList_ofList]

theorem digitChar_toNat {c : Char} (hc : c.isDigit = true) : c.toNat - 48 < 10 ∧ Nat.digitChar (c.toNat - 48) = c := by
  have hrange : 48 ≤ c.toNat ∧ c.toNat ≤ 57 := by
    simpa [Char.isDigit, UInt32.le_iff_toNat_le] using hc
  have hlt : c.toNat - 48 < 10 := by omega
  refine ⟨hlt, Char.toNat_inj.1 ?_⟩
  rw [Nat.toNat_digitChar_of_lt_ten hlt]
  omega

theorem valueOf_cons (c : Char) (cs : List Char) : valueOf (c :: cs) = (c.toNat - 48) * 10 ^ cs.length + valueOf cs := by
  have happend := valueOf_append [c] cs
  rw [List.singleton_append] at happend
  rw [happend]
  simp [valueOf]

theorem valueOf_lt {cs : List Char} (hcs : ∀ c ∈ cs, c.isDigit = true) : valueOf cs < 10 ^ cs.length := by
  induction cs with
  | nil => decide
  | cons c cs ih =>
    obtain ⟨hc, hcs⟩ := List.forall_mem_cons.1 hcs
    have hdigit := (digitChar_toNat hc).1
    calc valueOf (c :: cs) = (c.toNat - 48) * 10 ^ cs.length + valueOf cs := valueOf_cons c cs
      _ < (c.toNat - 48) * 10 ^ cs.length + 10 ^ cs.length := Nat.add_lt_add_left (ih hcs) _
      _ = (c.toNat - 48 + 1) * 10 ^ cs.length := by rw [Nat.add_mul, Nat.one_mul]
      _ ≤ 10 * 10 ^ cs.length := Nat.mul_le_mul_right _ hdigit
      _ = 10 ^ (c :: cs).length := by rw [List.length_cons, Nat.pow_succ, Nat.mul_comm]

/-- Digits behind those of a number other than zero make a larger number. -/
theorem toDigits_append {n : Nat} (hn : 0 < n) {cs : List Char} (hcs : ∀ c ∈ cs, c.isDigit = true) :
    Nat.toDigits 10 n ++ cs = Nat.toDigits 10 (n * 10 ^ cs.length + valueOf cs) := by
  induction cs generalizing n with
  | nil => simp [valueOf]
  | cons c cs ih =>
    obtain ⟨hc, hcs⟩ := List.forall_mem_cons.1 hcs
    obtain ⟨hlt, hchar⟩ := digitChar_toNat hc
    have hone : Nat.toDigits 10 n ++ [c] = Nat.toDigits 10 (10 * n + (c.toNat - 48)) := by
      rw [← Nat.toDigits_append_toDigits (by decide) hn hlt, Nat.toDigits_of_lt_base hlt, hchar]
    rw [List.append_cons, hone, ih (by omega) hcs, valueOf_cons, List.length_cons]
    congr 1
    ring

/-- As many digits with the same value are the same digits. -/
theorem valueOf_inj {cs ds : List Char} (hcs : ∀ c ∈ cs, c.isDigit = true) (hds : ∀ c ∈ ds, c.isDigit = true)
    (hlength : cs.length = ds.length) (h : valueOf cs = valueOf ds) : cs = ds := by
  have hfront := toDigits_append Nat.one_pos hcs
  rw [hlength, h, ← toDigits_append Nat.one_pos hds] at hfront
  exact List.append_cancel_left hfront

/-- The digits of a number without the last ones are those of a quotient. -/
theorem eq_toDigits_of_append {n : Nat} {cs ds : List Char} (hcs : cs ≠ []) (h : cs ++ ds = Nat.toDigits 10 n) :
    cs = Nat.toDigits 10 (n / 10 ^ ds.length) := by
  induction ds using List.reverseRecOn generalizing n with
  | nil => simpa using h
  | append_singleton ds d ih =>
    have hbase : 10 ≤ n := by
      by_contra! hlt
      have hlength := congrArg List.length h
      rw [Nat.toDigits_of_lt_base hlt, List.length_append, List.length_append, List.length_singleton,
        List.length_singleton] at hlength
      have hsome := List.length_pos_iff.2 hcs
      omega
    rw [Nat.toDigits_of_base_le (by decide) hbase, ← List.append_assoc] at h
    rw [ih (List.append_inj_left' h rfl), List.length_append, List.length_singleton, Nat.pow_succ',
      Nat.div_div_eq_div_mul]

end LoadSweep.Decimal
