import LoadSweep.Proofs.Decimal.Shortest
import LoadSweep.Proofs.Decimal.Whole
import LoadSweep.Proofs.Double.Order

/-! Digits with a point among them stand for a decimal, and reading them gives the double nearest to it. So the
shortest decimal of a double is read back as that double. -/
namespace LoadSweep.Decimal

open Double
open Float.Model (UnpackedFloat)
open Float.Model.UnpackedFloat (Sign pack unpack)

/-- What is dropped from the end of digits are zeros. -/
theorem dropTrailingZeros_append (ds : List Char) :
    (dropTrailingZeros ds).1 ++ List.replicate (dropTrailingZeros ds).2 '0' = ds := by
  have hsplit := List.takeWhile_append_dropWhile (p := (· == '0')) (l := ds.reverse)
  have hzeros : ds.reverse.takeWhile (· == '0') =
      List.replicate (ds.reverse.takeWhile (· == '0')).length '0' :=
    List.eq_replicate_of_mem fun c hc => by simpa using List.mem_takeWhile_imp hc
  have hlength := congrArg List.length hsplit
  rw [List.length_append, List.length_reverse] at hlength
  have hcount : (dropTrailingZeros ds).2 = (ds.reverse.takeWhile (· == '0')).length := by
    simp only [dropTrailingZeros, List.length_reverse]
    omega
  rw [hcount, dropTrailingZeros, ← List.reverse_replicate, ← hzeros, ← List.reverse_append, hsplit, List.reverse_reverse]

/-- Text, with a digit to begin with, that is read as the double nearest to a number. -/
def Denotes (cs : List Char) (q : ℚ) : Prop :=
  (∃ c ds, cs = c :: ds ∧ c.isDigit = true) ∧ ∃ n e, unsigned? cs = some (nearest n e) ∧ (n : ℚ) * 10 ^ e = q

theorem denotes_digits {ds : List Char} (hsome : ds ≠ []) (hds : ∀ c ∈ ds, c.isDigit = true) :
    Denotes ds (valueOf ds) := by
  refine ⟨?_, valueOf ds, 0, unsigned?_digits hsome hds, by simp⟩
  obtain ⟨c, cs, rfl⟩ := List.exists_cons_of_ne_nil hsome
  exact ⟨c, cs, rfl, hds c List.mem_cons_self⟩

theorem denotes_point {whole fraction : List Char} (hsome : whole ≠ []) (hwhole : ∀ c ∈ whole, c.isDigit = true)
    (hfraction : ∀ c ∈ fraction, c.isDigit = true) :
    Denotes (whole ++ '.' :: fraction) (valueOf (whole ++ fraction) * 10 ^ (-fraction.length : ℤ)) := by
  refine ⟨?_, valueOf (whole ++ fraction), -fraction.length, ?_, rfl⟩
  · obtain ⟨c, cs, rfl⟩ := List.exists_cons_of_ne_nil hsome
    exact ⟨c, cs ++ '.' :: fraction, rfl, hwhole c List.mem_cons_self⟩
  · have htake : (whole ++ '.' :: fraction).takeWhile Char.isDigit = whole := by
      rw [List.takeWhile_append_of_pos hwhole]
      simp
    have hdrop : (whole ++ '.' :: fraction).dropWhile Char.isDigit = '.' :: fraction := by
      rw [List.dropWhile_append_of_pos hwhole]
      simp
    have htake' : fraction.takeWhile Char.isDigit = fraction := List.takeWhile_eq_self_iff.2 hfraction
    have hdrop' : fraction.dropWhile Char.isDigit = [] := List.dropWhile_eq_nil_iff.2 hfraction
    simp [unsigned?, htake, hdrop, htake', hdrop', hsome, exponent?]

theorem denotes_place {ds : List Char} (hds : ∀ c ∈ ds, c.isDigit = true) (point : Int) :
    Denotes (place ds point) (valueOf ds * 10 ^ (point - ds.length)) := by
  unfold place
  split_ifs with hsmall hlarge
  · obtain ⟨k, rfl⟩ : ∃ k : ℕ, point = -k := ⟨point.natAbs, by omega⟩
    have hdigits : ∀ c ∈ List.replicate k '0' ++ ds, c.isDigit = true :=
      List.forall_mem_append.2 ⟨isDigit_zeros k, hds⟩
    have h := denotes_point (List.cons_ne_nil '0' []) (by simp) hdigits
    have hvalue : valueOf (['0'] ++ (List.replicate k '0' ++ ds)) = valueOf ds := by
      have hzero : valueOf ['0'] = 0 := rfl
      rw [valueOf_append, valueOf_append, valueOf_replicate_zero, hzero, Nat.zero_mul, Nat.zero_mul, Nat.zero_add,
        Nat.zero_add]
    have hlength : (-(List.replicate k '0' ++ ds).length : ℤ) = -k - ds.length := by
      rw [List.length_append, List.length_replicate]
      omega
    rw [hvalue, hlength] at h
    rwa [neg_neg, Int.toNat_natCast, List.append_assoc]
  · obtain ⟨k, hk⟩ := Nat.exists_eq_add_of_le hlarge
    have hsome : ds ++ List.replicate (point.toNat - ds.length) '0' ≠ [] := by
      intro hnil
      have hlength := congrArg List.length hnil
      rw [List.length_append, List.length_replicate, List.length_nil] at hlength
      omega
    have h := denotes_digits hsome (List.forall_mem_append.2 ⟨hds, isDigit_zeros _⟩)
    have hpoint : point - ds.length = k := by omega
    have hvalue : ((valueOf (ds ++ List.replicate (point.toNat - ds.length) '0') : ℕ) : ℚ) =
        valueOf ds * 10 ^ (point - ds.length) := by
      rw [valueOf_append, valueOf_replicate_zero, List.length_replicate, hpoint, zpow_natCast, hk, Nat.add_sub_cancel_left]
      push_cast
      ring
    rwa [hvalue] at h
  · have hsome : ds.take point.toNat ≠ [] := by
      intro hnil
      have hlength := congrArg List.length hnil
      rw [List.length_take, List.length_nil] at hlength
      omega
    have hfraction : ∀ c ∈ ds.drop point.toNat, c.isDigit = true := fun c hc => hds c (List.mem_of_mem_drop hc)
    have h := denotes_point hsome (fun c hc => hds c (List.mem_of_mem_take hc)) hfraction
    have hlength : (-(ds.drop point.toNat).length : ℤ) = point - ds.length := by
      rw [List.length_drop]
      omega
    rwa [List.take_append_drop, hlength] at h

theorem isDigit_of_mem_significant {d : Decimal} {c : Char} (hc : c ∈ d.significant.1) : c.isDigit = true := by
  have hmem : c ∈ Nat.toDigits 10 d.digits := by
    rw [← dropTrailingZeros_append (Nat.toDigits 10 d.digits)]
    exact List.mem_append_left _ hc
  exact isDigit_toDigits _ c hmem

theorem significant_number (d : Decimal) :
    (valueOf d.significant.1 : ℚ) * 10 ^ (d.significant.2 - d.significant.1.length) = d.number := by
  have hdropped := dropTrailingZeros_append (Nat.toDigits 10 d.digits)
  have hvalue := congrArg valueOf hdropped
  have hlength := congrArg List.length hdropped
  rw [valueOf_append, valueOf_replicate_zero, List.length_replicate, valueOf_toDigits, Nat.add_zero] at hvalue
  rw [List.length_append, List.length_replicate] at hlength
  have hdigits : (d.digits : ℚ) = (valueOf d.significant.1 : ℚ) * 10 ^ ((dropTrailingZeros (Nat.toDigits 10 d.digits)).2 : ℤ) := by
    rw [zpow_natCast]
    exact_mod_cast hvalue.symm
  have hpoint : d.significant.2 - d.significant.1.length = (dropTrailingZeros (Nat.toDigits 10 d.digits)).2 + d.exponent := by
    simp only [significant]
    omega
  rw [number, hdigits, hpoint, mul_assoc, ← zpow_add₀ (by norm_num)]

theorem denotes_positional (d : Decimal) : Denotes d.positional d.number := by
  rw [← significant_number]
  exact denotes_place (fun c hc => isDigit_of_mem_significant hc) _

/-- A number with the sign that its text begins with. -/
def withSign (s : Sign) (y : Float) : Float :=
  match s with
  | .negative => -y
  | .positive => y

theorem Denotes.read? {cs : List Char} {q : ℚ} (h : Denotes cs q) (s : Sign) :
    ∃ y, read? (signText s ++ cs) = some (withSign s y) ∧ IsRounded q y := by
  obtain ⟨⟨c, ds, rfl, hc⟩, n, e, hread, rfl⟩ := h
  refine ⟨nearest n e, ?_, isRounded_nearest n e⟩
  cases s with
  | negative => simp [Decimal.read?, signText, splitSign, special?_of_isDigit hc, hread, withSign]
  | positive => simp [Decimal.read?, signText, splitSign_of_isDigit hc, special?_of_isDigit hc, hread, withSign]

theorem shows_withSign (s : Sign) {v : ℚ} {y : Float} (h : Shows .positive v (Decimal.unpack y)) (hv : v < limit) :
    Shows s v (Decimal.unpack (withSign s y)) := by
  cases s with
  | positive => exact h
  | negative =>
    have hneg := h.neg
    change Shows .negative v (UnpackedFloat.unpack .binary64 (UnpackedFloat.pack .binary64 (Decimal.unpack y).neg))
    rw [hneg.unpack_pack hv]
    exact hneg

theorem Denotes.nonneg {cs : List Char} {q : ℚ} (h : Denotes cs q) : 0 ≤ q := by
  obtain ⟨-, n, e, -, rfl⟩ := h
  exact mul_nonneg (Nat.cast_nonneg n) (zpow_pos (by norm_num) e).le

/-- A number that is rounded to the magnitude of a double is read as that double. -/
theorem Denotes.read?_of_shows {cs : List Char} {q v : ℚ} {s : Sign} {x : Float} (h : Denotes cs q)
    (hx : Shows s v (Decimal.unpack x)) (hlimit : v < limit) (hv : 0 < v) (hq : Double.nearest q = v) :
    Decimal.read? (signText s ++ cs) = some x := by
  obtain ⟨y, hread, hy⟩ := h.read? s
  have hrange : q < overflow := (nearest_lt_limit_iff h.nonneg).1 (hq.symm ▸ hlimit)
  have hpositive := hy.shows h.nonneg hrange (hq.symm ▸ hv)
  rw [hq] at hpositive
  rw [hread, (shows_withSign s hpositive hlimit).eq hx]

/-- The shortest decimal of a double is read back as the double. -/
theorem read?_plain {x : Float} (hx : x.isFinite = true) : read? (plain x).toList = some x := by
  obtain ⟨s, v, hshows, hlimit⟩ := exists_shows hx
  have hform := hshows
  rw [plain, write, String.toList_ofList]
  generalize unpack x = u at hform ⊢
  cases hform with
  | zero hv =>
    have hzero : Shows .positive 0 (Decimal.unpack 0) := .zero rfl
    have hread : read? (signText s ++ ['0']) = some (withSign s 0) := by
      cases s <;> rfl
    rw [hread, (shows_withSign s hzero limit_pos).eq (hv ▸ hshows)]
  | @finite m e hm digits least full hv =>
    have hpos : 0 < v := hv ▸ mul_pos (by exact_mod_cast hm) (two_zpow_pos _)
    exact (denotes_positional _).read?_of_shows hshows hlimit hpos
      ((nearest_shortest .upward hm digits least full).trans hv.symm)

end LoadSweep.Decimal
