import LoadSweep.Proofs.Decimal.Recovered

/-! A number has at most one decimal expansion that does not end in a zero, and an expansion is that of one number
only. A positive decimal is written as its expansion, and so is the double nearest to it if it has at most fifteen
digits. -/
namespace LoadSweep.Decimal

open Double

/-- A number has a whole part and behind the point the digits of a fraction, which do not end in a zero. -/
structure Expansion (q : ℚ) (whole : Nat) (fraction : List Char) : Prop where
  digits : ∀ c ∈ fraction, c.isDigit = true
  ends : fraction.getLast? ≠ some '0'
  value : whole + valueOf fraction / 10 ^ fraction.length = q

/-- A whole number and a fraction with a point between them, or the whole number alone if there is no fraction. -/
def joined (whole : Nat) : List Char → List Char
  | [] => Nat.toDigits 10 whole
  | fraction => Nat.toDigits 10 whole ++ '.' :: fraction

/-- The text is the decimal expansion of a number: no sign, no power of ten, no zero in front of the whole part or behind
the fraction, and a point only in front of a fraction. -/
def Expands (q : ℚ) (cs : List Char) : Prop := ∃ whole fraction, Expansion q whole fraction ∧ cs = joined whole fraction

theorem point_notMem {cs : List Char} (hcs : ∀ c ∈ cs, c.isDigit = true) : '.' ∉ cs :=
  fun h => absurd (hcs '.' h) (by decide)

theorem joined_inj {m n : Nat} {ds es : List Char} (hds : ∀ c ∈ ds, c.isDigit = true)
    (h : joined m ds = joined n es) : m = n ∧ ds = es := by
  have hwhole (k : Nat) : '.' ∉ joined k [] := point_notMem (isDigit_toDigits k)
  have hpoint (k : Nat) (c : Char) (cs : List Char) : '.' ∈ joined k (c :: cs) :=
    List.mem_append_right _ List.mem_cons_self
  cases ds with
  | nil =>
    cases es with
    | nil => exact ⟨toDigits_inj.1 h, rfl⟩
    | cons e es => exact absurd (h ▸ hpoint n e es) (hwhole m)
  | cons d ds =>
    cases es with
    | nil => exact absurd (h ▸ hpoint m d ds) (hwhole n)
    | cons e es =>
      obtain ⟨hfront, -, hfraction⟩ := (List.append_cons_inj_of_notMem (hwhole m) (point_notMem hds)).1 h
      exact ⟨toDigits_inj.1 hfront, hfraction⟩

section

variable {p q : ℚ} {m n : Nat} {cs ds es : List Char}

theorem isDigit_padded (hds : ∀ c ∈ ds, c.isDigit = true) (k : Nat) :
    ∀ c ∈ ds ++ List.replicate k '0', c.isDigit = true :=
  List.forall_mem_append.2 ⟨hds, isDigit_zeros k⟩

/-- With zeros behind the fraction a number is a whole number of smaller units. -/
theorem Expansion.padded (h : Expansion q m ds) (k : Nat) :
    q * 10 ^ (ds.length + k) = (10 ^ (ds.length + k) * m + valueOf (ds ++ List.replicate k '0') : ℕ) := by
  rw [← h.value, valueOf_append, valueOf_replicate_zero, List.length_replicate]
  push_cast
  field_simp
  ring

theorem Expansion.unique_of_le (h : Expansion q m ds) (h' : Expansion q n es) (hle : ds.length ≤ es.length) :
    m = n ∧ ds = es := by
  obtain ⟨k, hk⟩ := Nat.exists_eq_add_of_le hle
  have hunits := h.padded k
  have hunits' := h'.padded 0
  have hdigits := isDigit_padded h.digits k
  have hlt := valueOf_lt hdigits
  have hlt' := valueOf_lt h'.digits
  rw [Nat.add_zero, List.replicate_zero, List.append_nil, hk, hunits] at hunits'
  rw [List.length_append, List.length_replicate] at hlt
  rw [hk] at hlt'
  have hpow : 0 < 10 ^ (ds.length + k) := Nat.pow_pos (by norm_num)
  have heq : 10 ^ (ds.length + k) * m + valueOf (ds ++ List.replicate k '0') = 10 ^ (ds.length + k) * n + valueOf es := by
    exact_mod_cast hunits'
  have hwhole : m = n := by
    have hdiv := congrArg (· / 10 ^ (ds.length + k)) heq
    simpa only [Nat.mul_add_div hpow, Nat.div_eq_of_lt hlt, Nat.div_eq_of_lt hlt', Nat.add_zero] using hdiv
  subst hwhole
  have hfraction : ds ++ List.replicate k '0' = es :=
    valueOf_inj hdigits h'.digits (by rw [List.length_append, List.length_replicate, hk]) (Nat.add_left_cancel heq)
  -- the longer of two fractions would end in a zero
  cases k with
  | zero => exact ⟨rfl, by simpa using hfraction⟩
  | succ k =>
    refine absurd ?_ h'.ends
    rw [← hfraction, List.replicate_succ', ← List.append_assoc, List.getLast?_concat]

theorem Expansion.unique (h : Expansion q m ds) (h' : Expansion q n es) : m = n ∧ ds = es := by
  rcases le_total ds.length es.length with hle | hle
  · exact h.unique_of_le h' hle
  · obtain ⟨hwhole, hfraction⟩ := h'.unique_of_le h hle
    exact ⟨hwhole.symm, hfraction.symm⟩

/-- A number has one expansion. -/
theorem Expands.unique (h : Expands q cs) (h' : Expands q ds) : cs = ds := by
  obtain ⟨m, es, hes, rfl⟩ := h
  obtain ⟨n, fs, hfs, rfl⟩ := h'
  obtain ⟨rfl, rfl⟩ := hes.unique hfs
  rfl

/-- An expansion is that of one number. -/
theorem Expands.number_unique (h : Expands p cs) (h' : Expands q cs) : p = q := by
  obtain ⟨m, es, hes, rfl⟩ := h
  obtain ⟨n, fs, hfs, hjoined⟩ := h'
  obtain ⟨rfl, rfl⟩ := joined_inj hes.digits hjoined
  exact hes.value.symm.trans hfs.value

theorem Expands.isDigit_or_point (h : Expands q cs) : ∀ c ∈ cs, c.isDigit = true ∨ c = '.' := by
  obtain ⟨m, es, hes, rfl⟩ := h
  cases es with
  | nil => exact fun c hc => .inl (isDigit_toDigits m c hc)
  | cons e es =>
    refine List.forall_mem_append.2 ⟨fun c hc => .inl (isDigit_toDigits m c hc), ?_⟩
    exact List.forall_mem_cons.2 ⟨.inr rfl, fun c hc => .inl (hes.digits c hc)⟩

theorem expands_toDigits (n : Nat) : Expands n (Nat.toDigits 10 n) :=
  ⟨n, [], ⟨by simp, by simp, by simp [valueOf]⟩, rfl⟩

theorem expands_point (hds : ds ≠ []) (hexpansion : Expansion q m ds) : Expands q (Nat.toDigits 10 m ++ '.' :: ds) := by
  obtain ⟨d, ds, rfl⟩ := List.exists_cons_of_ne_nil hds
  exact ⟨m, d :: ds, hexpansion, rfl⟩

theorem getLast?_append_of_ne_nil (cs : List Char) (hds : ds ≠ []) : (cs ++ ds).getLast? = ds.getLast? := by
  rw [List.getLast?_append, List.getLast?_eq_some_getLast hds, Option.some_or]

theorem expands_place (hn : 0 < n) (ends : (Nat.toDigits 10 n).getLast? ≠ some '0') (point : Int) :
    Expands (n * 10 ^ (point - (Nat.toDigits 10 n).length)) (place (Nat.toDigits 10 n) point) := by
  have hdigits := isDigit_toDigits n
  unfold place
  split_ifs with hsmall hlarge
  · obtain ⟨k, rfl⟩ : ∃ k : ℕ, point = -k := ⟨point.natAbs, by omega⟩
    have hfraction : Expansion (n * 10 ^ (-k - (Nat.toDigits 10 n).length : ℤ)) 0
        (List.replicate k '0' ++ Nat.toDigits 10 n) := by
      refine ⟨List.forall_mem_append.2 ⟨isDigit_zeros k, hdigits⟩, ?_, ?_⟩
      · rwa [getLast?_append_of_ne_nil _ Nat.toDigits_ne_nil]
      · have hexponent : (-k - (Nat.toDigits 10 n).length : ℤ) = -(k + (Nat.toDigits 10 n).length : ℕ) := by omega
        rw [valueOf_append, valueOf_replicate_zero, valueOf_toDigits, List.length_append, List.length_replicate,
          hexponent, zpow_neg, zpow_natCast]
        push_cast
        ring
    have hexpands := expands_point (List.append_ne_nil_of_right_ne_nil _ Nat.toDigits_ne_nil) hfraction
    rwa [neg_neg, Int.toNat_natCast, List.append_assoc]
  · obtain ⟨k, hk⟩ := Nat.exists_eq_add_of_le hlarge
    have hexponent : point - (Nat.toDigits 10 n).length = k := by omega
    have hwhole := toDigits_append hn (isDigit_zeros k)
    rw [valueOf_replicate_zero, List.length_replicate, Nat.add_zero] at hwhole
    rw [hexponent, hk, Nat.add_sub_cancel_left, hwhole, zpow_natCast]
    exact_mod_cast expands_toDigits (n * 10 ^ k)
  · have hsplit := List.take_append_drop point.toNat (Nat.toDigits 10 n)
    have hwhole := eq_toDigits_of_append (by simp [Nat.toDigits_ne_nil]; omega) hsplit
    have hrest : (Nat.toDigits 10 n).drop point.toNat ≠ [] := by
      rw [ne_eq, List.drop_eq_nil_iff]
      omega
    have hexponent : point - (Nat.toDigits 10 n).length = -((Nat.toDigits 10 n).drop point.toNat).length := by
      rw [List.length_drop]
      omega
    have hvalue := congrArg valueOf hsplit
    rw [hwhole, valueOf_append, valueOf_toDigits, valueOf_toDigits] at hvalue
    rw [hwhole, hexponent, zpow_neg, zpow_natCast, ← div_eq_mul_inv]
    refine expands_point hrest ⟨fun c hc => hdigits c (List.mem_of_mem_drop hc), ?_, ?_⟩
    · rwa [← getLast?_append_of_ne_nil _ hrest, hsplit]
    · rw [eq_div_iff (by positivity), add_mul, div_mul_cancel₀ _ (by positivity)]
      exact_mod_cast hvalue

theorem getLast?_dropTrailingZeros (ds : List Char) : (dropTrailingZeros ds).1.getLast? ≠ some '0' := by
  intro h
  rw [dropTrailingZeros, List.getLast?_reverse] at h
  have hhead := List.head?_dropWhile_not (· == '0') ds.reverse
  rw [h] at hhead
  cases hhead

/-- What remains of a number without the zeros at its end is a number. -/
theorem exists_significant {d : Decimal} (hd : 0 < d.digits) : ∃ n, 0 < n ∧ d.significant.1 = Nat.toDigits 10 n := by
  have hsplit := dropTrailingZeros_append (Nat.toDigits 10 d.digits)
  have hvalue := congrArg valueOf hsplit
  rw [valueOf_append, valueOf_replicate_zero, valueOf_toDigits, Nat.add_zero] at hvalue
  have hsome : 0 < valueOf (dropTrailingZeros (Nat.toDigits 10 d.digits)).1 := by
    by_contra! hzero
    rw [Nat.le_zero.1 hzero, Nat.zero_mul] at hvalue
    omega
  refine ⟨_, hsome, ?_⟩
  have hkept := eq_toDigits_of_append (fun hnil => by simp [hnil, valueOf] at hsome) hsplit
  have hsame := congrArg valueOf hkept
  rw [valueOf_toDigits] at hsame
  rwa [← hsame] at hkept

/-- A positive decimal is written as its expansion. -/
theorem expands_positional {d : Decimal} (hd : 0 < d.digits) : Expands d.number d.positional := by
  obtain ⟨n, hn, hsignificant⟩ := exists_significant hd
  have ends := getLast?_dropTrailingZeros (Nat.toDigits 10 d.digits)
  change d.significant.1.getLast? ≠ some '0' at ends
  rw [hsignificant] at ends
  rw [← significant_number, positional, hsignificant, valueOf_toDigits]
  exact expands_place hn ends _

end

/-- The double nearest to a decimal of at most fifteen digits is written as the expansion of the decimal. -/
theorem expands_plain {d : Decimal} {x : Float} (hx : IsRounded d.number x) (hsome : 0 < d.digits)
    (hdigits : d.digits < 10 ^ 15) (hlow : 2 ^ (-1022 : ℤ) ≤ d.number) (hhigh : d.number < overflow) :
    Expands d.number (plain x).toList := by
  have hnormal := le_nearest (onGrid_two_zpow (by norm_num)) hlow
  have hpos := (two_zpow_pos _).trans_le hnormal
  have hshows := hx.shows ((two_zpow_pos _).le.trans hlow) hhigh hpos
  rw [plain, write, String.toList_ofList]
  generalize hv : Double.nearest d.number = v at hnormal hpos hshows
  generalize unpack x = u at hshows
  cases hshows with
  | zero hzero => exact absurd hzero hpos.ne'
  | @finite m e hm digits least full hform =>
    have hfull : 2 ^ 52 ≤ m := by
      rcases full with hfull | rfl
      · exact hfull
      · rw [hform, show (-1022 : ℤ) = 52 + -1074 by norm_num, two_zpow_add, mul_le_mul_iff_left₀ (two_zpow_pos _)]
          at hnormal
        exact_mod_cast hnormal
    have hnumber := number_shortest .upward digits least hfull hsome hdigits (hv.trans hform)
    have hpositive : 0 < (shortest .upward m e).digits := by
      by_contra! hzero
      have hd : 0 < d.number := (two_zpow_pos _).trans_le hlow
      rw [← hnumber, number, Nat.le_zero.1 hzero, Nat.cast_zero, zero_mul] at hd
      exact lt_irrefl _ hd
    have hexpands := expands_positional hpositive
    rwa [hnumber] at hexpands

end LoadSweep.Decimal
