import LoadSweep.Json.Shape
import LoadSweep.Proofs.Double.Order
import LoadSweep.Proofs.Double.Scientific
import LoadSweep.Proofs.Json.Grammar
import LoadSweep.Proofs.Text.Utf8
import Mathlib.Data.Nat.Digits.Defs

/-! What a value denotes is said here without its shape: a text by its characters, a number by its digits, a case by its
name, a list by its items. A shape reads what a value denotes. -/
namespace LoadSweep.Json

open Text (Utf8.encode Utf8.bytesOf Utf8.decode_encode)

/-- The characters that the pieces of a string spell. The bytes of a character are its UTF-8 form. An escaped code unit
is a character, or half of a surrogate pair whose halves follow each other. -/
inductive SpellsChars : List Piece → List Char → Prop
  | nil : SpellsChars [] []
  | bytes {c : Char} {ps : List Piece} {cs : List Char} : SpellsChars ps cs →
      SpellsChars ((String.utf8EncodeChar c).map .byte ++ ps) (c :: cs)
  | char {c : Char} {ps : List Piece} {cs : List Char} : SpellsChars ps cs → SpellsChars (.char c :: ps) (c :: cs)
  | unit {c : Char} {ps : List Piece} {cs : List Char} : SpellsChars ps cs →
      SpellsChars (.unit c.toNat :: ps) (c :: cs)
  | pair {c : Char} {high low : Nat} {ps : List Piece} {cs : List Char} : 0xD800 ≤ high → high ≤ 0xDBFF →
      0xDC00 ≤ low → low ≤ 0xDFFF → c.toNat = 0x10000 + (high - 0xD800) * 0x400 + (low - 0xDC00) → SpellsChars ps cs →
      SpellsChars (.unit high :: .unit low :: ps) (c :: cs)

namespace Quoted

theorem spell_bytes (bs : List UInt8) (ps : List Piece) :
    spell none (bs.map .byte ++ ps) = (spell none ps).map (bs ++ ·) := by
  induction bs with
  | nil => cases h : spell none ps <;> simp [h, Except.map]
  | cons b bs ih =>
    rw [List.map_cons, List.cons_append, spell, ih]
    cases spell none ps <;> rfl

theorem isSurrogate_toNat (c : Char) : isHigh c.toNat = false ∧ isLow c.toNat = false := by
  have hvalid : c.toNat < 0xD800 ∨ 0xDFFF < c.toNat ∧ c.toNat < 0x110000 := c.valid
  simp only [isHigh, isLow, Bool.and_eq_false_iff, decide_eq_false_iff_not]
  omega

theorem spell_of_spellsChars {ps : List Piece} {cs : List Char} (h : SpellsChars ps cs) :
    spell none ps = .ok (Utf8.encode cs) := by
  have hcons (c : Char) {ps : List Piece} {cs : List Char} (ih : spell none ps = .ok (Utf8.encode cs)) :
      (spell none ps).map (Utf8.encode [c] ++ ·) = .ok (Utf8.encode (c :: cs)) := by
    rw [ih, Utf8.encode, Utf8.encode, Utf8.encode, List.flatMap_singleton, List.flatMap_cons]
    rfl
  induction h with
  | nil => rfl
  | bytes _ ih =>
    rw [spell_bytes, ih]
    rfl
  | @char c _ _ _ ih =>
    rw [spell]
    exact hcons c ih
  | @unit c ps cs _ ih =>
    obtain ⟨hhigh, hlow⟩ := isSurrogate_toNat c
    rw [spell.eq_def]
    simp only [hhigh, hlow, Bool.false_eq_true, if_false, Char.ofNat_toNat]
    exact hcons c ih
  | @pair c high low ps cs hhigh hhigh' hlow hlow' hc _ ih =>
    have hboth : isHigh high = true ∧ isLow low = true := by
      simp only [isHigh, isLow, Bool.and_eq_true, decide_eq_true_eq]
      exact ⟨⟨hhigh, hhigh'⟩, hlow, hlow'⟩
    have hcombine : combine high low = c.toNat := hc.symm
    rw [spell.eq_def]
    simp only [hboth, if_true, hcombine, Char.ofNat_toNat]
    exact hcons c ih

theorem text_of_spellsChars {ps : List Piece} {cs : List Char} (h : SpellsChars ps cs) :
    text ⟨ps, none⟩ = .ok (String.ofList cs) := by
  simp only [text, spell_of_spellsChars h, Utf8.decode_encode]

end Quoted

inductive DenotesText : Node → String → Prop
  | string {ps : List Piece} {cs : List Char} : SpellsChars ps cs → DenotesText (.string ⟨ps, none⟩) (String.ofList cs)

/-- The number that decimal digits are. -/
def decimal (ds : List Nat) : Nat := Nat.ofDigits 10 ds.reverse

/-- A whole number without a sign, below `bound`. -/
inductive DenotesNatural (bound : Nat) : Node → Nat → Prop
  | digits {ds : List Nat} : decimal ds < bound → DenotesNatural bound (.number ⟨false, ds, none, none⟩) (decimal ds)

/-- Of the digits `kept ++ left` behind `before`, those in `kept` fit into 64 bits together with `before`, and the next
one does not. -/
structure Keeps (before kept left : List Nat) : Prop where
  fits : decimal (before ++ kept) < UInt64.size
  full : ∀ d ∈ left.head?, UInt64.size ≤ decimal (before ++ kept ++ [d])

/-- The double for `n` and a power of ten: the nearest double to `n`, multiplied or divided by the nearest double to the
power. Below `10 ^ -308` it is divided in steps. -/
inductive Scaled (n : Nat) : Int → Float → Prop
  | up {e : Nat} : e ≤ 308 → (Float.ofNat n * Float.ofScientific 1 false e).isInf = false →
      Scaled n e (Float.ofNat n * Float.ofScientific 1 false e)
  | down {steps e : Nat} : 0 < e → e ≤ 308 → Scaled n (-(308 * steps + e : Nat))
      ((· / Float.ofScientific 1 false 308)^[steps] (Float.ofNat n) / Float.ofScientific 1 false e)
  | zero {e : Int} : n = 0 → 308 < e → Scaled n e 0

/-- The power of ten that is written behind a number. -/
def power : Option (Bool × List Nat) → Int
  | none => 0
  | some (false, ds) => decimal ds
  | some (true, ds) => -decimal ds

/-- The same with a written power of ten besides `e`. From `2 ^ 31` on it is taken for infinite. -/
inductive ScaledBy (n : Nat) (e : Int) (exponent : Option (Bool × List Nat)) : Float → Prop
  | near {x : Float} : (power exponent).natAbs < 2 ^ 31 → Scaled n (e + power exponent) x → ScaledBy n e exponent x
  | far : 2 ^ 31 ≤ (power exponent).natAbs → n = 0 ∨ power exponent < 0 → ScaledBy n e exponent 0

def withSign (negative : Bool) (x : Float) : Float := if negative then -x else x

/-- A number as a double. If it is not a whole one of 64 bits, only the digits that fit into 64 bits count: a digit left
out before the point multiplies by ten, and one kept after it divides by ten. -/
inductive DenotesReal : Node → Float → Prop
  | whole {negative : Bool} {ds : List Nat} : decimal ds < UInt64.size →
      DenotesReal (.number ⟨negative, ds, none, none⟩) (withSign negative (Float.ofNat (decimal ds)))
  | scaled {negative : Bool} {kept left kept' left' : List Nat} {fraction : Option (List Nat)}
      {exponent : Option (Bool × List Nat)} {x : Float} : Keeps [] kept left → fraction.getD [] = kept' ++ left' →
      Keeps kept kept' left' → left ≠ [] ∨ fraction ≠ none ∨ exponent ≠ none →
      ScaledBy (decimal (kept ++ kept')) (left.length - kept'.length) exponent x →
      DenotesReal (.number ⟨negative, kept ++ left, fraction, exponent⟩) (withSign negative x)

theorem decimal_concat (ds : List Nat) (d : Nat) : decimal (ds ++ [d]) = decimal ds * 10 + d := by
  rw [decimal, List.reverse_append, List.reverse_singleton, List.singleton_append, Nat.ofDigits_cons, ← decimal]
  omega

theorem decimal_le_append (ds es : List Nat) : decimal ds ≤ decimal (ds ++ es) := by
  induction es using List.reverseRecOn with
  | nil => rw [List.append_nil]
  | append_singleton es e ih =>
    rw [← List.append_assoc, decimal_concat]
    omega

theorem ten_pow_lt_overflow {e : Nat} (he : e ≤ 308) : (10 : ℚ) ^ e < Double.overflow :=
  calc (10 : ℚ) ^ e ≤ 10 ^ 308 := pow_le_pow_right₀ (by norm_num) he
    _ < (2 ^ 54 - 1 : ℕ) * 2 ^ 970 := by
      have hnat : 10 ^ 308 < (2 ^ 54 - 1) * 2 ^ 970 := by decide +kernel
      have hcast := Nat.cast_lt (α := ℚ).2 hnat
      rwa [Nat.cast_mul, Nat.cast_pow, Nat.cast_pow, Nat.cast_ofNat, Nat.cast_ofNat] at hcast
    _ = Double.overflow := by
      rw [Double.overflow, Double.halfGap]
      norm_num

namespace Numeral

theorem digitsValue_eq (ds : List Nat) : digitsValue ds = decimal ds := by
  induction ds using List.reverseRecOn with
  | nil => rfl
  | append_singleton ds d ih => rw [decimal_concat, ← ih, digitsValue, List.foldl_concat, ← digitsValue]

theorem absorb_of_keeps {before kept left : List Nat} (h : Keeps before kept left) :
    absorb (decimal before) (kept ++ left) = (decimal (before ++ kept), left) := by
  obtain ⟨fits, full⟩ := h
  induction kept generalizing before with
  | nil =>
    rw [List.append_nil] at full ⊢
    cases left with
    | nil => rfl
    | cons d left =>
      have hfull := full d rfl
      rw [decimal_concat] at hfull
      rw [List.nil_append, absorb, if_neg (not_lt.2 hfull)]
  | cons d kept ih =>
    have hsplit : before ++ d :: kept = before ++ [d] ++ kept := by simp
    rw [hsplit] at fits full ⊢
    have hfits : decimal before * 10 + d < UInt64.size := by
      rw [← decimal_concat]
      exact (decimal_le_append _ _).trans_lt fits
    rw [List.cons_append, absorb, if_pos hfits, ← decimal_concat, ih fits full]

theorem isRounded_powerOfTen {e : Nat} (he : e ≤ 308) :
    (powerOfTen e).isFinite = true ∧ Double.value (powerOfTen e) = Double.rounded (10 ^ e) := by
  have hrounded : Double.IsRounded ((1 : Nat) * 10 ^ (e : Int)) (powerOfTen e) := Double.isRounded_nearest 1 e
  rw [Nat.cast_one, one_mul, zpow_natCast] at hrounded
  exact hrounded.inRange (by rw [abs_of_nonneg (by positivity)]; exact ten_pow_lt_overflow he)

theorem powerOfTen_pos {e : Nat} (he : e ≤ 308) :
    (powerOfTen e).isFinite = true ∧ 0 < Double.value (powerOfTen e) := by
  obtain ⟨hfinite, hvalue⟩ := isRounded_powerOfTen he
  have hgrid : Double.OnGrid |(1 : ℚ)| := by
    rw [abs_one]
    exact_mod_cast Double.onGrid_natCast (n := 1) (by norm_num)
  refine ⟨hfinite, zero_lt_one.trans_le ?_⟩
  rw [hvalue]
  exact Double.le_rounded hgrid (one_le_pow₀ (by norm_num))

/-- Once a number has become zero, the steps that are left out would not change it. -/
theorem shrink_eq (x : Float) {e : Nat} (hpos : 0 < e) (he : e ≤ 308) (steps : Nat) :
    shrink x (308 * steps + e) = (· / powerOfTen 308)^[steps] x / powerOfTen e := by
  induction steps generalizing x with
  | zero =>
    rw [Nat.mul_zero, Nat.zero_add, Function.iterate_zero, id_eq, shrink, if_pos he]
  | succ steps ih =>
    have hrest : 308 * (steps + 1) + e - 308 = 308 * steps + e := by omega
    rw [shrink, if_neg (by omega), hrest]
    split_ifs with hzero
    · have hstay {e : Nat} (he : e ≤ 308) : x / powerOfTen e = x :=
        Double.div_of_beq_zero hzero (powerOfTen_pos he).1 (powerOfTen_pos he).2
      have hsteps : (· / powerOfTen 308)^[steps + 1] x = x :=
        Function.iterate_fixed (f := (· / powerOfTen 308)) (hstay le_rfl) (steps + 1)
      rw [hsteps, hstay he]
    · exact ih _

theorem scale_of_scaled {n : Nat} {e : Int} {x : Float} (h : Scaled n e x) : scale n e = .ok x := by
  cases h with
  | @up e he hfinite =>
    have hproduct : (Float.ofNat n * powerOfTen e).isInf = false := hfinite
    rw [scale, if_neg (by omega), if_pos (by omega)]
    simp only [Int.toNat_natCast, hproduct, Bool.false_eq_true, if_false]
    rfl
  | @down steps e hpos he =>
    rw [scale, if_pos (by omega), Int.natAbs_neg, Int.natAbs_natCast, shrink_eq _ hpos he]
    rfl
  | zero hn he => rw [scale, if_neg (by omega), if_neg (by omega), if_pos hn]

theorem scaleBy_some (n : Nat) (e : Int) (negative : Bool) (ds : List Nat) :
    scaleBy n e (some (negative, ds)) =
      if (digitsValue ds : Int) < Nat.pow 2 31 then
        scale n (if negative then e - digitsValue ds else e + digitsValue ds)
      else if n = 0 ∨ negative then .ok 0
      else .error .malformed := rfl

theorem scaleBy_of_scaledBy {n : Nat} {e : Int} {exponent : Option (Bool × List Nat)} {x : Float}
    (h : ScaledBy n e exponent x) : scaleBy n e exponent = .ok x := by
  rcases exponent with _ | ⟨negative, ds⟩
  · cases h with
    | near _ h =>
      rw [power, add_zero] at h
      exact scale_of_scaled h
    | far hfar => simp [power] at hfar
  have hpower : (power (some (negative, ds))).natAbs = decimal ds := by
    cases negative <;> simp [power]
  have hsum : e + power (some (negative, ds)) = if negative then e - decimal ds else e + decimal ds := by
    cases negative <;> rfl
  have hbound : ((digitsValue ds : Int) < Nat.pow 2 31) ↔ decimal ds < 2 ^ 31 := by
    rw [digitsValue_eq]
    exact Int.ofNat_lt
  cases h with
  | near hnear h =>
    rw [hpower] at hnear
    rw [hsum] at h
    rw [scaleBy_some, if_pos (hbound.2 hnear), digitsValue_eq]
    exact scale_of_scaled h
  | far hfar hsmall =>
    rw [hpower] at hfar
    have hbeyond : ¬(digitsValue ds : Int) < Nat.pow 2 31 := mt hbound.1 (not_lt.2 hfar)
    have hzero : n = 0 ∨ negative = true := hsmall.imp_right fun hlt => by
      cases negative
      · exact absurd hlt (not_lt.2 (Int.natCast_nonneg _))
      · rfl
    rw [scaleBy_some, if_neg hbeyond, if_pos hzero]

theorem value_whole {negative : Bool} {ds : List Nat} (h : decimal ds < UInt64.size) :
    value ⟨negative, ds, none, none⟩ =
      if !negative then .ok (.integer (decimal ds))
      else if decimal ds = 0 ∨ Nat.pow 2 63 < decimal ds then .ok (.real (-Float.ofNat (decimal ds)))
      else .ok (.integer (-decimal ds)) := by
  have habsorb : absorb 0 ds = (decimal ds, []) := by
    have hkeeps : Keeps [] ds [] := ⟨h, by simp⟩
    have hempty : decimal [] = 0 := rfl
    simpa only [List.append_nil, List.nil_append, hempty] using absorb_of_keeps hkeeps
  simp only [value, habsorb, Option.isNone_none, List.isEmpty_nil, and_self, if_true]

end Numeral

/-- A shape reads what a value denotes. -/
def Shape.Reads {α : Type} (shape : Shape α) (denotes : Node → α → Prop) : Prop :=
  ∀ n a, n.skim = none → denotes n a → shape n = .ok a

theorem reads_text (expected : String) : (text expected).Reads DenotesText := by
  rintro _ _ - ⟨h⟩
  rw [text, Quoted.text_of_spellsChars h]
  rfl

theorem DenotesNatural.value {bound : Nat} (hbound : bound ≤ UInt64.size) {n : Node} {k : Nat}
    (h : DenotesNatural bound n k) : k < bound ∧ ∃ t, n = .number t ∧ t.value = .ok (.integer k) := by
  obtain ⟨h⟩ := h
  exact ⟨h, _, rfl, Numeral.value_whole (h.trans_le hbound)⟩

theorem reads_natural (expected : String) {bound : Nat} (hbound : bound ≤ UInt64.size) :
    (natural expected bound).Reads (DenotesNatural bound) := by
  intro n k _ h
  obtain ⟨hk, t, rfl, hvalue⟩ := h.value hbound
  simp only [natural, hvalue, asked, ok_bind, Int.natCast_nonneg, Nat.cast_lt, hk, and_self, if_true]
  rfl

theorem reads_real : real.Reads DenotesReal := by
  rintro _ _ - h
  cases h with
  | @whole negative ds h =>
    rw [real, Numeral.value_whole h]
    cases negative with
    | false =>
      have hsign : ¬(decimal ds : Int) < 0 := not_lt.2 (Int.natCast_nonneg _)
      simp only [Bool.not_false, if_true, asked, ok_bind, hsign, if_false, Int.natAbs_natCast]
      rfl
    | true =>
      simp only [Bool.not_true, Bool.false_eq_true, if_false]
      split_ifs with hreal
      · rfl
      · have hsign : -(decimal ds : Int) < 0 := by omega
        simp only [asked, ok_bind, hsign, if_true, Int.natAbs_neg, Int.natAbs_natCast]
        rfl
  | @scaled negative kept left kept' left' fraction exponent x hwhole hfraction hkeeps hsome hscaled =>
    have habsorb := Numeral.absorb_of_keeps hwhole
    have habsorb' := Numeral.absorb_of_keeps hkeeps
    have hlength : (kept' ++ left').length - left'.length = kept'.length := by simp
    have hwhole' : ¬(fraction.isNone = true ∧ exponent.isNone = true ∧ left.isEmpty = true) := by
      rw [Option.isNone_iff_eq_none, Option.isNone_iff_eq_none, List.isEmpty_iff]
      tauto
    have hempty : decimal [] = 0 := rfl
    rw [hempty, List.nil_append] at habsorb
    simp only [real, Numeral.value, habsorb, if_neg hwhole', hfraction, habsorb', hlength,
      Numeral.scaleBy_of_scaledBy hscaled]
    rfl

theorem value_powerOfTen {e : Nat} (he : e ≤ 22) :
    (Numeral.powerOfTen e).isFinite = true ∧ Double.value (Numeral.powerOfTen e) = 10 ^ e := by
  have hdigits : 5 ^ e < 2 ^ 53 := (Nat.pow_le_pow_right (by norm_num) he).trans_lt (by norm_num)
  have hgrid : Double.OnGrid |(10 : ℚ) ^ e| := by
    refine ⟨5 ^ e, e, hdigits, by omega, ?_⟩
    rw [abs_of_nonneg (by positivity), zpow_natCast, Nat.cast_pow, ← mul_pow]
    norm_num
  obtain ⟨hfinite, hvalue⟩ := Numeral.isRounded_powerOfTen (he.trans (by norm_num))
  exact ⟨hfinite, hvalue.trans (Double.rounded_of_onGrid hgrid)⟩

theorem exists_scaled {n : Nat} (hn : n < 2 ^ 53) {e : Int} (he : e.natAbs ≤ 22) :
    ∃ x, Scaled n e x ∧ Double.IsRounded (n * 10 ^ e) x := by
  obtain ⟨hfinite, hvalue⟩ := Double.value_ofNat hn
  cases e with
  | ofNat k =>
    obtain ⟨hten, htenvalue⟩ := value_powerOfTen (e := k) (by simpa using he)
    have hproduct := Double.isRounded_mul hfinite hten
    rw [hvalue, htenvalue] at hproduct
    have hrange : |(n : ℚ) * 10 ^ k| < Double.overflow := by
      have hn' : (n : ℚ) ≤ 10 ^ 16 := by exact_mod_cast hn.le.trans (by norm_num)
      have hk : (10 : ℚ) ^ k ≤ 10 ^ 22 := pow_le_pow_right₀ (by norm_num) (by simpa using he)
      rw [abs_of_nonneg (by positivity)]
      calc (n : ℚ) * 10 ^ k ≤ 10 ^ 16 * 10 ^ 22 := mul_le_mul hn' hk (by positivity) (by positivity)
        _ = 10 ^ 38 := by norm_num
        _ < Double.overflow := ten_pow_lt_overflow (by norm_num)
    have hinf := Double.isInf_of_isFinite (hproduct.inRange hrange).1
    refine ⟨_, .up (by simpa using he.trans (by norm_num)) hinf, ?_⟩
    rw [Int.ofNat_eq_natCast, zpow_natCast]
    exact hproduct
  | negSucc k =>
    have hk : k + 1 ≤ 22 := he
    obtain ⟨hten, htenvalue⟩ := value_powerOfTen hk
    have hquotient := Double.isRounded_div hfinite hten (by rw [htenvalue]; positivity)
    rw [hvalue, htenvalue] at hquotient
    have hdown : Scaled n (-(308 * 0 + (k + 1) : Nat)) _ := .down (by omega) (by omega)
    rw [Nat.mul_zero, Nat.zero_add] at hdown
    refine ⟨_, hdown, ?_⟩
    rw [zpow_negSucc, ← div_eq_mul_inv]
    exact hquotient

/-- A decimal of few digits and a small power of ten is read as the nearest double. -/
theorem real_of_short {whole fraction : List Nat} {exponent : Option (Bool × List Nat)}
    (hdigits : decimal (whole ++ fraction) < 2 ^ 53) (hexponent : (power exponent).natAbs < 2 ^ 31)
    (hpower : (power exponent - fraction.length).natAbs ≤ 22) :
    ∃ x, real (.number ⟨false, whole, some fraction, exponent⟩) = .ok x ∧
      Double.IsRounded (decimal (whole ++ fraction) * 10 ^ (power exponent - fraction.length)) x := by
  obtain ⟨x, hscaled, hrounded⟩ := exists_scaled hdigits hpower
  have hfits : decimal (whole ++ fraction) < UInt64.size := hdigits.trans (by decide)
  have hwhole : Keeps [] whole [] := ⟨(decimal_le_append _ _).trans_lt hfits, by simp⟩
  have hfraction : Keeps whole fraction [] := ⟨hfits, by simp⟩
  have hplaces : power exponent - fraction.length = (0 : Nat) - fraction.length + power exponent := by omega
  rw [hplaces] at hscaled
  have hall : (some fraction).getD [] = fraction ++ [] := (List.append_nil fraction).symm
  have hdenotes : DenotesReal (.number ⟨false, whole ++ [], some fraction, exponent⟩) _ :=
    .scaled hwhole hall hfraction (.inr (.inl (Option.some_ne_none _))) (.near hexponent hscaled)
  rw [List.append_nil] at hdenotes
  exact ⟨x, reads_real _ _ rfl hdenotes, hrounded⟩

/-- A value, or `null` for none. -/
inductive DenotesOptional {α : Type} (denotes : Node → α → Prop) : Node → Option α → Prop
  | null : DenotesOptional denotes (.null none) none
  | some {n : Node} {a : α} : denotes n a → DenotesOptional denotes n (some a)

/-- A case without content: its name, or an object that gives its name nothing. A case may have several names. -/
inductive DenotesCase {α : Type} (names : List (String × α)) : Node → α → Prop
  | name {q : Quoted} {name : String} {a : α} : DenotesText (.string q) name → (name, a) ∈ names →
      DenotesCase names (.string q) a
  | member {key : Quoted} {name : String} {a : α} : DenotesText (.string key) name → (name, a) ∈ names →
      DenotesCase names (.object [(key, .null none)] .closed) a

inductive DenotesList {α : Type} (denotes : Node → α → Prop) : Node → List α → Prop
  | array {ns : List Node} {as : List α} : List.Forall₂ denotes ns as → DenotesList denotes (.array ns none) as

theorem text_of_denotesText {q : Quoted} {s : String} (h : DenotesText (.string q) s) : q.text = .ok s := by
  cases h with
  | string h => exact Quoted.text_of_spellsChars h

theorem spellsDigits_bytes {bs : List UInt8} (hdigits : bs.all isDigit = true) (hsome : bs ≠ []) :
    SpellsDigits bs (bs.map (·.toNat - 48)) := ⟨hsome, List.all_eq_true.1 hdigits, rfl⟩

/-- A number that is spelled by digits only. -/
theorem spells_whole {bs : List UInt8} (hdigits : bs.all isDigit = true) (hsome : bs ≠ [])
    (hzero : bs.head? ≠ some 48) : Spells bs (.value (.number ⟨false, bs.map (·.toNat - 48), none, none⟩)) := by
  have hds := spellsDigits_bytes hdigits hsome
  obtain ⟨b, bs, rfl⟩ := List.exists_cons_of_ne_nil hsome
  have hhead : ((b :: bs).map (·.toNat - 48)).head? ≠ some 0 := by
    have hb : 48 ≤ b.toNat ∧ b.toNat ≤ 57 := by
      simpa [isDigit, UInt8.le_iff_toNat_le] using hds.digits b List.mem_cons_self
    have hne : b.toNat ≠ 48 := fun h => hzero (congrArg some (UInt8.toNat_inj.1 h))
    simp only [List.map_cons, List.head?_cons, ne_eq, Option.some.injEq]
    omega
  have hnumeral : SpellsNumeral false _ _ := .mk hds (fun h => absurd h hhead) .none .none
  rw [List.append_nil, List.append_nil] at hnumeral
  exact .positive hnumeral

/-- A text whose bytes stand for themselves. -/
theorem denotesText_bytes (s : String) : DenotesText (.string ⟨(Utf8.bytesOf s).map .byte, none⟩) s := by
  have hchars (cs : List Char) : SpellsChars ((Utf8.encode cs).map .byte) cs := by
    induction cs with
    | nil => exact .nil
    | cons c cs ih =>
      rw [Utf8.encode, List.flatMap_cons, List.map_append, ← Utf8.encode]
      exact .bytes ih
  have hs := DenotesText.string (hchars s.toList)
  rwa [String.ofList_toList] at hs

theorem skim_items {ns : List Node} (h : Node.skimItems ns = none) : ∀ n ∈ ns, n.skim = none := by
  induction ns with
  | nil => simp
  | cons n ns ih =>
    simp only [Node.skimItems, Option.or_eq_none_iff] at h
    exact List.forall_mem_cons.2 ⟨h.1, ih h.2⟩

section

variable {α : Type} {shape : Shape α} {denotes : Node → α → Prop}

theorem reads_optional (reads : shape.Reads denotes) (hnull : ∀ a, ¬denotes (.null none) a) :
    (optional shape).Reads (DenotesOptional denotes) := by
  intro n _ hskim h
  cases h with
  | null => rfl
  | @some _ a h =>
    have hread := reads n a hskim h
    cases n with
    | null fault =>
      obtain rfl : fault = none := hskim
      exact absurd h (hnull a)
    | _ =>
      rw [optional, hread]
      · rfl
      all_goals nofun

theorem reads_list (reads : shape.Reads denotes) : (list shape).Reads (DenotesList denotes) := by
  rintro _ as hskim ⟨h⟩
  simp only [Node.skim, Option.or_eq_none_iff] at hskim
  replace hskim := skim_items hskim.1
  rw [list]
  induction h with
  | nil => rfl
  | @cons n a ns as hn _ ih =>
    obtain ⟨hskim, hrest⟩ := List.forall_mem_cons.1 hskim
    rw [items, reads n a hskim hn, ok_bind, ih hrest]
    rfl

theorem reads_case {cases : List (String × Case α)} {names : List (String × α)}
    (hfind : ∀ p ∈ names, findCase cases p.1 = .ok (.bare p.2)) : (oneOf cases).Reads (DenotesCase names) := by
  rintro _ a - h
  cases h with
  | name hname hmem =>
    rw [oneOf, text_of_denotesText hname]
    simp only [asked, ok_bind, hfind _ hmem]
    rfl
  | member hname hmem =>
    rw [oneOf, text_of_denotesText hname]
    simp only [asked, ok_bind, hfind _ hmem]
    rfl

end

end LoadSweep.Json
