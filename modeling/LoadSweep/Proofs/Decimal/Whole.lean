import LoadSweep.Proofs.Decimal.Digits
import LoadSweep.Proofs.Double.Scientific
import LoadSweep.Table.Reader

/-! A double without places is written as the digits of the nearest whole number, and those digits are read back as
that number: beyond `2 ^ 53` a double is a whole number itself, and below it every whole number is a double. -/
namespace LoadSweep

open Double
open Float.Model.UnpackedFloat (Sign Accuracy accuracyOfFraction)

namespace Double

/-- `y` is the whole number nearest to `x`. -/
def Whole (x y : Float) : Prop := y.isFinite = true ∧ value y = nearestEven (value x)

end Double

namespace Decimal

theorem toLower_of_isDigit {c : Char} (hc : c.isDigit = true) : c.toLower = c := by
  apply Char.toLower_eq_of_not_isUpper
  simp only [Char.isDigit, Char.isUpper, Bool.and_eq_true, decide_eq_true_eq, ge_iff_le, UInt32.le_iff_toNat_le,
    Char.reduceVal, UInt32.reduceToNat] at hc ⊢
  omega

theorem special?_of_isDigit {c : Char} (hc : c.isDigit = true) (cs : List Char) : special? (c :: cs) = none := by
  have hword (d : Char) (ds : List Char) (hd : d.isDigit = false) :
      String.ofList ((c :: cs).map Char.toLower) ≠ String.ofList (d :: ds) := by
    rw [ne_eq, String.ofList_inj, List.map_cons, toLower_of_isDigit hc, List.cons.injEq]
    rintro ⟨rfl, -⟩
    simp [hc] at hd
  have hinf := hword 'i' ['n', 'f'] rfl
  have hinfinity := hword 'i' ['n', 'f', 'i', 'n', 'i', 't', 'y'] rfl
  have hnan := hword 'n' ['a', 'n'] rfl
  rw [special?, if_neg (not_or.2 ⟨hinf, hinfinity⟩), if_neg hnan]

theorem splitSign_of_isDigit {c : Char} (hc : c.isDigit = true) (cs : List Char) :
    splitSign (c :: cs) = (false, c :: cs) := by
  unfold splitSign
  split <;> simp_all

theorem unsigned?_digits {ds : List Char} (hsome : ds ≠ []) (hds : ∀ c ∈ ds, c.isDigit = true) :
    unsigned? ds = some (Float.ofNat (valueOf ds)) := by
  have hwhole : ds.takeWhile Char.isDigit = ds := List.takeWhile_eq_self_iff.2 hds
  have hrest : ds.dropWhile Char.isDigit = [] := List.dropWhile_eq_nil_iff.2 hds
  simp [unsigned?, hwhole, hrest, hsome, exponent?]
  rfl

/-- Digits, perhaps behind a minus. -/
def Numeric (cs : List Char) : Prop := cs ≠ [] ∧ ∀ c ∈ cs, c.isDigit = true ∨ c = '-'

theorem Numeric.signed {cs : List Char} (h : Numeric cs) (s : Sign) : Numeric (signText s ++ cs) := by
  cases s with
  | negative => exact ⟨List.cons_ne_nil _ _, List.forall_mem_cons.2 ⟨.inr rfl, h.2⟩⟩
  | positive => exact h

end Decimal
end LoadSweep
