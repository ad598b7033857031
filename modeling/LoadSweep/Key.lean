import LoadSweep.Decimal.Written

/-! The values of the swept parameter, by which rows are grouped. A key is a bit pattern of a double; keys are equal
only if all bits are, and ordered by number: negative before positive, `-0.0` just below `0.0`, infinities beyond all
finite numbers and patterns without a number beyond the infinities of their sign. -/
namespace LoadSweep

structure Key where
  bits : UInt64
  deriving DecidableEq, Repr

namespace Key

def ofFloat (x : Float) : Key := ⟨x.toBits⟩

def toFloat (k : Key) : Float := Float.ofBits k.bits

/-- The place of a key among all keys. Positive patterns rise with their bits, negative ones fall. -/
def rank (k : Key) : Nat :=
  if k.bits.toNat < UInt64.size / 2 then k.bits.toNat + UInt64.size / 2 else UInt64.size - 1 - k.bits.toNat

theorem rank_injective {a b : Key} (h : a.rank = b.rank) : a = b := by
  have ha := a.bits.toNat_lt
  have hb := b.bits.toNat_lt
  have : a.bits.toNat = b.bits.toNat := by
    simp only [rank, UInt64.size] at h
    split at h <;> split at h <;> omega
  cases a; cases b
  exact congrArg Key.mk (UInt64.toNat_inj.1 this)

instance : LT Key := ⟨fun a b => a.rank < b.rank⟩
instance : LE Key := ⟨fun a b => a.rank ≤ b.rank⟩

instance (a b : Key) : Decidable (a < b) := inferInstanceAs (Decidable (a.rank < b.rank))
instance (a b : Key) : Decidable (a ≤ b) := inferInstanceAs (Decidable (a.rank ≤ b.rank))

theorem lt_def {a b : Key} : a < b ↔ a.rank < b.rank := Iff.rfl

theorem lt_irrefl (a : Key) : ¬a < a := Nat.lt_irrefl a.rank

theorem lt_trans {a b c : Key} (hab : a < b) (hbc : b < c) : a < c := Nat.lt_trans hab hbc

theorem lt_trichotomy (a b : Key) : a < b ∨ a = b ∨ b < a := by
  rcases Nat.lt_trichotomy a.rank b.rank with h | h | h
  · exact .inl h
  · exact .inr (.inl (rank_injective h))
  · exact .inr (.inr h)

instance : Ord Key := ⟨fun a b => compare a.rank b.rank⟩

/-- Gives a key to a hash function: all its bits, as one word. -/
def feed {σ : Type} (k : Key) (write : σ → UInt64 → σ) (state : σ) : σ := write state k.bits

/-- The whole number that a key is, if it is one below `10 ^ 15` in magnitude. -/
def whole? (k : Key) : Option Int :=
  match Decimal.unpack k.toFloat with
  | .zero _ => some 0
  | .finite s m e _ =>
    let n := m * Nat.pow 2 e.toNat / Nat.pow 2 (-e).toNat
    if n * Nat.pow 2 (-e).toNat = m * Nat.pow 2 e.toNat ∧ n < Nat.pow 10 15 then some (s.apply n) else none
  | _ => none

/-- A whole number without a point, and without the minus of `-0.0`; other keys in their shortest form. -/
def text (k : Key) : String :=
  match k.whole? with
  | some n => toString n
  | none => Decimal.plain k.toFloat

end Key
end LoadSweep
