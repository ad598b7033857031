import LoadSweep.Proofs.Chart.Warnings
import Mathlib.Data.List.Forall2

/-! A warning is a set difference both ways between the keys of the first curve and those of a later one.
`among_eq_iff` says which curves have a warning, and that the keys it calls missing and extra are the only ones that
turn the keys of the first curve into those of the later. -/
namespace LoadSweep

/-- The keys at which two curves have values are the same. -/
def Curve.SameKeys (a b : Curve) : Prop := ∀ k, k ∈ a.series.keys ↔ k ∈ b.series.keys

theorem Curve.sameKeys_iff {a b : Curve} : a.SameKeys b ↔ a.series.keys = b.series.keys :=
  ⟨Series.keys_ext, fun h k => by rw [h]⟩

instance (a b : Curve) : Decidable (a.SameKeys b) := decidable_of_iff _ Curve.sameKeys_iff.symm

namespace Divergence

/-- A warning tells how the keys of a curve come from those of the reference. -/
structure Tells (reference curve : Curve) (d : Divergence) : Prop where
  reference_eq : d.reference = reference.label
  level_eq : d.level = curve.label
  missing_ascending : d.missing.Pairwise (· < ·)
  extra_ascending : d.extra.Pairwise (· < ·)
  disjoint : ∀ k ∈ d.missing, k ∉ d.extra
  nonempty : d.missing ≠ [] ∨ d.extra ≠ []
  keys : ∀ k, k ∈ curve.series.keys ↔ (k ∈ reference.series.keys ∧ k ∉ d.missing) ∨ k ∈ d.extra
  missing_known : ∀ k ∈ d.missing, k ∈ reference.series.keys
  extra_new : ∀ k ∈ d.extra, k ∉ reference.series.keys

variable {reference curve first : Curve} {rest curves : List Curve} {d d' : Divergence} {k : Key}

theorem Tells.mem_missing_iff (h : Tells reference curve d) :
    k ∈ d.missing ↔ k ∈ reference.series.keys ∧ k ∉ curve.series.keys := by
  rw [h.keys]
  constructor
  · intro hmissing
    have hknown := h.missing_known k hmissing
    exact ⟨hknown, by simp [hmissing, h.disjoint k hmissing]⟩
  · rintro ⟨hknown, habsent⟩
    by_contra hkept
    exact habsent (.inl ⟨hknown, hkept⟩)

theorem Tells.mem_extra_iff (h : Tells reference curve d) :
    k ∈ d.extra ↔ k ∈ curve.series.keys ∧ k ∉ reference.series.keys := by
  rw [h.keys]
  constructor
  · intro hextra
    exact ⟨.inr hextra, h.extra_new k hextra⟩
  · rintro ⟨hknown | hextra, hnew⟩
    · exact absurd hknown.1 hnew
    · exact hextra

/-- There is one way to tell it. -/
theorem Tells.unique (h : Tells reference curve d) (h' : Tells reference curve d') : d = d' := by
  have hmissing : d.missing = d'.missing :=
    Series.eq_of_ascending h.missing_ascending h'.missing_ascending fun k => by rw [h.mem_missing_iff, h'.mem_missing_iff]
  have hextra : d.extra = d'.extra :=
    Series.eq_of_ascending h.extra_ascending h'.extra_ascending fun k => by rw [h.mem_extra_iff, h'.mem_extra_iff]
  have hreference : d.reference = d'.reference := h.reference_eq.trans h'.reference_eq.symm
  have hlevel : d.level = d'.level := h.level_eq.trans h'.level_eq.symm
  cases d
  cases d'
  simp_all

theorem tells_of_between? (h : between? reference curve = some d) : Tells reference curve d := by
  have hmissing (k : Key) : k ∈ d.missing ↔ _ := mem_missing_iff h
  have hextra (k : Key) : k ∈ d.extra ↔ _ := mem_extra_iff h
  have hdiffers : ¬curve.series.keys = reference.series.keys := by
    rw [← between?_eq_none_iff, h]
    simp
  have hshape := h
  simp only [between?, if_neg hdiffers, Option.some.injEq] at hshape
  constructor
  case reference_eq => rw [← hshape]
  case level_eq => rw [← hshape]
  case missing_ascending =>
    rw [← hshape]
    exact reference.series.pairwise_keys.filter _
  case extra_ascending =>
    rw [← hshape]
    exact curve.series.pairwise_keys.filter _
  case disjoint =>
    intro k hk hk'
    exact ((hextra k).1 hk').2 ((hmissing k).1 hk).1
  case nonempty =>
    by_contra! hnone
    refine hdiffers (Series.keys_ext fun k => ?_)
    have hkept : ¬(k ∈ reference.series.keys ∧ k ∉ curve.series.keys) := by simp [← hmissing, hnone.1]
    have hknown : ¬(k ∈ curve.series.keys ∧ k ∉ reference.series.keys) := by simp [← hextra, hnone.2]
    tauto
  case keys =>
    intro k
    rw [hmissing, hextra]
    tauto
  case missing_known => exact fun k hk => ((hmissing k).1 hk).1
  case extra_new => exact fun k hk => ((hextra k).1 hk).2

theorem between?_eq_none_of_sameKeys (h : reference.SameKeys curve) : between? reference curve = none :=
  between?_eq_none_iff.2 (Curve.sameKeys_iff.1 h).symm

/-- What is told of a curve whose keys differ is the warning about it. -/
theorem between?_eq_some_iff (h : ¬reference.SameKeys curve) :
    between? reference curve = some d ↔ Tells reference curve d := by
  refine ⟨tells_of_between?, fun htells => ?_⟩
  cases hbetween : between? reference curve with
  | none => exact absurd (Curve.sameKeys_iff.2 (between?_eq_none_iff.1 hbetween).symm) h
  | some found => rw [(tells_of_between? hbetween).unique htells]

/-- The warnings tell of the later curves whose keys differ, one of each and in their order. -/
theorem filterMap_between?_eq_iff {ds : List Divergence} :
    rest.filterMap (between? first) = ds ↔
      List.Forall₂ (Tells first) (rest.filter fun curve => ¬first.SameKeys curve) ds := by
  induction rest generalizing ds with
  | nil => simp [eq_comm]
  | cons curve rest ih =>
    by_cases hsame : first.SameKeys curve
    · simp [between?_eq_none_of_sameKeys hsame, hsame, ih]
    · obtain ⟨d, hd⟩ : ∃ d, between? first curve = some d := by
        rw [← Option.ne_none_iff_exists', ne_eq, between?_eq_none_iff, ← Curve.sameKeys_iff]
        exact fun h => hsame fun k => (h k).symm
      have hsingle (d' : Divergence) : Tells first curve d' ↔ d' = d := by
        rw [← between?_eq_some_iff hsame, hd, Option.some.injEq, eq_comm]
      simp only [List.filterMap_cons, hd, List.filter_cons, hsame, not_false_eq_true, decide_true, if_true,
        List.forall₂_cons_left_iff, hsingle, ← ih]
      constructor
      · rintro rfl
        exact ⟨d, _, rfl, rfl, rfl⟩
      · rintro ⟨_, _, rfl, rfl, rfl⟩
        rfl

/-- Which warnings a list of curves has. An empty list has none. Those of other lists are the ones that tell, in the
order of the curves, of each curve after the first whose keys are not those of the first, and of no other curve. There
are none exactly if all curves have the same keys. -/
theorem among_eq_iff :
    among [] = [] ∧
    (∀ first rest ds, among (first :: rest) = ds ↔
      List.Forall₂ (Tells first) (rest.filter fun curve => ¬first.SameKeys curve) ds) ∧
    ∀ curves, among curves = [] ↔ ∀ a ∈ curves, ∀ b ∈ curves, a.SameKeys b := by
  refine ⟨rfl, fun first rest ds => filterMap_between?_eq_iff, fun curves => ?_⟩
  cases curves with
  | nil => simp [among]
  | cons first rest =>
    rw [Chart.among_eq_nil_iff]
    simp only [Curve.sameKeys_iff]
    constructor
    · intro hsame
      have hfirst : ∀ a ∈ first :: rest, a.series.keys = first.series.keys := List.forall_mem_cons.2 ⟨rfl, hsame⟩
      exact fun a ha b hb => (hfirst a ha).trans (hfirst b hb).symm
    · intro hsame curve hcurve
      exact hsame curve (List.mem_cons_of_mem _ hcurve) first List.mem_cons_self

end Divergence
end LoadSweep
