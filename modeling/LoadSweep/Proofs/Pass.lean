/-! A pass over a list that stops at its first fault is described by `FirstIn`: what stands before the fault is in
order. The lemmas before it say what becomes of a failure on the way out. -/
namespace LoadSweep

section Except

variable {ε α β : Type} {x : Except ε α} {f : α → β} {e : ε}

@[simp] theorem ok_bind (a : α) (g : α → Except ε β) : (Except.ok a : Except ε α) >>= g = g a := rfl

@[simp] theorem error_bind (e : ε) (g : α → Except ε β) : (Except.error e : Except ε α) >>= g = .error e := rfl

theorem map_eq_error_iff : x.map f = .error e ↔ x = .error e := by
  cases x <;> simp [Except.map]

theorem map_eq_ok_iff {b : β} : x.map f = .ok b ↔ ∃ a, x = .ok a ∧ f a = b := by
  cases x <;> simp [Except.map]

theorem bind_eq_ok_iff {g : α → Except ε β} {b : β} : x >>= g = .ok b ↔ ∃ a, x = .ok a ∧ g a = .ok b := by
  cases x <;> simp

theorem toOption_eq_some_iff {a : α} : x.toOption = some a ↔ x = .ok a := by
  cases x <;> simp [Except.toOption]

theorem toOption_map : (x.map f).toOption = x.toOption.map f := by
  cases x <;> rfl

section mapError

variable {ε' : Type} (x : Except ε α) (g : ε → ε')

@[simp] theorem mapError_ok (a : α) : (Except.ok a : Except ε α).mapError g = .ok a := rfl

@[simp] theorem mapError_error (e : ε) : (Except.error e : Except ε α).mapError g = .error (g e) := rfl

theorem mapError_bind (h : α → Except ε β) : (x >>= h).mapError g = x.mapError g >>= fun a => (h a).mapError g := by
  cases x <;> rfl

end mapError

/-- A fold that no step stops is the plain fold, seen through `view`. -/
theorem foldlM_map_eq_ok {σ τ ρ : Type} {step : σ → α → Except ε σ} {row : ρ → α} (view : τ → σ) {step' : τ → ρ → τ}
    (h : ∀ state r, step (view state) (row r) = .ok (view (step' state r))) (rs : List ρ) (state : τ) :
    (rs.map row).foldlM step (view state) = .ok (view (rs.foldl step' state)) := by
  induction rs generalizing state with
  | nil => rfl
  | cons r rs ih => rw [List.map_cons, List.foldlM_cons, h, ok_bind, ih, List.foldl_cons]

/-- A pass that nothing stops maps every element. -/
theorem mapM_eq_ok_iff {g : α → Except ε β} {xs : List α} {ys : List β} :
    xs.mapM g = .ok ys ↔ xs.map g = ys.map .ok := by
  induction xs generalizing ys with
  | nil =>
    rw [List.mapM_nil]
    cases ys <;> simp [pure, Except.pure]
  | cons x xs ih =>
    rw [List.mapM_cons, bind_eq_ok_iff]
    constructor
    · rintro ⟨y, hy, hbind⟩
      obtain ⟨rest, hrest, heq⟩ := bind_eq_ok_iff.1 hbind
      cases heq
      rw [List.map_cons, List.map_cons, hy, ih.1 hrest]
    · cases ys with
      | nil => simp
      | cons y rest =>
        intro h
        obtain ⟨hy, hrest⟩ := List.cons.inj h
        exact ⟨y, hy, bind_eq_ok_iff.2 ⟨rest, ih.2 hrest, rfl⟩⟩

/-- A pass that nothing stops has a result for each element, in the order of the elements. -/
theorem getElem?_of_mapM {g : α → Except ε β} {xs : List α} {ys : List β} (h : xs.mapM g = .ok ys) :
    ys.length = xs.length ∧ ∀ (i : Nat) (x : α), xs[i]? = some x → ∃ y, ys[i]? = some y ∧ g x = .ok y := by
  have hmap := mapM_eq_ok_iff.1 h
  refine ⟨by simpa using congrArg List.length hmap.symm, ?_⟩
  intro i x hi
  have hat := congrArg (·[i]?) hmap
  simp only [List.getElem?_map, hi, Option.map_some] at hat
  obtain ⟨y, hy, heq⟩ := Option.map_eq_some_iff.1 hat.symm
  exact ⟨y, hy, heq.symm⟩

theorem mapM_map {γ : Type} (g : α → Except ε β) (f : β → γ) (xs : List α) :
    (xs.mapM fun x => (g x).map f) = (xs.mapM g).map (List.map f) := by
  induction xs with
  | nil => rfl
  | cons x xs ih =>
    rw [List.mapM_cons, List.mapM_cons, ih]
    cases g x with
    | error e => rfl
    | ok y => cases xs.mapM g <;> rfl

end Except

variable {α : Type} {good : α → Prop}

/-- `x` stands in a list behind `before`, all of which is good. -/
def FirstIn (good : α → Prop) (xs before : List α) (x : α) : Prop :=
  (∃ after, xs = before ++ x :: after) ∧ ∀ y ∈ before, good y

theorem not_firstIn_nil {before : List α} {x : α} : ¬FirstIn good [] before x := by
  rintro ⟨⟨after, h⟩, -⟩
  simp at h

theorem FirstIn.mem {xs before : List α} {x : α} (h : FirstIn good xs before x) : x ∈ xs := by
  obtain ⟨⟨after, rfl⟩, -⟩ := h
  simp

/-- Of two elements that come first in a list, one stands before the other unless they are the same. -/
theorem FirstIn.trichotomy {good' : α → Prop} {xs before before' : List α} {x x' : α} (h : FirstIn good xs before x)
    (h' : FirstIn good' xs before' x') : x' ∈ before ∨ x' = x ∨ x ∈ before' := by
  obtain ⟨⟨after, rfl⟩, -⟩ := h
  obtain ⟨⟨after', hxs⟩, -⟩ := h'
  rcases List.append_eq_append_iff.1 hxs with ⟨between, rfl, hx⟩ | ⟨between, rfl, hx⟩
  · cases between with
    | nil =>
      simp only [List.nil_append, List.cons.injEq] at hx
      exact .inr (.inl hx.1.symm)
    | cons b between =>
      simp only [List.cons_append, List.cons.injEq] at hx
      exact .inr (.inr (by simp [hx.1]))
  · cases between with
    | nil =>
      simp only [List.nil_append, List.cons.injEq] at hx
      exact .inr (.inl hx.1)
    | cons b between =>
      simp only [List.cons_append, List.cons.injEq] at hx
      exact .inl (by simp [hx.1])

/-- What comes first in a list is its head, or the head is good and it comes first in the rest. -/
theorem exists_firstIn_cons {a : α} {xs : List α} {Q : List α → α → Prop} :
    (∃ before x, FirstIn good (a :: xs) before x ∧ Q before x) ↔
      Q [] a ∨ good a ∧ ∃ before x, FirstIn good xs before x ∧ Q (a :: before) x := by
  constructor
  · rintro ⟨before, x, ⟨⟨after, hxs⟩, hgood⟩, hq⟩
    cases before with
    | nil =>
      simp only [List.nil_append, List.cons.injEq] at hxs
      obtain ⟨rfl, rfl⟩ := hxs
      exact .inl hq
    | cons b before =>
      simp only [List.cons_append, List.cons.injEq] at hxs
      obtain ⟨rfl, rfl⟩ := hxs
      exact .inr ⟨hgood a (by simp), before, x, ⟨⟨after, rfl⟩, fun y hy => hgood y (by simp [hy])⟩, hq⟩
  · rintro (hq | ⟨ha, before, x, ⟨⟨after, rfl⟩, hgood⟩, hq⟩)
    · exact ⟨[], a, ⟨⟨xs, rfl⟩, by simp⟩, hq⟩
    · refine ⟨a :: before, x, ⟨⟨after, rfl⟩, ?_⟩, hq⟩
      intro y hy
      rcases List.mem_cons.1 hy with rfl | hy
      · exact ha
      · exact hgood y hy

/-- A pass that is stopped is stopped by the first element that fails. -/
theorem mapM_eq_error_iff {ε β : Type} {g : α → Except ε β} {xs : List α} {e : ε} :
    xs.mapM g = .error e ↔ ∃ before x, FirstIn (fun x => ∃ y, g x = .ok y) xs before x ∧ g x = .error e := by
  induction xs with
  | nil => simp [List.mapM_nil, pure, Except.pure, not_firstIn_nil]
  | cons x xs ih =>
    rw [exists_firstIn_cons, List.mapM_cons]
    cases hx : g x with
    | error found => simp
    | ok y =>
      simp only [ok_bind, ← ih]
      cases xs.mapM g <;> simp [pure, Except.pure]

/-- A pass is not stopped if no element fails. -/
theorem exists_mapM_iff {ε β : Type} {g : α → Except ε β} {xs : List α} :
    (∃ ys, xs.mapM g = .ok ys) ↔ ∀ x ∈ xs, ∃ y, g x = .ok y := by
  constructor
  · rintro ⟨ys, hys⟩ x hx
    have hmem := List.mem_map_of_mem (f := g) hx
    rw [mapM_eq_ok_iff.1 hys, List.mem_map] at hmem
    obtain ⟨y, -, hy⟩ := hmem
    exact ⟨y, hy.symm⟩
  · intro hall
    cases h : xs.mapM g with
    | ok ys => exact ⟨ys, rfl⟩
    | error e =>
      obtain ⟨before, x, hfirst, hx⟩ := mapM_eq_error_iff.1 h
      obtain ⟨y, hy⟩ := hall x hfirst.mem
      simp [hy] at hx

end LoadSweep
