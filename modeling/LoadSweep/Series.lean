import LoadSweep.Key

/-! A series holds a value for each of some keys, in ascending order of the keys. -/
namespace LoadSweep

/-- The points of a series, each key once and in ascending order. -/
structure Series (α : Type) where
  points : List (Key × α)
  ascending : points.Pairwise (·.1 < ·.1)

namespace Series

variable {α β ε : Type}

def empty : Series α := ⟨[], .nil⟩

/-- Changes the value at `k` in an ascending list, or inserts one. -/
def alterPoints (k : Key) (f : Option α → α) : List (Key × α) → List (Key × α)
  | [] => [(k, f none)]
  | p :: ps =>
    if k < p.1 then (k, f none) :: p :: ps
    else if k = p.1 then (k, f (some p.2)) :: ps
    else p :: alterPoints k f ps

theorem mem_alterPoints {k : Key} {f : Option α → α} {q : Key × α} {ps : List (Key × α)}
    (h : q ∈ alterPoints k f ps) : q.1 = k ∨ q ∈ ps := by
  induction ps with
  | nil => simp_all [alterPoints]
  | cons p ps ih =>
    unfold alterPoints at h
    split at h
    · rcases List.mem_cons.1 h with rfl | h
      · exact .inl rfl
      · exact .inr h
    · split at h
      · rcases List.mem_cons.1 h with rfl | h
        · exact .inl rfl
        · exact .inr (.tail _ h)
      · rcases List.mem_cons.1 h with rfl | h
        · exact .inr (.head _)
        · exact (ih h).imp_right (.tail _)

theorem ascending_alterPoints {k : Key} {f : Option α → α} {ps : List (Key × α)}
    (h : ps.Pairwise (·.1 < ·.1)) : (alterPoints k f ps).Pairwise (·.1 < ·.1) := by
  induction ps with
  | nil => simp [alterPoints]
  | cons p ps ih =>
    rw [List.pairwise_cons] at h
    unfold alterPoints
    split
    · rename_i hk
      refine List.pairwise_cons.2 ⟨?_, List.pairwise_cons.2 h⟩
      intro q hq
      rcases List.mem_cons.1 hq with rfl | hq
      · exact hk
      · exact Key.lt_trans hk (h.1 q hq)
    · split
      · rename_i hk
        exact List.pairwise_cons.2 ⟨fun q hq => hk ▸ h.1 q hq, h.2⟩
      · rename_i hlt hne
        refine List.pairwise_cons.2 ⟨?_, ih h.2⟩
        intro q hq
        rcases mem_alterPoints hq with hq | hq
        · rw [hq]
          rcases Key.lt_trichotomy p.1 k with h' | h' | h'
          · exact h'
          · exact absurd h'.symm hne
          · exact absurd h' hlt
        · exact h.1 q hq

/-- Changes the value at `k`, or inserts one. -/
def alter (s : Series α) (k : Key) (f : Option α → α) : Series α :=
  ⟨alterPoints k f s.points, ascending_alterPoints s.ascending⟩

def insert (s : Series α) (k : Key) (a : α) : Series α := s.alter k fun _ => a

/-- The series of some points; of two with one key the later stays. -/
def ofList (ps : List (Key × α)) : Series α := ps.foldl (fun s p => s.insert p.1 p.2) empty

def size (s : Series α) : Nat := s.points.length

def get? (s : Series α) (k : Key) : Option α := (s.points.find? (·.1 == k)).map (·.2)

def keys (s : Series α) : List Key := s.points.map (·.1)

def values (s : Series α) : List α := s.points.map (·.2)

theorem pairwise_keys (s : Series α) : s.keys.Pairwise (· < ·) := List.pairwise_map.2 s.ascending

theorem mem_keys {s : Series α} {k : Key} : k ∈ s.keys ↔ (s.get? k).isSome := by
  simp only [keys, get?, Option.isSome_map, List.find?_isSome, List.mem_map, beq_iff_eq]

theorem get?_empty (k : Key) : (empty : Series α).get? k = none := rfl

theorem find?_alterPoints (k j : Key) (f : Option α → α) {ps : List (Key × α)} (h : ps.Pairwise (·.1 < ·.1)) :
    ((alterPoints k f ps).find? (·.1 == j)).map (·.2) =
      if j = k then some (f ((ps.find? (·.1 == k)).map (·.2))) else (ps.find? (·.1 == j)).map (·.2) := by
  induction ps with
  | nil =>
    by_cases hj : k = j
    · simp [alterPoints, hj]
    · simp [alterPoints, hj, Ne.symm hj]
  | cons p ps ih =>
    rw [List.pairwise_cons] at h
    unfold alterPoints
    split
    · rename_i hk
      have absent : ∀ q ∈ p :: ps, q.1 ≠ k := by
        intro q hq hqk
        subst hqk
        rcases List.mem_cons.1 hq with rfl | hq
        · exact Key.lt_irrefl _ hk
        · exact Key.lt_irrefl _ (Key.lt_trans hk (h.1 q hq))
      have none_at : (p :: ps).find? (·.1 == k) = none :=
        List.find?_eq_none.2 fun q hq => by simpa using absent q hq
      rw [none_at]
      by_cases hj : k = j
      · simp [hj]
      · simp [List.find?_cons, hj, Ne.symm hj]
    · split
      · rename_i hk
        by_cases hj : k = j
        · simp [hj, ← hk]
        · simp [hj, ← hk, Ne.symm hj]
      · rename_i hlt hne
        by_cases hp : p.1 = j
        · subst hp
          simp [Ne.symm hne]
        · have hpk : ¬p.1 = k := fun e => hne e.symm
          simpa [List.find?_cons, hp, hpk] using ih h.2

/-- An alteration shows at its key and nowhere else. -/
theorem get?_alter (s : Series α) (k j : Key) (f : Option α → α) :
    (s.alter k f).get? j = if j = k then some (f (s.get? k)) else s.get? j :=
  find?_alterPoints k j f s.ascending

theorem get?_insert (s : Series α) (k j : Key) (a : α) :
    (s.insert k a).get? j = if j = k then some a else s.get? j := get?_alter s k j _

theorem mem_keys_insert {s : Series α} {k j : Key} {a : α} : j ∈ (s.insert k a).keys ↔ j = k ∨ j ∈ s.keys := by
  simp only [mem_keys, get?_insert]
  by_cases h : j = k <;> simp [h]

theorem mem_keys_ofList {ps : List (Key × α)} {k : Key} : k ∈ (ofList ps).keys ↔ k ∈ ps.map (·.1) := by
  have go (s : Series α) :
      k ∈ (ps.foldl (fun s p => s.insert p.1 p.2) s).keys ↔ k ∈ ps.map (·.1) ∨ k ∈ s.keys := by
    induction ps generalizing s with
    | nil => simp
    | cons p ps ih => simp only [List.foldl_cons, ih, mem_keys_insert, List.map_cons, List.mem_cons]; grind
  simpa [ofList, keys, empty] using go empty

def map (f : α → β) (s : Series α) : Series β :=
  ⟨s.points.map fun p => (p.1, f p.2), by simpa [List.pairwise_map] using s.ascending⟩

theorem keys_map (f : α → β) (s : Series α) : (s.map f).keys = s.keys := by
  simp [keys, map, Function.comp_def]

theorem get?_map (f : α → β) (s : Series α) (k : Key) : (s.map f).get? k = (s.get? k).map f := by
  simp [get?, map, List.find?_map, Function.comp_def]

/-- Maps the values of points, up to the first failure. -/
def tryMapPoints (f : α → Except ε β) :
    (ps : List (Key × α)) → Except ε { qs : List (Key × β) // qs.map (·.1) = ps.map (·.1) }
  | [] => .ok ⟨[], rfl⟩
  | p :: ps =>
    match f p.2 with
    | .error e => .error e
    | .ok b => (tryMapPoints f ps).map fun qs => ⟨(p.1, b) :: qs.1, by simp [qs.2]⟩

/-- Maps the values in the order of their keys, up to the first failure. -/
def tryMap (f : α → Except ε β) (s : Series α) : Except ε (Series β) :=
  (tryMapPoints f s.points).map fun qs =>
    ⟨qs.1, List.pairwise_map.1 (by rw [qs.2]; exact List.pairwise_map.2 s.ascending)⟩

theorem keys_of_tryMap {f : α → Except ε β} {s : Series α} {t : Series β} (h : s.tryMap f = .ok t) :
    t.keys = s.keys := by
  unfold tryMap at h
  cases hq : tryMapPoints f s.points with
  | error e => simp [hq, Except.map] at h
  | ok qs =>
    simp only [hq, Except.map, Except.ok.injEq] at h
    subst h
    exact qs.2

end Series

/-- The keys of several series, each once and in ascending order. -/
def unionKeys {α : Type} (ss : List (Series α)) : List Key :=
  (Series.ofList (ss.flatMap fun s => s.keys.map fun k => (k, ()))).keys

theorem mem_unionKeys {α : Type} {ss : List (Series α)} {k : Key} : k ∈ unionKeys ss ↔ ∃ s ∈ ss, k ∈ s.keys := by
  simp [unionKeys, Series.mem_keys_ofList, List.map_flatMap, Function.comp_def]

theorem pairwise_unionKeys {α : Type} (ss : List (Series α)) : (unionKeys ss).Pairwise (· < ·) :=
  Series.pairwise_keys _

end LoadSweep
