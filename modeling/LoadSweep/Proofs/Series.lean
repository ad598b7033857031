import LoadSweep.Proofs.Pass
import LoadSweep.Series

/-! The points of a series are what look-up finds, so a pass over them in their order is a statement about keys. -/
namespace LoadSweep.Series

variable {α β ε : Type}

theorem mem_points_iff {s : Series α} {k : Key} {x : α} : (k, x) ∈ s.points ↔ s.get? k = some x := by
  obtain ⟨ps, ascending⟩ := s
  induction ps with
  | nil => simp [get?]
  | cons p ps ih =>
    obtain ⟨hp, hps⟩ := List.pairwise_cons.1 ascending
    have hrest := ih hps
    simp only [get?] at hrest ⊢
    by_cases hk : p.1 = k
    · have habsent : (k, x) ∉ ps := by
        intro hmem
        have hlt := hp _ hmem
        exact Key.lt_irrefl _ (hk ▸ hlt)
      subst hk
      obtain ⟨j, y⟩ := p
      simp_all [eq_comm]
    · have hne : (k, x) ≠ p := by
        rintro rfl
        exact hk rfl
      simp [hk, hne, hrest]

theorem nodup_keys (s : Series α) : s.keys.Nodup :=
  s.pairwise_keys.imp fun hlt => by
    rintro rfl
    exact Key.lt_irrefl _ hlt

/-- Keys stand in the one order that they can have. -/
theorem eq_of_ascending {ks js : List Key} (hks : ks.Pairwise (· < ·)) (hjs : js.Pairwise (· < ·))
    (h : ∀ k, k ∈ ks ↔ k ∈ js) : ks = js := by
  have nodup {is : List Key} (ascending : is.Pairwise (· < ·)) : is.Nodup := ascending.imp fun hlt => by
    rintro rfl
    exact Key.lt_irrefl _ hlt
  have hperm : ks.Perm js := (List.perm_ext_iff_of_nodup (nodup hks) (nodup hjs)).2 h
  refine hperm.eq_of_pairwise ?_ hks hjs
  intro j k _ _ hjk hkj
  exact absurd (Key.lt_trans hjk hkj) (Key.lt_irrefl j)

theorem keys_eq_of_pairwise {s : Series α} {ks : List Key} (ascending : ks.Pairwise (· < ·))
    (h : ∀ k, k ∈ s.keys ↔ k ∈ ks) : s.keys = ks :=
  eq_of_ascending s.pairwise_keys ascending h

theorem keys_ext {s t : Series α} (h : ∀ k, k ∈ s.keys ↔ k ∈ t.keys) : s.keys = t.keys :=
  keys_eq_of_pairwise t.pairwise_keys h

/-- A series is what look-up finds in it. -/
theorem ext_get? {s t : Series α} (h : ∀ k, s.get? k = t.get? k) : s = t := by
  have hnodup (u : Series α) : u.points.Nodup := List.Pairwise.of_map _ (fun _ _ => ne_of_apply_ne _) u.nodup_keys
  have hmem (p : Key × α) : p ∈ s.points ↔ p ∈ t.points := by rw [mem_points_iff, mem_points_iff, h]
  have hperm : s.points.Perm t.points := (List.perm_ext_iff_of_nodup (hnodup s) (hnodup t)).2 hmem
  have hpoints : s.points = t.points := by
    refine hperm.eq_of_pairwise ?_ s.ascending t.ascending
    intro p q _ _ hpq hqp
    exact absurd (Key.lt_trans hpq hqp) (Key.lt_irrefl p.1)
  obtain ⟨ps, _⟩ := s
  obtain ⟨qs, _⟩ := t
  cases hpoints
  rfl

theorem alter_eq_insert (s : Series α) (k : Key) (f : Option α → α) : s.alter k f = s.insert k (f (s.get? k)) :=
  ext_get? fun j => by rw [get?_alter, get?_insert]

theorem map_map {γ : Type} (f : α → β) (g : β → γ) (s : Series α) : (s.map f).map g = s.map fun x => g (f x) :=
  ext_get? fun k => by simp only [get?_map, Option.map_map, Function.comp_def]

theorem map_insert (f : α → β) (s : Series α) (k : Key) (x : α) : (s.insert k x).map f = (s.map f).insert k (f x) := by
  refine ext_get? fun j => ?_
  rw [get?_map, get?_insert, get?_insert, get?_map]
  split <;> rfl

theorem tryMapPoints_eq_error_iff {f : α → Except ε β} {ps : List (Key × α)} {e : ε} :
    tryMapPoints f ps = .error e ↔
      ∃ before p, FirstIn (fun p => ∃ b, f p.2 = .ok b) ps before p ∧ f p.2 = .error e := by
  induction ps with
  | nil => simp [tryMapPoints, not_firstIn_nil]
  | cons p ps ih =>
    rw [exists_firstIn_cons]
    cases h : f p.2 with
    | error found => simp [tryMapPoints, h]
    | ok b =>
      have hmap : tryMapPoints f (p :: ps) = .error e ↔ tryMapPoints f ps = .error e := by
        rw [tryMapPoints, h]
        exact map_eq_error_iff
      simp [hmap, ih]

/-- Mapping fails with the value at the smallest key that has a failing one. -/
theorem tryMap_eq_error_iff {f : α → Except ε β} {s : Series α} {e : ε} :
    s.tryMap f = .error e ↔
      ∃ k x, s.get? k = some x ∧ f x = .error e ∧ ∀ j < k, ∀ y, s.get? j = some y → ∃ b, f y = .ok b := by
  rw [tryMap, map_eq_error_iff, tryMapPoints_eq_error_iff]
  constructor
  · rintro ⟨before, ⟨k, x⟩, hfirst, hx⟩
    refine ⟨k, x, mem_points_iff.1 hfirst.mem, hx, ?_⟩
    obtain ⟨⟨after, hps⟩, hgood⟩ := hfirst
    intro j hj y hy
    have hmem : (j, y) ∈ before ++ (k, x) :: after := hps ▸ mem_points_iff.2 hy
    have ascending := hps ▸ s.ascending
    obtain ⟨-, hlater, -⟩ := List.pairwise_append.1 ascending
    rcases List.mem_append.1 hmem with hbefore | hmem
    · exact hgood _ hbefore
    · rcases List.mem_cons.1 hmem with heq | hafter
      · cases heq
        exact absurd hj (Key.lt_irrefl _)
      · have hkj : k < j := (List.pairwise_cons.1 hlater).1 _ hafter
        exact absurd (Key.lt_trans hj hkj) (Key.lt_irrefl _)
  · rintro ⟨k, x, hget, hx, hgood⟩
    obtain ⟨before, after, hps⟩ := List.append_of_mem (mem_points_iff.2 hget)
    have ascending := hps ▸ s.ascending
    obtain ⟨-, -, hearlier⟩ := List.pairwise_append.1 ascending
    refine ⟨before, (k, x), ⟨⟨after, hps⟩, ?_⟩, hx⟩
    intro p hp
    have hmem : p ∈ s.points := by simp [hps, hp]
    exact hgood p.1 (hearlier p hp (k, x) (by simp)) p.2 (mem_points_iff.1 hmem)

theorem find?_tryMapPoints {f : α → Except ε β} {ps : List (Key × α)}
    {qs : { qs : List (Key × β) // qs.map (·.1) = ps.map (·.1) }} (h : tryMapPoints f ps = .ok qs) (k : Key) :
    ((qs.1.find? (·.1 == k)).map (·.2)).map .ok = ((ps.find? (·.1 == k)).map (·.2)).map f := by
  induction ps with
  | nil =>
    cases h
    rfl
  | cons p ps ih =>
    cases hp : f p.2 with
    | error e => simp [tryMapPoints, hp] at h
    | ok b =>
      simp only [tryMapPoints, hp] at h
      obtain ⟨rs, hrs, rfl⟩ := map_eq_ok_iff.1 h
      by_cases hk : p.1 = k
      · simp [hk, hp]
      · simpa [hk] using ih hrs

/-- Each value is mapped where it stands. -/
theorem get?_tryMap {f : α → Except ε β} {s : Series α} {t : Series β} (h : s.tryMap f = .ok t) (k : Key) :
    (t.get? k).map .ok = (s.get? k).map f := by
  obtain ⟨qs, hqs, rfl⟩ := map_eq_ok_iff.1 h
  exact find?_tryMapPoints hqs k

/-- Mapping succeeds only if no value fails. -/
theorem exists_ok_of_tryMap {f : α → Except ε β} {s : Series α} {t : Series β} (h : s.tryMap f = .ok t) {k : Key}
    {x : α} (hx : s.get? k = some x) : ∃ b, f x = .ok b := by
  have hget := get?_tryMap h k
  rw [hx, Option.map_some, Option.map_eq_some_iff] at hget
  obtain ⟨b, -, hb⟩ := hget
  exact ⟨b, hb.symm⟩

/-- Mapping is plain mapping if no value fails. -/
theorem tryMap_eq_ok {f : α → Except ε β} {g : α → β} {s : Series α}
    (h : ∀ k x, s.get? k = some x → f x = .ok (g x)) : s.tryMap f = .ok (s.map g) := by
  cases hmap : s.tryMap f with
  | error e =>
    obtain ⟨k, x, hx, hfail, -⟩ := tryMap_eq_error_iff.1 hmap
    simp [h k x hx] at hfail
  | ok t =>
    congr 1
    refine ext_get? fun k => ?_
    have hget := get?_tryMap hmap k
    rw [get?_map]
    cases hx : s.get? k with
    | none => simpa [hx] using hget
    | some x => simpa [hx, h k x hx] using hget

end LoadSweep.Series
