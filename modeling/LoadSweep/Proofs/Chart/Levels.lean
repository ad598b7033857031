import LoadSweep.Proofs.Chart.Stages

/-! A chart has a curve for each level, in the order of the settings, as long as every level can be measured.
Otherwise the first level that cannot is the one that the chart is abandoned for. -/
namespace LoadSweep.Chart

variable {disk : Disk} {s : Settings} {m : Metric} {n i : Nat} {l : Level} {ls : List Level} {curves : List Curve}
  {chart : Chart} {e : Failure}

/-- A level can be measured. -/
def Passes (disk : Disk) (s : Settings) (m : Metric) (l : Level) : Prop :=
  ∃ measured, (measure disk s m l).outcome = .ok measured

/-- The curve at position `i` of `n` from what was measured at its level. -/
def drawn (n i : Nat) (l : Level) (measured : Series Float × Float) : Curve where
  load := l.load
  label := l.label
  colour := l.colour.getD (Colour.spread n i)
  marker := l.marker.getD (Marker.nth i)
  series := measured.1
  baseline := measured.2

theorem outcome_curveOf (disk : Disk) (s : Settings) (m : Metric) (n i : Nat) (l : Level) :
    (curveOf disk s m n i l).outcome = (measure disk s m l).outcome.map (drawn n i l) := by
  unfold curveOf
  rw [Traced.outcome_bind]
  cases (measure disk s m l).outcome <;> rfl

theorem outcome_curvesFrom_cons (disk : Disk) (s : Settings) (m : Metric) (n i : Nat) (l : Level) (ls : List Level) :
    (curvesFrom disk s m n i (l :: ls)).outcome = do
      let measured ← (measure disk s m l).outcome
      let rest ← (curvesFrom disk s m n (i + 1) ls).outcome
      return drawn n i l measured :: rest := by
  simp only [curvesFrom, Traced.outcome_bind, outcome_curveOf, Traced.outcome_pure]
  cases (measure disk s m l).outcome <;> rfl

/-- The first level that cannot be measured is the one that fails. -/
theorem curvesFrom_eq_error_iff :
    (curvesFrom disk s m n i ls).outcome = .error e ↔
      ∃ before l, FirstIn (Passes disk s m) ls before l ∧ (measure disk s m l).outcome = .error e := by
  induction ls generalizing i with
  | nil => simp [curvesFrom, Traced.outcome_pure, not_firstIn_nil]
  | cons l ls ih =>
    rw [outcome_curvesFrom_cons, exists_firstIn_cons]
    cases hl : (measure disk s m l).outcome with
    | error found => simp [error_bind, Passes, hl]
    | ok measured =>
      have hpasses : Passes disk s m l := ⟨measured, hl⟩
      rw [ok_bind, ← ih (i := i + 1)]
      cases (curvesFrom disk s m n (i + 1) ls).outcome with
      | error found => simp [hpasses]
      | ok rest => simp [ok_bind, pure, Except.pure]

theorem curvesFrom_eq_ok (h : (curvesFrom disk s m n i ls).outcome = .ok curves) :
    curves.length = ls.length ∧ ∀ j l, ls[j]? = some l →
      ∃ measured, (measure disk s m l).outcome = .ok measured ∧ curves[j]? = some (drawn n (i + j) l measured) := by
  induction ls generalizing i curves with
  | nil =>
    simp only [curvesFrom, Traced.outcome_pure, Except.ok.injEq] at h
    simp [← h]
  | cons l ls ih =>
    rw [outcome_curvesFrom_cons] at h
    cases hl : (measure disk s m l).outcome with
    | error found => simp [hl, error_bind] at h
    | ok measured =>
      cases hls : (curvesFrom disk s m n (i + 1) ls).outcome with
      | error found => simp [hl, hls, ok_bind] at h
      | ok rest =>
        simp only [hl, hls, ok_bind, pure, Except.pure, Except.ok.injEq] at h
        obtain ⟨hlength, hrest⟩ := ih hls
        subst h
        refine ⟨by simp [hlength], ?_⟩
        intro j l' hj
        cases j with
        | zero =>
          simp only [List.getElem?_cons_zero, Option.some.injEq] at hj
          exact ⟨measured, hj ▸ hl, by simp [hj]⟩
        | succ j =>
          obtain ⟨measured', hmeasured, hcurve⟩ := hrest j l' (by simpa using hj)
          exact ⟨measured', hmeasured, by simpa [Nat.add_assoc, Nat.add_comm 1 j] using hcurve⟩

theorem outcome_warn (m : Metric) (ds : List Divergence) : (warn m ds).outcome = .ok () := by
  induction ds with
  | nil => rfl
  | cons d ds ih => rw [warn, Traced.outcome_bind, Traced.outcome_logged, ok_bind, ih]

theorem assemble_eq_error_iff :
    (assemble disk s m).outcome = .error e ↔
      ∃ before l, FirstIn (Passes disk s m) s.levels before l ∧ (measure disk s m l).outcome = .error e := by
  rw [← curvesFrom_eq_error_iff (n := s.levels.length) (i := 0)]
  simp only [assemble, Traced.outcome_bind, outcome_warn, Traced.outcome_pure]
  cases (curvesFrom disk s m s.levels.length 0 s.levels).outcome with
  | error found => simp [error_bind]
  | ok curves => simp [ok_bind]

/-- A chart holds the curves of the levels and the divergences among them. -/
theorem assemble_eq_ok (h : (assemble disk s m).outcome = .ok chart) :
    (curvesFrom disk s m s.levels.length 0 s.levels).outcome = .ok chart.curves ∧
      chart.warnings = Divergence.among chart.curves := by
  simp only [assemble, Traced.outcome_bind, outcome_warn, Traced.outcome_pure] at h
  cases hcurves : (curvesFrom disk s m s.levels.length 0 s.levels).outcome with
  | error found => simp [hcurves, error_bind] at h
  | ok curves =>
    simp only [hcurves, ok_bind, Except.ok.injEq] at h
    rw [← h]
    exact ⟨rfl, rfl⟩

/-- Without levels there is a chart without curves. -/
theorem exists_assemble_of_no_levels (disk : Disk) (m : Metric) (h : s.levels = []) :
    ∃ chart, (assemble disk s m).outcome = .ok chart ∧ chart.warnings = [] ∧ chart.xLabel = s.axisLabel ∧
      chart.baselineName = s.baselineName := by
  simp only [assemble, Traced.outcome_bind, outcome_warn, Traced.outcome_pure, h]
  exact ⟨_, rfl, rfl, rfl, rfl⟩

theorem curvesFrom_of_assemble (h : (assemble disk s m).outcome = .ok chart) :
    (curvesFrom disk s m s.levels.length 0 s.levels).outcome = .ok chart.curves := (assemble_eq_ok h).1

/-- There is a chart if and only if every level can be measured. -/
theorem exists_assemble_iff :
    (∃ chart, (assemble disk s m).outcome = .ok chart) ↔ ∀ l ∈ s.levels, Passes disk s m l := by
  constructor
  · rintro ⟨chart, h⟩ l hl
    obtain ⟨-, hcurves⟩ := curvesFrom_eq_ok (curvesFrom_of_assemble h)
    obtain ⟨j, hj⟩ := List.getElem?_of_mem hl
    obtain ⟨measured, hmeasured, -⟩ := hcurves j l hj
    exact ⟨measured, hmeasured⟩
  · intro hpasses
    cases h : (assemble disk s m).outcome with
    | ok chart => exact ⟨chart, rfl⟩
    | error e =>
      obtain ⟨before, l, hfirst, hl⟩ := assemble_eq_error_iff.1 h
      obtain ⟨measured, hmeasured⟩ := hpasses l hfirst.mem
      simp [hmeasured] at hl

/-- The chart of a metric: it exists if and only if every level can be measured, and its curves are those of the
levels in their order; otherwise the first level that fails is blamed, for its first failing stage. No level matters
for another. -/
theorem assemble_blame (disk : Disk) (s : Settings) (m : Metric) :
    ((∃ chart, (assemble disk s m).outcome = .ok chart) ↔
      ∀ l ∈ s.levels, ∃ measured, (measure disk s m l).outcome = .ok measured) ∧
    (∀ chart, (assemble disk s m).outcome = .ok chart →
      chart.curves.length = s.levels.length ∧
      ∀ i l, s.levels[i]? = some l → ∃ series baseline colour,
        (measure disk s m l).outcome = .ok (series, baseline) ∧
        (Colour.palette s.levels.length)[i]? = some colour ∧
        chart.curves[i]? = some {
          load := l.load
          label := l.label
          colour := l.colour.getD colour
          marker := l.marker.getD (Marker.nth i)
          series := series
          baseline := baseline : Curve }) ∧
    (∀ e, (assemble disk s m).outcome = .error e ↔
      ∃ before l, FirstIn (Passes disk s m) s.levels before l ∧ Blamed disk s m l e) ∧
    (∀ l e, (measure disk s m l).outcome = .error e ↔ Blamed disk s m l e) ∧
    (∀ l path column width, Blamed disk s m l (.columnOutOfRange path column width) →
      s.reduction = .grouped column ∧ 3 ≤ column ∧ path = s.baselinePath l ∧ width = 3) ∧
    ∀ (disk' : Disk) (levels : List Level) (l : Level), disk (s.sweptPath l) = disk' (s.sweptPath l) →
      disk (s.baselinePath l) = disk' (s.baselinePath l) →
      (measure disk s m l).outcome = (measure disk' { s with levels := levels } m l).outcome := by
  refine ⟨exists_assemble_iff, ?_, ?_, ?_, ?_, ?_⟩
  · intro chart h
    obtain ⟨hlength, hcurves⟩ := curvesFrom_eq_ok (curvesFrom_of_assemble h)
    refine ⟨hlength, ?_⟩
    intro i l hi
    obtain ⟨⟨series, baseline⟩, hmeasured, hcurve⟩ := hcurves i l hi
    obtain ⟨hlt, -⟩ := List.getElem?_eq_some_iff.1 hi
    refine ⟨series, baseline, Colour.spread s.levels.length i, hmeasured, by simp [Colour.palette, hlt], ?_⟩
    rw [hcurve, Nat.zero_add, drawn]
  · intro e
    simp only [assemble_eq_error_iff, measure_eq_error_iff]
  · intro l e
    exact measure_eq_error_iff
  · intro l path column width h
    exact h.of_columnOutOfRange
  · intro disk' levels l hswept hbaseline
    exact measure_congr hswept hbaseline levels

end LoadSweep.Chart
