import LoadSweep.Proofs.Chart.Domain
import LoadSweep.Proofs.Chart.Levels
import LoadSweep.Proofs.Settings

/-! A mean is checked before it becomes a rate, the rate is not. It is not below zero, but it is infinite if the mean
is too large for the window, or for the factor of the saturation. -/
namespace LoadSweep

open Double

namespace Metric

/-- The rate that a mean becomes. -/
def rate (m : Metric) (window x : Float) : Float :=
  match m with
  | latency => latencySeconds x window
  | throughput => perSecond x window
  | saturation => saturationMebibits x

/-- The exact number that has to be in the range of doubles for a rate to be. -/
def magnitude (m : Metric) (window x : Float) : ℚ :=
  match m with
  | latency => value x / value window
  | throughput => value x / value window
  | saturation => value x * 8000

theorem derive_eq_ok_iff {m : Metric} {window x y : Float} :
    m.derive window x = .ok y ↔ Physical x ∧ y = m.rate window x := by
  by_cases hx : Physical x
  · have hderive : m.derive window x = .ok (m.rate window x) := by
      cases m <;> simp [derive, rate, hx.1, hx.2]
    simp [hderive, hx, @eq_comm _ y]
  · have hderive : m.derive window x = .error (.outOfDomain m x) := derive_eq_error_iff.2 ⟨hx, rfl⟩
    simp [hderive, hx]

theorem saturationMebibits_clipped {x : Float} (hx : x.isFinite = true) (hnonneg : 0 ≤ value x) :
    Clipped (value x * 8000) (saturationMebibits x) := by
  obtain ⟨hfactor, hfactorValue⟩ := value_ofNat (n := 8000) (by norm_num)
  obtain ⟨hdivisor, hdivisorValue⟩ := value_ofNat (n := 1048576) (by norm_num)
  have hproduct : Clipped (value x * 8000) (x * Float.ofNat 8000) := by
    have hrounded := isRounded_mul hx hfactor
    rw [hfactorValue] at hrounded
    exact hrounded.clipped (mul_nonneg hnonneg (by norm_num))
  change Clipped _ (x * Float.ofNat 8000 / Float.ofNat 1048576)
  rcases lt_or_ge (value x * 8000) overflow with hlt | hge
  · -- the quotient is no larger than the product, which is in range
    have hbits : (x * Float.ofNat 8000).isFinite = true := hproduct.finite_iff.2 hlt
    have hbitsValue : 0 ≤ value (x * Float.ofNat 8000) := (zero_le_iff hbits).1 hproduct.nonneg
    have hquotient := isRounded_div hbits hdivisor (by rw [hdivisorValue]; norm_num)
    rw [hdivisorValue] at hquotient
    have hrate := hquotient.clipped (div_nonneg hbitsValue (by norm_num))
    have hsmall : value (x * Float.ofNat 8000) / (1048576 : ℕ) < overflow :=
      (div_le_self hbitsValue (by norm_num)).trans_lt ((le_abs_self _).trans_lt (abs_value_lt hbits))
    have hfinite := hrate.finite_iff.2 hsmall
    exact clipped_of_finite hlt hfinite ((zero_le_iff hfinite).1 hrate.nonneg)
  · exact clipped_of_infinity hge (infinity_div (hproduct.infinite hge) hdivisor (by rw [hdivisorValue]; norm_num))

theorem rate_clipped (m : Metric) {window x : Float} (hwindow : window.isFinite = true) (hpos : 0 < value window)
    (hx : Physical x) : Clipped (m.magnitude window x) (m.rate window x) := by
  have hnonneg : 0 ≤ value x := (physical_iff.1 hx).2.1
  have hquotient := (isRounded_div hx.1 hwindow hpos.ne').clipped (div_nonneg hnonneg hpos.le)
  cases m with
  | latency => exact hquotient
  | throughput => exact hquotient
  | saturation => exact saturationMebibits_clipped hx.1 hnonneg

theorem magnitude_lt_of_one_le (m : Metric) {window x : Float} (hm : m ≠ saturation) (hwindow : 1 ≤ value window)
    (hx : Physical x) : m.magnitude window x < overflow := by
  have hnonneg : 0 ≤ value x := (physical_iff.1 hx).2.1
  have hsmall : value x / value window < overflow :=
    (div_le_self hnonneg hwindow).trans_lt ((le_abs_self _).trans_lt (abs_value_lt hx.1))
  cases m with
  | latency => exact hsmall
  | throughput => exact hsmall
  | saturation => exact absurd rfl hm

end Metric

theorem Settings.window_of_check {s : Settings} (h : s.check = .ok ()) :
    s.window.isFinite = true ∧ 0 < value s.window := by
  obtain ⟨hfinite, hpos⟩ := (check_eq_ok_iff.1 h).window
  exact ⟨hfinite, (zero_lt_iff hfinite).1 hpos⟩

namespace Chart

variable {disk : Disk} {s : Settings} {m : Metric} {l : Level}

/-- What is measured at a level are the rates of its means. -/
theorem measure_eq_ok {series : Series Float} {baseline : Float}
    (h : (measure disk s m l).outcome = .ok (series, baseline)) :
    ∃ rows runs, Ready disk s l rows runs ∧
      (∀ k y, series.get? k = some y ↔ ∃ x, SweptMean s m l rows k x ∧ Physical x ∧ y = m.rate s.window x) ∧
      ∃ x, BaselineMean s m l runs x ∧ Physical x ∧ baseline = m.rate s.window x := by
  rcases ready_or_unready disk s l with ⟨rows, runs, ready⟩ | ⟨e, unready⟩
  · obtain ⟨means, mean, hget, hmean, hmeasure⟩ := measure_of_ready ready m
    rw [hmeasure] at h
    cases hseries : m.deriveSeries s.window means with
    | error e => simp [hseries] at h
    | ok found =>
      cases hbaseline : m.derive s.window mean with
      | error e => simp [hseries, hbaseline] at h
      | ok derived =>
        simp only [hseries, hbaseline, ok_bind, pure, Except.pure, Except.ok.injEq, Prod.mk.injEq] at h
        obtain ⟨rfl, rfl⟩ := h
        refine ⟨rows, runs, ready, ?_, mean, hmean, Metric.derive_eq_ok_iff.1 hbaseline⟩
        intro k y
        have hmap := Series.get?_tryMap hseries k
        have hpoint : found.get? k = some y ↔ (found.get? k).map .ok = some (.ok y : Except Failure Float) := by simp
        rw [hpoint, hmap]
        simp [hget, Metric.derive_eq_ok_iff]
  · simp [measure_of_unready unready] at h

theorem measured_at {chart : Chart} (h : (assemble disk s m).outcome = .ok chart) {i : Nat} {curve : Curve}
    (hi : chart.curves[i]? = some curve) :
    ∃ l, s.levels[i]? = some l ∧ (measure disk s m l).outcome = .ok (curve.series, curve.baseline) := by
  obtain ⟨hlength, hcurves⟩ := curvesFrom_eq_ok (curvesFrom_of_assemble h)
  obtain ⟨hlt, -⟩ := List.getElem?_eq_some_iff.1 hi
  have hl : s.levels[i]? = some s.levels[i] := List.getElem?_eq_getElem (hlength ▸ hlt)
  obtain ⟨measured, hmeasured, hdrawn⟩ := hcurves i _ hl
  obtain rfl := Option.some.inj (hi.symm.trans hdrawn)
  exact ⟨_, hl, hmeasured⟩

/-- `y` is the rate of a mean `x`: not below zero, and infinite exactly if it is out of range. -/
structure ShowsRate (s : Settings) (m : Metric) (x y : Float) : Prop where
  mean : Physical x
  rate : y = m.rate s.window x
  clipped : Clipped (m.magnitude s.window x) y

/-- What a chart shows are the rates of the means of its data sets. A rate is not below zero, and it is finite unless
the quotient by the window, or the product with the factor of the saturation, is out of the range of doubles. -/
theorem assemble_shows_rates (disk : Disk) (s : Settings) (m : Metric) (chart : Chart) (hcheck : s.check = .ok ())
    (h : (assemble disk s m).outcome = .ok chart) :
    ∀ (i : Nat) (curve : Curve), chart.curves[i]? = some curve → ∃ l, s.levels[i]? = some l ∧
      ∃ rows runs, Ready disk s l rows runs ∧
        (∀ k y, curve.series.get? k = some y → ∃ x, SweptMean s m l rows k x ∧ ShowsRate s m x y) ∧
        (∃ x, BaselineMean s m l runs x ∧ ShowsRate s m x curve.baseline) ∧
        (m ≠ .saturation → 1 ≤ value s.window →
          (∀ k y, curve.series.get? k = some y → y.isFinite = true) ∧ curve.baseline.isFinite = true) := by
  obtain ⟨hwindow, hpos⟩ := Settings.window_of_check hcheck
  intro i curve hi
  obtain ⟨l, hl, hmeasured⟩ := measured_at h hi
  obtain ⟨rows, runs, ready, hseries, x, hmean, hx, hbaseline⟩ := measure_eq_ok hmeasured
  have hclipped {x : Float} (hx : Physical x) := m.rate_clipped hwindow hpos hx
  have hswept (k : Key) (y : Float) (hy : curve.series.get? k = some y) :
      ∃ x, SweptMean s m l rows k x ∧ ShowsRate s m x y := by
    obtain ⟨x, hmean, hx, rfl⟩ := (hseries k y).1 hy
    exact ⟨x, hmean, hx, rfl, hclipped hx⟩
  have hfinite (hm : m ≠ .saturation) (hone : 1 ≤ value s.window) {x y : Float} (hy : ShowsRate s m x y) :
      y.isFinite = true := hy.clipped.finite_iff.2 (m.magnitude_lt_of_one_le hm hone hy.mean)
  have hshown : ShowsRate s m x curve.baseline := ⟨hx, hbaseline, hbaseline ▸ hclipped hx⟩
  refine ⟨l, hl, rows, runs, ready, hswept, ⟨x, hmean, hshown⟩, ?_⟩
  intro hm hone
  refine ⟨?_, hfinite hm hone hshown⟩
  intro k y hy
  obtain ⟨z, -, hz⟩ := hswept k y hy
  exact hfinite hm hone hz

/-- Which baselines and values of a chart are finite. -/
def finiteness (c : Chart) : List (Bool × List Bool) :=
  c.curves.map fun curve => (curve.baseline.isFinite, curve.series.values.map Float.isFinite)

theorem exists_infinite {o : Except Failure Chart} (h : o.toOption.map finiteness = some [(false, [false])]) :
    ∃ chart, o = .ok chart ∧
      ∃ curve ∈ chart.curves, curve.baseline.isFinite = false ∧ ∃ y ∈ curve.series.values, y.isFinite = false := by
  obtain ⟨chart, hchart, hfinite⟩ := Option.map_eq_some_iff.1 h
  obtain ⟨curve, hcurve, hpair⟩ := List.mem_map.1 (hfinite ▸ List.mem_cons_self : (false, [false]) ∈ finiteness chart)
  obtain ⟨hbaseline, hvalues⟩ := Prod.mk.inj hpair
  obtain ⟨y, hy, hinfinite⟩ := List.mem_map.1 (hvalues ▸ List.mem_cons_self : false ∈ _)
  exact ⟨chart, toOption_eq_some_iff.1 hchart, curve, hcurve, hbaseline, y, hy, hinfinite⟩

/-- Accepted data sets give infinite rates, by a vanishing window or by the factor of the saturation. -/
theorem infinite_rates :
    ((single 1e-308).check = .ok () ∧
      ∃ chart, (assemble (singleDisk "1 5 5 5\n" "5 5 5\n") (single 1e-308) .latency).outcome = .ok chart ∧
        ∃ curve ∈ chart.curves, curve.baseline.isFinite = false ∧ ∃ y ∈ curve.series.values, y.isFinite = false) ∧
    ((single 60).check = .ok () ∧
      ∃ chart, (assemble (singleDisk "1 5 5 1e305\n" "5 5 1e305\n") (single 60) .saturation).outcome = .ok chart ∧
        ∃ curve ∈ chart.curves, curve.baseline.isFinite = false ∧ ∃ y ∈ curve.series.values, y.isFinite = false) := by
  refine ⟨⟨by decide +kernel, exists_infinite ?_⟩, ⟨by decide +kernel, exists_infinite ?_⟩⟩
  · decide +kernel
  · decide +kernel

theorem brief_window_rates :
    (single 1e-308).check = .ok () ∧
      ∃ chart, (assemble (singleDisk "1 5 5 5\n" "5 5 5\n") (single 1e-308) .latency).outcome = .ok chart ∧
        ∃ curve ∈ chart.curves, curve.baseline.isFinite = false ∧ 0 ≤ curve.baseline := by
  have hcheck : (single 1e-308).check = .ok () := by decide +kernel
  obtain ⟨chart, hchart, curve, hcurve, hinfinite, -⟩ := exists_infinite
    (o := (assemble (singleDisk "1 5 5 5\n" "5 5 5\n") (single 1e-308) .latency).outcome) (by decide +kernel)
  obtain ⟨i, hi⟩ := List.getElem?_of_mem hcurve
  obtain ⟨l, hl, rows, runs, ready, hswept, ⟨x, hmean, hshown⟩, -⟩ :=
    assemble_shows_rates _ _ _ chart hcheck hchart i curve hi
  exact ⟨hcheck, chart, hchart, curve, hcurve, hinfinite, hshown.clipped.nonneg⟩

end Chart
end LoadSweep
