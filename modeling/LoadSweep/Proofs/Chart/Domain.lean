import LoadSweep.Proofs.Chart.Stages
import LoadSweep.Proofs.Table.Means

/-! A metric is derived from means only if they are finite and not below zero. The numbers of data sets are finite,
and the mean of finite numbers that are not below zero is one of them, so only a negative number in a data set can
keep a metric from being derived. -/
namespace LoadSweep

open Double

theorem physical_iff {x : Float} : Physical x ↔ Within 0 largest x := by
  constructor
  · rintro ⟨hfinite, hnonneg⟩
    rw [lt_zero_iff hfinite, not_lt] at hnonneg
    exact ⟨hfinite, hnonneg, (le_abs_self _).trans (abs_value_le hfinite)⟩
  · rintro ⟨hfinite, hnonneg, -⟩
    exact ⟨hfinite, fun h => not_lt.2 hnonneg ((lt_zero_iff hfinite).1 h)⟩

theorem largest_sub_zero_lt : largest - 0 < overflow := by
  rw [sub_zero]
  exact largest_lt_overflow

section

variable {disk : Disk} {path : String} {width : Nat} {rows : List (Row width)}

theorem Opened.physical (opened : Opened disk path rows) {column : Nat} (hcolumn : column < width)
    (hrows : ∀ row ∈ rows, ¬row[column] < 0) : ∀ row ∈ rows, Within 0 largest row[column] := by
  obtain ⟨source, -, hread⟩ := opened
  exact fun row hrow => physical_iff.1 ⟨Table.read_finite hread row hrow column hcolumn, hrows row hrow⟩

end

theorem Reduction.apply_within {r : Reduction} {t : Table} {low high : ℚ} {value : Nat} {x : Float}
    (hrange : high - low < overflow) (hvalue : value < t.width)
    (hrows : ∀ row ∈ t.rows, Within low high row[value]) (h : r.apply t value = .ok x) : Within low high x := by
  cases r with
  | flat => exact Table.overallMean_within hrange hvalue hrows h
  | grouped column => exact Table.meanOfGroupMeans_within hrange hvalue hrows h

section

variable {disk : Disk} {s : Settings} {m : Metric} {l : Level} {rows : List (Row 4)} {runs : List (Row 3)} {x : Float}

theorem SweptMean.physical {k : Key} (opened : Opened disk (s.sweptPath l) rows)
    (hrows : ∀ row ∈ rows, ¬row[m.sweptColumn] < 0) (mean : SweptMean s m l rows k x) : Physical x :=
  physical_iff.2 (Table.group_overallMean_within (t := ⟨s.sweptPath l, 4, rows⟩) largest_sub_zero_lt
    m.sweptColumn.isLt (opened.physical m.sweptColumn.isLt hrows) mean)

theorem BaselineMean.physical (opened : Opened disk (s.baselinePath l) runs)
    (hruns : ∀ run ∈ runs, ¬run[m.baselineColumn] < 0) (mean : BaselineMean s m l runs x) : Physical x :=
  physical_iff.2 (Reduction.apply_within (t := ⟨s.baselinePath l, 3, runs⟩) largest_sub_zero_lt
    m.baselineColumn.isLt (opened.physical m.baselineColumn.isLt hruns) mean)

end

namespace Chart

theorem exists_measured {disk : Disk} {s : Settings} {m : Metric} {l : Level} {rows : List (Row 4)}
    {runs : List (Row 3)} (ready : Ready disk s l rows runs) (hrows : ∀ row ∈ rows, ¬row[m.sweptColumn] < 0)
    (hruns : ∀ run ∈ runs, ¬run[m.baselineColumn] < 0) :
    ∃ series baseline, (measure disk s m l).outcome = .ok (series, baseline) := by
  obtain ⟨means, mean, hget, hmean, hmeasure⟩ := measure_of_ready ready m
  have hswept (k : Key) (x : Float) (hx : means.get? k = some x) : Physical x :=
    ((hget k x).1 hx).physical ready.swept hrows
  obtain ⟨series, hseries⟩ := exists_deriveSeries_iff.2 hswept
  obtain ⟨baseline, hbaseline⟩ := exists_derive_iff.2 (hmean.physical ready.baseline hruns)
  refine ⟨series, baseline, ?_⟩
  rw [hmeasure, hseries, ok_bind, hbaseline, ok_bind]
  rfl

/-- A level that is out of a metric's domain has a negative number in the metric's column of a data set. A level
whose data sets can be reduced and have none there can be measured, whatever its numbers. -/
theorem measure_outOfDomain_negative (disk : Disk) (s : Settings) (m : Metric) (l : Level) :
    (∀ m' x, (measure disk s m l).outcome = .error (.outOfDomain m' x) →
      ∃ (rows : List (Row 4)) (runs : List (Row 3)),
        Opened disk (s.sweptPath l) rows ∧ Opened disk (s.baselinePath l) runs ∧
        ((∃ row ∈ rows, row[m.sweptColumn] < 0) ∨ ∃ run ∈ runs, run[m.baselineColumn] < 0)) ∧
    ∀ rows runs, Ready disk s l rows runs →
      (∀ row ∈ rows, ¬row[m.sweptColumn] < 0) → (∀ run ∈ runs, ¬run[m.baselineColumn] < 0) →
      ∃ series baseline, (measure disk s m l).outcome = .ok (series, baseline) := by
  constructor
  · intro m' x h
    cases measure_eq_error_iff.1 h with
    | unready unready =>
      cases unready with
      | swept unread => cases unread
      | baseline swept sweptSome unread => cases unread
    | @swept rows runs k x ready mean bad first =>
      refine ⟨rows, runs, ready.swept, ready.baseline, .inl ?_⟩
      by_contra! hrows
      exact bad (mean.physical ready.swept hrows)
    | @baseline rows runs x ready swept mean bad =>
      refine ⟨rows, runs, ready.swept, ready.baseline, .inr ?_⟩
      by_contra! hruns
      exact bad (mean.physical ready.baseline hruns)
  · intro rows runs ready hrows hruns
    exact exists_measured ready hrows hruns

/-- Settings of one load with a window of their own. -/
def single (window : Float) : Settings := { Settings.standard with window := window, levels := [{ load := 1 }] }

/-- The data sets of one load. -/
def singleDisk (swept baseline : String) : Disk := fun path =>
  some ⟨(if path = (single 60).baselinePath { load := 1 } then baseline else swept).toUTF8.toList, false⟩

/-- A negative mean is traced to the baseline. -/
theorem measure_negative_baseline :
    ∃ x, (measure (singleDisk "1 5 5 5\n" "5 -5 5\n") (single 60) .latency { load := 1 }).outcome =
        .error (.outOfDomain .latency x) ∧
      ∃ (rows : List (Row 4)) (runs : List (Row 3)),
        Opened (singleDisk "1 5 5 5\n" "5 -5 5\n") ((single 60).sweptPath { load := 1 }) rows ∧
        Opened (singleDisk "1 5 5 5\n" "5 -5 5\n") ((single 60).baselinePath { load := 1 }) runs ∧
        ((∃ row ∈ rows, row[Metric.latency.sweptColumn] < 0) ∨ ∃ run ∈ runs, run[Metric.latency.baselineColumn] < 0) := by
  have hbad : (measure (singleDisk "1 5 5 5\n" "5 -5 5\n") (single 60) .latency { load := 1 }).outcome =
      .error (.outOfDomain .latency (-5)) := (map_eq_error_iff (f := fun _ => ())).1 (by decide +kernel)
  exact ⟨-5, hbad, (measure_outOfDomain_negative _ _ _ _).1 _ _ hbad⟩

end Chart
end LoadSweep
