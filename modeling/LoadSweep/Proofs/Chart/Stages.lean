import LoadSweep.Chart.Assembly
import LoadSweep.Proofs.Series
import LoadSweep.Proofs.Table.Groups

/-! A level is measured in stages: both data sets are opened and seen to have rows, the key column is looked up, the
means of the swept groups are turned into the metric in the order of their keys, and the mean of the baseline comes
last. `measure_eq_error_iff` says that the failure is that of the first stage that fails. -/
namespace LoadSweep

namespace Traced

theorem outcome_lift {ε α : Type} (x : Except ε α) : (liftM x : Traced ε α).outcome = x := rfl

theorem outcome_logged {ε : Type} (severity : Severity) (message : String) :
    (logged severity message : Traced ε Unit).outcome = .ok () := rfl

end Traced

/-- `rows` are the rows of the data set at a path. -/
def Opened (disk : Disk) (path : String) {width : Nat} (rows : List (Row width)) : Prop :=
  ∃ source, disk path = some source ∧ Table.read path width source = .ok ⟨path, width, rows⟩

/-- Why there are no rows to be had at a path. -/
inductive Unread (disk : Disk) (path : String) (width : Nat) : Failure → Prop
  | missing (absent : disk path = none) : Unread disk path width (.missingFile path)
  | unreadable {source : Source} (present : disk path = some source)
      (cut : Table.read path width source = .error (.unreadable path)) : Unread disk path width (.unreadable path)
  | malformed {source : Source} {line : Nat} {flaw : RowFlaw} (present : disk path = some source)
      (bad : Table.read path width source = .error (.malformedRow path line flaw)) :
      Unread disk path width (.malformedRow path line flaw)

namespace Table

theorem readRecords_error {path : String} {width : Nat} {rs : List Record} {e : Failure}
    (h : readRecords path width rs = .error e) : ∃ line flaw, e = .malformedRow path line flaw := by
  induction rs with
  | nil => simp [readRecords] at h
  | cons r rs ih =>
    rw [readRecords] at h
    cases hr : readRecord width r.bytes with
    | error flaw =>
      simp only [hr, Except.error.injEq] at h
      exact ⟨r.line, flaw, h.symm⟩
    | ok row =>
      simp only [hr, map_eq_error_iff] at h
      exact ih h

/-- Reading a table blames its path, and a row or the medium. -/
theorem read_error {path : String} {width : Nat} {s : Source} {e : Failure}
    (h : Table.read path width s = .error e) :
    e = .unreadable path ∨ ∃ line flaw, e = .malformedRow path line flaw := by
  unfold Table.read at h
  cases hrs : readRecords path width (Record.ofSource s) with
  | error found =>
    simp only [hrs, Except.error.injEq] at h
    exact .inr (readRecords_error (h ▸ hrs))
  | ok rows =>
    simp only [hrs] at h
    split_ifs at h
    exact .inl (by simpa using h.symm)

theorem read_ok {path : String} {width : Nat} {s : Source} {t : Table} (h : Table.read path width s = .ok t) :
    ∃ rows : List (Row width), t = ⟨path, width, rows⟩ := by
  unfold Table.read at h
  cases hrs : readRecords path width (Record.ofSource s) with
  | error found => simp [hrs] at h
  | ok rows =>
    simp only [hrs] at h
    split_ifs at h
    exact ⟨rows, by simpa using h.symm⟩

theorem outcome_load (disk : Disk) (path : String) (width : Nat) :
    (Table.load disk path width).outcome =
      match disk path with
      | none => .error (.missingFile path)
      | some source => Table.read path width source := by
  unfold Table.load
  cases disk path with
  | none => rfl
  | some source =>
    simp only [Traced.outcome_bind, Traced.outcome_lift, Traced.outcome_logged, Traced.outcome_pure]
    cases Table.read path width source <;> rfl

theorem load_eq_error_iff {disk : Disk} {path : String} {width : Nat} {e : Failure} :
    (Table.load disk path width).outcome = .error e ↔ Unread disk path width e := by
  rw [outcome_load]
  constructor
  · intro h
    cases hdisk : disk path with
    | none =>
      simp only [hdisk, Except.error.injEq] at h
      exact h ▸ .missing hdisk
    | some source =>
      simp only [hdisk] at h
      rcases read_error h with rfl | ⟨line, flaw, rfl⟩
      · exact .unreadable hdisk h
      · exact .malformed hdisk h
  · intro h
    cases h with
    | missing absent => simp [absent]
    | unreadable present cut => simp [present, cut]
    | malformed present bad => simp [present, bad]

theorem load_eq_ok_iff {disk : Disk} {path : String} {width : Nat} {t : Table} :
    (Table.load disk path width).outcome = .ok t ↔
      ∃ rows : List (Row width), t = ⟨path, width, rows⟩ ∧ Opened disk path rows := by
  rw [outcome_load]
  constructor
  · intro h
    cases hdisk : disk path with
    | none => simp [hdisk] at h
    | some source =>
      simp only [hdisk] at h
      obtain ⟨rows, rfl⟩ := read_ok h
      exact ⟨rows, rfl, source, hdisk, h⟩
  · rintro ⟨rows, rfl, source, hdisk, h⟩
    simp [hdisk, h]

end Table

theorem Opened.outcome_load {disk : Disk} {path : String} {width : Nat} {rows : List (Row width)}
    (opened : Opened disk path rows) : (Table.load disk path width).outcome = .ok ⟨path, width, rows⟩ :=
  Table.load_eq_ok_iff.2 ⟨rows, rfl, opened⟩

/-- A mean that a metric can be derived from: finite and not below zero. -/
def Physical (x : Float) : Prop := x.isFinite = true ∧ ¬x < 0

theorem derive_eq_error_iff {m : Metric} {window x : Float} {e : Failure} :
    m.derive window x = .error e ↔ ¬Physical x ∧ e = .outOfDomain m x := by
  by_cases hfinite : x.isFinite <;> by_cases hneg : x < 0 <;>
    simp [Metric.derive, Physical, hfinite, hneg, @eq_comm _ e]

theorem exists_derive_iff {m : Metric} {window x : Float} : (∃ y, m.derive window x = .ok y) ↔ Physical x := by
  by_cases hfinite : x.isFinite <;> by_cases hneg : x < 0 <;> simp [Metric.derive, Physical, hfinite, hneg]

theorem deriveSeries_eq_error_iff {m : Metric} {window : Float} {means : Series Float} {e : Failure} :
    m.deriveSeries window means = .error e ↔
      ∃ k x, means.get? k = some x ∧ (¬Physical x ∧ e = .outOfDomain m x) ∧
        ∀ j < k, ∀ y, means.get? j = some y → Physical y := by
  simp only [Metric.deriveSeries, Series.tryMap_eq_error_iff, derive_eq_error_iff, exists_derive_iff]

theorem exists_deriveSeries_iff {m : Metric} {window : Float} {means : Series Float} :
    (∃ series, m.deriveSeries window means = .ok series) ↔ ∀ k x, means.get? k = some x → Physical x := by
  constructor
  · rintro ⟨series, h⟩ k x hx
    exact exists_derive_iff.1 (Series.exists_ok_of_tryMap h hx)
  · intro hphysical
    cases h : m.deriveSeries window means with
    | ok series => exact ⟨series, rfl⟩
    | error e =>
      obtain ⟨k, x, hx, ⟨hbad, -⟩, -⟩ := deriveSeries_eq_error_iff.1 h
      exact absurd (hphysical k x hx) hbad

namespace Reduction

theorem apply_of_nil (r : Reduction) {t : Table} (hrows : t.rows = []) (value : Nat) :
    r.apply t value = .error (.emptyDataset t.source) := by
  cases r with
  | flat => exact Table.overallMean_of_nil hrows value
  | grouped c => rw [apply, Table.meanOfGroupMeans_eq_bind, Table.groupMean_of_nil hrows, error_bind]

theorem apply_of_width_le {t : Table} (hrows : t.rows ≠ []) {c : Nat} (hc : t.width ≤ c) (value : Nat) :
    (grouped c).apply t value = .error (.columnOutOfRange t.source c t.width) := by
  rw [apply, Table.meanOfGroupMeans_eq_bind, Table.groupMean_of_width_le hrows hc, error_bind]

theorem exists_apply {r : Reduction} {t : Table} (hrows : t.rows ≠ []) {value : Nat} (hvalue : value < t.width)
    (hcolumn : ∀ c, r = grouped c → c < t.width) : ∃ x, r.apply t value = .ok x := by
  cases r with
  | flat => exact ⟨_, Table.overallMean_of_ne_nil hrows hvalue⟩
  | grouped c =>
    rw [apply, Table.meanOfGroupMeans_eq_bind, Table.groupMean_of_ne_nil hrows (hcolumn c rfl) hvalue, ok_bind]
    exact ⟨_, rfl⟩

end Reduction

/-- `x` is the mean of the metric's column over the swept rows of one key. -/
def SweptMean (s : Settings) (m : Metric) (l : Level) (rows : List (Row 4)) (k : Key) (x : Float) : Prop :=
  ((Table.mk (s.sweptPath l) 4 rows).group 0 k).overallMean m.sweptColumn = .ok x

/-- `x` is the number that the baseline's rows are reduced to. -/
def BaselineMean (s : Settings) (m : Metric) (l : Level) (runs : List (Row 3)) (x : Float) : Prop :=
  s.reduction.apply ⟨s.baselinePath l, 3, runs⟩ m.baselineColumn = .ok x

/-- There is a mean for each key of a row. -/
theorem exists_sweptMean_iff {s : Settings} {m : Metric} {l : Level} {rows : List (Row 4)} {k : Key} :
    (∃ x, SweptMean s m l rows k x) ↔ ∃ row ∈ rows, row[0]?.map Key.ofFloat = some k := by
  have hgroup : ((Table.mk (s.sweptPath l) 4 rows).group 0 k).rows = [] ↔
      ∀ row ∈ rows, ¬decide (row[0]?.map Key.ofFloat = some k) = true := List.filter_eq_nil_iff
  simp only [SweptMean]
  by_cases hnil : ((Table.mk (s.sweptPath l) 4 rows).group 0 k).rows = []
  · have hnone := hgroup.1 hnil
    simp only [decide_eq_true_eq] at hnone
    rw [Table.overallMean_of_nil hnil]
    exact iff_of_false (by simp) fun ⟨row, hrow, hk⟩ => hnone row hrow hk
  · have hsome := mt hgroup.2 hnil
    simp only [decide_eq_true_eq, not_forall, not_not] at hsome
    obtain ⟨row, hrow, hk⟩ := hsome
    exact iff_of_true ⟨_, Table.overallMean_of_ne_nil hnil m.sweptColumn.isLt⟩ ⟨row, hrow, hk⟩

/-- Both data sets of a level can be reduced; none of this depends on a metric. -/
structure Ready (disk : Disk) (s : Settings) (l : Level) (rows : List (Row 4)) (runs : List (Row 3)) : Prop where
  swept : Opened disk (s.sweptPath l) rows
  sweptSome : rows ≠ []
  baseline : Opened disk (s.baselinePath l) runs
  baselineSome : runs ≠ []
  column : ∀ c, s.reduction = .grouped c → c < 3

/-- What keeps both data sets of a level from being reduced. -/
inductive Unready (disk : Disk) (s : Settings) (l : Level) : Failure → Prop
  | swept {e : Failure} (unread : Unread disk (s.sweptPath l) 4 e) : Unready disk s l e
  | sweptEmpty (swept : Opened disk (s.sweptPath l) ([] : List (Row 4))) :
      Unready disk s l (.emptyDataset (s.sweptPath l))
  | baseline {rows : List (Row 4)} {e : Failure} (swept : Opened disk (s.sweptPath l) rows) (sweptSome : rows ≠ [])
      (unread : Unread disk (s.baselinePath l) 3 e) : Unready disk s l e
  | baselineEmpty {rows : List (Row 4)} (swept : Opened disk (s.sweptPath l) rows) (sweptSome : rows ≠ [])
      (baseline : Opened disk (s.baselinePath l) ([] : List (Row 3))) :
      Unready disk s l (.emptyDataset (s.baselinePath l))
  | column {rows : List (Row 4)} {runs : List (Row 3)} {c : Nat} (swept : Opened disk (s.sweptPath l) rows)
      (sweptSome : rows ≠ []) (baseline : Opened disk (s.baselinePath l) runs) (baselineSome : runs ≠ [])
      (reduction : s.reduction = .grouped c) (out : 3 ≤ c) :
      Unready disk s l (.columnOutOfRange (s.baselinePath l) c 3)

/-- What a level is blamed for: the first of its stages that fails. -/
inductive Blamed (disk : Disk) (s : Settings) (m : Metric) (l : Level) : Failure → Prop
  | unready {e : Failure} (unready : Unready disk s l e) : Blamed disk s m l e
  | swept {rows : List (Row 4)} {runs : List (Row 3)} {k : Key} {x : Float} (ready : Ready disk s l rows runs)
      (mean : SweptMean s m l rows k x) (bad : ¬Physical x)
      (first : ∀ j < k, ∀ y, SweptMean s m l rows j y → Physical y) : Blamed disk s m l (.outOfDomain m x)
  | baseline {rows : List (Row 4)} {runs : List (Row 3)} {x : Float} (ready : Ready disk s l rows runs)
      (swept : ∀ k y, SweptMean s m l rows k y → Physical y) (mean : BaselineMean s m l runs x)
      (bad : ¬Physical x) : Blamed disk s m l (.outOfDomain m x)

namespace Blamed

variable {disk : Disk} {s : Settings} {m : Metric} {l : Level}

/-- Only the settings can name a column that is not there. -/
theorem of_columnOutOfRange {path : String} {c width : Nat}
    (h : Blamed disk s m l (.columnOutOfRange path c width)) :
    s.reduction = .grouped c ∧ 3 ≤ c ∧ path = s.baselinePath l ∧ width = 3 := by
  cases h with
  | unready unready =>
    cases unready with
    | swept unread => cases unread
    | baseline swept sweptSome unread => cases unread
    | column swept sweptSome baseline baselineSome reduction out => exact ⟨reduction, out, rfl, rfl⟩

/-- What does not depend on the metric comes before what does. -/
theorem unready_or_outOfDomain {e : Failure} (h : Blamed disk s m l e) :
    Unready disk s l e ∨ ∃ x, e = .outOfDomain m x := by
  cases h with
  | unready unready => exact .inl unready
  | swept ready mean bad first => exact .inr ⟨_, rfl⟩
  | baseline ready swept mean bad => exact .inr ⟨_, rfl⟩

end Blamed

namespace Ready

variable {disk : Disk} {s : Settings} {l : Level} {rows : List (Row 4)} {runs : List (Row 3)}

theorem exists_baselineMean (ready : Ready disk s l rows runs) (m : Metric) : ∃ x, BaselineMean s m l runs x :=
  Reduction.exists_apply (t := ⟨s.baselinePath l, 3, runs⟩) ready.baselineSome m.baselineColumn.isLt ready.column

/-- The means of the swept groups, by their keys. -/
theorem exists_means (ready : Ready disk s l rows runs) (m : Metric) :
    ∃ means, (Table.mk (s.sweptPath l) 4 rows).groupMean 0 m.sweptColumn = .ok means ∧
      ∀ k x, means.get? k = some x ↔ SweptMean s m l rows k x := by
  have hkey : 0 < (Table.mk (s.sweptPath l) 4 rows).width := show 0 < 4 by decide
  refine ⟨_, Table.groupMean_of_ne_nil ready.sweptSome hkey m.sweptColumn.isLt, ?_⟩
  intro k x
  rw [SweptMean, Table.get?_groupedMeans_rows hkey m.sweptColumn.isLt, toOption_eq_some_iff]

end Ready

/-- A level can be reduced, or something keeps it from that. -/
theorem ready_or_unready (disk : Disk) (s : Settings) (l : Level) :
    (∃ rows runs, Ready disk s l rows runs) ∨ ∃ e, Unready disk s l e := by
  cases hswept : (Table.load disk (s.sweptPath l) 4).outcome with
  | error e => exact .inr ⟨e, .swept (Table.load_eq_error_iff.1 hswept)⟩
  | ok t =>
    obtain ⟨rows, -, opened⟩ := Table.load_eq_ok_iff.1 hswept
    by_cases hrows : rows = []
    · subst hrows
      exact .inr ⟨_, .sweptEmpty opened⟩
    cases hbaseline : (Table.load disk (s.baselinePath l) 3).outcome with
    | error e => exact .inr ⟨e, .baseline opened hrows (Table.load_eq_error_iff.1 hbaseline)⟩
    | ok u =>
      obtain ⟨runs, -, openedBaseline⟩ := Table.load_eq_ok_iff.1 hbaseline
      by_cases hruns : runs = []
      · subst hruns
        exact .inr ⟨_, .baselineEmpty opened hrows openedBaseline⟩
      by_cases hcolumn : ∀ c, s.reduction = .grouped c → c < 3
      · exact .inl ⟨rows, runs, opened, hrows, openedBaseline, hruns, hcolumn⟩
      · obtain ⟨c, hc⟩ := not_forall.1 hcolumn
        obtain ⟨hreduction, hc⟩ := Classical.not_imp.1 hc
        exact .inr ⟨_, .column opened hrows openedBaseline hruns hreduction (Nat.not_lt.1 hc)⟩

namespace Chart

variable {disk : Disk} {s : Settings} {m : Metric} {l : Level}

theorem outcome_measure (disk : Disk) (s : Settings) (m : Metric) (l : Level) :
    (measure disk s m l).outcome = do
      let swept ← (Table.load disk (s.sweptPath l) 4).outcome
      let means ← swept.groupMean 0 m.sweptColumn
      let baseline ← (Table.load disk (s.baselinePath l) 3).outcome
      let mean ← s.reduction.apply baseline m.baselineColumn
      let series ← m.deriveSeries s.window means
      let derived ← m.derive s.window mean
      return (series, derived) := by
  simp only [measure, Traced.outcome_bind, Traced.outcome_lift, Traced.outcome_pure]
  rfl

/-- What keeps a level from being reduced is its failure under every metric. -/
theorem measure_of_unready {e : Failure} (unready : Unready disk s l e) (m : Metric) :
    (measure disk s m l).outcome = .error e := by
  have hmeans {rows : List (Row 4)} (h : rows ≠ []) :=
    Table.groupMean_of_ne_nil (t := ⟨s.sweptPath l, 4, rows⟩) h (show 0 < 4 by decide) m.sweptColumn.isLt
  rw [outcome_measure]
  cases unready with
  | swept unread => rw [Table.load_eq_error_iff.2 unread, error_bind]
  | sweptEmpty swept => rw [swept.outcome_load, ok_bind, Table.groupMean_of_nil rfl, error_bind]
  | baseline swept sweptSome unread =>
    rw [swept.outcome_load, ok_bind, hmeans sweptSome, ok_bind, Table.load_eq_error_iff.2 unread, error_bind]
  | baselineEmpty swept sweptSome baseline =>
    rw [swept.outcome_load, ok_bind, hmeans sweptSome, ok_bind, baseline.outcome_load, ok_bind,
      Reduction.apply_of_nil _ rfl, error_bind]
  | column swept sweptSome baseline baselineSome reduction out =>
    rw [swept.outcome_load, ok_bind, hmeans sweptSome, ok_bind, baseline.outcome_load, ok_bind, reduction,
      Reduction.apply_of_width_le baselineSome out, error_bind]

/-- Only the metric's own two stages are left of a level that is ready. -/
theorem measure_of_ready {rows : List (Row 4)} {runs : List (Row 3)} (ready : Ready disk s l rows runs) (m : Metric) :
    ∃ means mean, (∀ k x, means.get? k = some x ↔ SweptMean s m l rows k x) ∧ BaselineMean s m l runs mean ∧
      (measure disk s m l).outcome = do
        let series ← m.deriveSeries s.window means
        let derived ← m.derive s.window mean
        return (series, derived) := by
  obtain ⟨means, hmeans, hget⟩ := ready.exists_means m
  obtain ⟨mean, hmean⟩ := ready.exists_baselineMean m
  refine ⟨means, mean, hget, hmean, ?_⟩
  rw [outcome_measure, ready.swept.outcome_load, ok_bind, hmeans, ok_bind, ready.baseline.outcome_load, ok_bind]
  rw [BaselineMean] at hmean
  rw [hmean, ok_bind]

/-- The keys of what is measured are those of the swept rows. -/
theorem mem_keys_of_measure {rows : List (Row 4)} {runs : List (Row 3)} {series : Series Float} {baseline : Float}
    (ready : Ready disk s l rows runs) (h : (measure disk s m l).outcome = .ok (series, baseline)) {k : Key} :
    k ∈ series.keys ↔ ∃ row ∈ rows, row[0]?.map Key.ofFloat = some k := by
  obtain ⟨means, mean, hget, -, hmeasure⟩ := measure_of_ready ready m
  rw [hmeasure] at h
  cases hseries : m.deriveSeries s.window means with
  | error e => simp [hseries] at h
  | ok found =>
    cases hbaseline : m.derive s.window mean with
    | error e => simp [hseries, hbaseline] at h
    | ok derived =>
      simp only [hseries, hbaseline, ok_bind, pure, Except.pure, Except.ok.injEq, Prod.mk.injEq] at h
      rw [← h.1, Series.keys_of_tryMap hseries, Series.mem_keys, Option.isSome_iff_exists]
      simp only [hget, exists_sweptMean_iff]

/-- A level fails with what its first failing stage says. -/
theorem measure_eq_error_iff {e : Failure} : (measure disk s m l).outcome = .error e ↔ Blamed disk s m l e := by
  constructor
  · intro h
    rcases ready_or_unready disk s l with ⟨rows, runs, ready⟩ | ⟨found, unready⟩
    · obtain ⟨means, mean, hget, hmean, hmeasure⟩ := measure_of_ready ready m
      rw [hmeasure] at h
      -- the swept means come first, in the order of their keys, then the baseline
      cases hseries : m.deriveSeries s.window means with
      | error found =>
        rw [hseries, error_bind, Except.error.injEq] at h
        obtain ⟨k, x, hx, ⟨hbad, hfound⟩, hfirst⟩ := deriveSeries_eq_error_iff.1 hseries
        rw [← h, hfound]
        exact .swept ready ((hget k x).1 hx) hbad fun j hj y hy => hfirst j hj y ((hget j y).2 hy)
      | ok series =>
        have hphysical := exists_deriveSeries_iff.1 ⟨series, hseries⟩
        rw [hseries, ok_bind] at h
        cases hderived : m.derive s.window mean with
        | ok derived => simp [hderived, ok_bind, pure, Except.pure] at h
        | error found =>
          rw [hderived, error_bind, Except.error.injEq] at h
          obtain ⟨hbad, hfound⟩ := derive_eq_error_iff.1 hderived
          rw [← h, hfound]
          exact .baseline ready (fun k y hy => hphysical k y ((hget k y).2 hy)) hmean hbad
    · rw [measure_of_unready unready, Except.error.injEq] at h
      exact h ▸ .unready unready
  · intro h
    cases h with
    | unready unready => exact measure_of_unready unready m
    | @swept rows runs k x ready swept bad first =>
      obtain ⟨means, mean, hget, -, hmeasure⟩ := measure_of_ready ready m
      have hseries : m.deriveSeries s.window means = .error (.outOfDomain m x) := by
        refine deriveSeries_eq_error_iff.2 ⟨k, x, (hget k x).2 swept, ⟨bad, rfl⟩, ?_⟩
        intro j hj y hy
        exact first j hj y ((hget j y).1 hy)
      rw [hmeasure, hseries, error_bind]
    | baseline ready swept mean bad =>
      obtain ⟨means, found, hget, hfound, hmeasure⟩ := measure_of_ready ready m
      have hphysical (k : Key) (y : Float) (hy : means.get? k = some y) : Physical y := swept k y ((hget k y).1 hy)
      obtain ⟨series, hseries⟩ : ∃ series, m.deriveSeries s.window means = .ok series :=
        exists_deriveSeries_iff.2 hphysical
      obtain rfl := Except.ok.inj (hfound.symm.trans mean)
      rw [hmeasure, hseries, ok_bind, derive_eq_error_iff.2 ⟨bad, rfl⟩, error_bind]

/-- Nothing but the two data sets of a level matters for what is measured there. -/
theorem measure_congr {disk' : Disk} (hswept : disk (s.sweptPath l) = disk' (s.sweptPath l))
    (hbaseline : disk (s.baselinePath l) = disk' (s.baselinePath l)) (levels : List Level) :
    (measure disk s m l).outcome = (measure disk' { s with levels := levels } m l).outcome := by
  have hlevels : measure disk' { s with levels := levels } m l = measure disk' s m l := rfl
  simp only [hlevels, outcome_measure, Table.outcome_load, hswept, hbaseline]

end Chart
end LoadSweep
