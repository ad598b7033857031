import LoadSweep.Proofs.Chart.Layout
import LoadSweep.Proofs.Chart.Levels

/-! A report shows a dash where a curve has no value at a key of another curve. The first curve has a gap exactly at
the keys that some warning calls extra, and a later curve has the same keys as the first unless there is a warning
about it, so there are gaps exactly if there are warnings. -/
namespace LoadSweep

namespace Decimal

/-- Some characters without a minus. -/
def Unsigned (cs : List Char) : Prop := cs ≠ [] ∧ '-' ∉ cs

theorem unsigned_toDigits (n : Nat) : Unsigned (Nat.toDigits 10 n) := by
  refine ⟨Nat.toDigits_ne_nil, fun h => ?_⟩
  have hdigit := Nat.isDigit_of_mem_toDigits (by decide) (by decide) h
  exact absurd hdigit (by decide)

theorem Unsigned.signed_ne_dash {cs : List Char} (h : Unsigned cs) (s : Float.Model.UnpackedFloat.Sign) :
    signText s ++ cs ≠ ['-'] := by
  cases s with
  | negative =>
    intro heq
    exact h.1 (List.cons.inj heq).2
  | positive =>
    rintro rfl
    exact h.2 List.mem_cons_self

theorem write_ne_dash {zero : List Char} {digits : Nat → Int → List Char} (hzero : Unsigned zero)
    (hdigits : ∀ m e, Unsigned (digits m e)) (x : Float) : write zero digits x ≠ "-" := by
  have hdash : "-" = String.ofList ['-'] := rfl
  rw [write, hdash, ne_eq, String.ofList_inj]
  cases unpack x with
  | notANumber => simp
  | infinity s => exact Unsigned.signed_ne_dash ⟨by decide, by decide⟩ s
  | zero s => exact hzero.signed_ne_dash s
  | finite s m e hm => exact (hdigits m e).signed_ne_dash s

/-- With a point among them characters are some, and they have no minus if it was not there before. -/
theorem unsigned_point {ds : List Char} (h : '-' ∉ ds) (n : Nat) : Unsigned (ds.take n ++ '.' :: ds.drop n) := by
  refine ⟨by simp, ?_⟩
  simp only [List.mem_append, List.mem_cons, not_or]
  exact ⟨fun hmem => h (List.mem_of_mem_take hmem), by decide, fun hmem => h (List.mem_of_mem_drop hmem)⟩

theorem unsigned_withPlaces (places units : Nat) : Unsigned (withPlaces places units) := by
  have hdigits := unsigned_toDigits units
  generalize hds : List.replicate (places + 1 - (Nat.toDigits 10 units).length) '0' ++ Nat.toDigits 10 units = ds
  have hminus : '-' ∉ ds := by
    rw [← hds, List.mem_append, not_or]
    exact ⟨fun h => absurd (List.eq_of_mem_replicate h) (by decide), hdigits.2⟩
  simp only [withPlaces, hds]
  split_ifs
  · refine ⟨?_, hminus⟩
    rw [← hds]
    exact List.append_ne_nil_of_right_ne_nil _ hdigits.1
  · exact unsigned_point hminus _

theorem unsigned_place {ds : List Char} (h : '-' ∉ ds) (point : Int) : Unsigned (place ds point) := by
  have hzeros (n : Nat) : '-' ∉ List.replicate n '0' := fun hmem => absurd (List.eq_of_mem_replicate hmem) (by decide)
  unfold place
  split_ifs with hsmall hwhole
  · exact ⟨by simp, by simp [h, hzeros]⟩
  · refine ⟨?_, by simp [h, hzeros]⟩
    intro hnil
    have hlength := congrArg List.length hnil
    rw [List.length_append, List.length_replicate, List.length_nil] at hlength
    omega
  · exact unsigned_point h _

theorem unsigned_positional (d : Decimal) : Unsigned d.positional := by
  refine unsigned_place ?_ _
  intro hmem
  have hkept : '-' ∈ (Nat.toDigits 10 d.digits).reverse.dropWhile (· == '0') := List.mem_reverse.1 hmem
  exact (unsigned_toDigits d.digits).2 (List.mem_reverse.1 ((List.dropWhile_sublist _).subset hkept))

theorem fixed_ne_dash (places : Nat) (x : Float) : fixed places x ≠ "-" :=
  write_ne_dash (unsigned_withPlaces places 0) (fun _ _ => unsigned_withPlaces _ _) x

theorem plain_ne_dash (x : Float) : plain x ≠ "-" :=
  write_ne_dash ⟨by decide, by decide⟩ (fun _ _ => unsigned_positional _) x

end Decimal

theorem Key.text_ne_dash (k : Key) : k.text ≠ "-" := by
  have hwritten (s : Float.Model.UnpackedFloat.Sign) (n : Nat) :
      String.ofList (Decimal.signText s ++ Nat.toDigits 10 n) ≠ String.ofList ['-'] := by
    rw [ne_eq, String.ofList_inj]
    exact (Decimal.unsigned_toDigits n).signed_ne_dash s
  unfold Key.text
  cases k.whole? with
  | none => exact Decimal.plain_ne_dash _
  | some n =>
    cases n with
    | ofNat n => exact hwritten .positive n
    | negSucc n =>
      have happend := hwritten .negative (n + 1)
      rw [String.ofList_append] at happend
      exact happend

theorem valueCell_eq_dash_iff {k : Key} {curve : Curve} :
    Chart.valueCell k curve = "-" ↔ k ∉ curve.series.keys := by
  rw [Series.mem_keys, Chart.valueCell]
  cases curve.series.get? k with
  | none => exact iff_of_true rfl (by simp)
  | some x => exact iff_of_false (Decimal.fixed_ne_dash 3 x) (by simp)

namespace Divergence

variable {reference curve : Curve} {d : Divergence} {k : Key}

theorem between?_eq_none_iff : between? reference curve = none ↔ curve.series.keys = reference.series.keys := by
  simp [between?]

theorem mem_missing_iff (h : between? reference curve = some d) :
    k ∈ d.missing ↔ k ∈ reference.series.keys ∧ k ∉ curve.series.keys := by
  simp only [between?] at h
  split_ifs at h
  obtain rfl := Option.some.inj h
  simp

theorem mem_extra_iff (h : between? reference curve = some d) :
    k ∈ d.extra ↔ k ∈ curve.series.keys ∧ k ∉ reference.series.keys := by
  simp only [between?] at h
  split_ifs at h
  obtain rfl := Option.some.inj h
  simp

end Divergence

namespace Chart

variable {c : Chart} {first : Curve} {rest : List Curve} {k : Key}

theorem mem_ticks_iff : k ∈ c.ticks ↔ ∃ curve ∈ c.curves, k ∈ curve.series.keys := by
  simp [ticks, mem_unionKeys]

/-- The cell of a curve in the row of a key. -/
theorem keyCells_succ (c : Chart) (k : Key) (i : Nat) : (c.keyCells k)[i + 1]? = c.curves[i]?.map (valueCell k) := by
  rw [keyCells, List.getElem?_cons_succ, List.getElem?_map]

/-- The cell of a curve is a dash exactly if the curve lacks the key. -/
theorem cell_eq_dash_iff {i : Nat} {curve : Curve} (h : c.curves[i]? = some curve) :
    (c.keyCells k)[i + 1]? = some "-" ↔ k ∉ curve.series.keys := by
  rw [keyCells_succ, h, Option.map_some, Option.some.injEq, valueCell_eq_dash_iff]

theorem dash_mem_keyCells_iff : "-" ∈ c.keyCells k ↔ ∃ curve ∈ c.curves, k ∉ curve.series.keys := by
  rw [keyCells, List.mem_cons, List.mem_map]
  simp only [valueCell_eq_dash_iff, (Key.text_ne_dash k).symm, false_or]

/-- There is a warning exactly if a later curve has not the keys of the first. -/
theorem among_eq_nil_iff :
    Divergence.among (first :: rest) = [] ↔ ∀ curve ∈ rest, curve.series.keys = first.series.keys := by
  simp only [Divergence.among, List.filterMap_eq_nil_iff, Divergence.between?_eq_none_iff]

/-- There are no gaps if and only if all curves have the keys of the first. -/
theorem no_gaps_iff (hcurves : c.curves = first :: rest) :
    (∀ k ∈ c.ticks, "-" ∉ c.keyCells k) ↔ ∀ curve ∈ rest, curve.series.keys = first.series.keys := by
  simp only [dash_mem_keyCells_iff, mem_ticks_iff, hcurves]
  constructor
  · intro hfull curve hcurve
    have hall {k : Key} {a b : Curve} (ha : a ∈ first :: rest) (hb : b ∈ first :: rest) (hk : k ∈ a.series.keys) :
        k ∈ b.series.keys := by
      by_contra hgap
      exact hfull k ⟨a, ha, hk⟩ ⟨b, hb, hgap⟩
    have hlater : curve ∈ first :: rest := List.mem_cons_of_mem _ hcurve
    exact Series.keys_ext fun k => ⟨hall hlater List.mem_cons_self, hall List.mem_cons_self hlater⟩
  · rintro hsame k ⟨a, ha, hk⟩ ⟨b, hb, hgap⟩
    have hfirst {curve : Curve} (h : curve ∈ first :: rest) : curve.series.keys = first.series.keys := by
      rcases List.mem_cons.1 h with rfl | h
      · rfl
      · exact hsame curve h
    rw [hfirst hb, ← hfirst ha] at hgap
    exact hgap hk

/-- The first curve has a gap exactly at the keys that some warning calls extra. -/
theorem first_gap_iff (hcurves : c.curves = first :: rest) (hk : k ∈ c.ticks) :
    k ∉ first.series.keys ↔ ∃ w ∈ Divergence.among (first :: rest), k ∈ w.extra := by
  rw [mem_ticks_iff, hcurves] at hk
  constructor
  · intro hgap
    obtain ⟨curve, hcurve, hmem⟩ := hk
    rcases List.mem_cons.1 hcurve with rfl | hlater
    · exact absurd hmem hgap
    cases hw : Divergence.between? first curve with
    | none => exact absurd (Divergence.between?_eq_none_iff.1 hw ▸ hmem) hgap
    | some w =>
      exact ⟨w, List.mem_filterMap.2 ⟨curve, hlater, hw⟩, (Divergence.mem_extra_iff hw).2 ⟨hmem, hgap⟩⟩
  · rintro ⟨w, hw, hextra⟩
    obtain ⟨curve, -, hbetween⟩ := List.mem_filterMap.1 hw
    exact ((Divergence.mem_extra_iff hbetween).1 hextra).2

/-- Warnings and gaps of a report agree. The report is printed exactly if no cell has more bytes than the number of places
that a cell can be padded to, and then it is the table of the rows of keys and the row of baselines. There are no warnings
exactly if no row of a key has a dash in it; the first curve has a dash exactly in the rows of keys that some warning
calls extra; a later curve that has a warning has one in the rows of all keys that the warning calls missing; and a later
curve without a warning has one exactly where the first curve has. -/
theorem warnings_agree (disk : Disk) (s : Settings) (m : Metric) (chart : Chart)
    (h : (assemble disk s m).outcome = .ok chart) :
    (∀ text, chart.report = .ok text ↔
      (∀ row ∈ chart.headerCells :: (chart.keyRows ++ [chart.baselineCells]), ∀ cell ∈ row,
        cell.utf8ByteSize ≤ Report.widest) ∧
      Report.Tabulates (Report.widths chart.headerCells (chart.keyRows ++ [chart.baselineCells]))
        s!"== {chart.title} ({chart.yLabel}) ==" chart.headerCells (chart.keyRows ++ [chart.baselineCells])
        (chart.warnings.map fun w => s!"warning: {w.text}") text) ∧
    (∀ (i : Nat) k, chart.ticks[i]? = some k → chart.keyRows[i]? = some (chart.keyCells k)) ∧
    (chart.warnings = [] ↔ ∀ row ∈ chart.keyRows, "-" ∉ row) ∧
    ∀ first rest, chart.curves = first :: rest →
      (∀ k ∈ chart.ticks, (chart.keyCells k)[1]? = some "-" ↔ ∃ w ∈ chart.warnings, k ∈ w.extra) ∧
      ∀ i curve, rest[i]? = some curve →
        (∀ w, Divergence.between? first curve = some w → w ∈ chart.warnings ∧
          ∀ k ∈ w.missing, k ∈ chart.ticks ∧ (chart.keyCells k)[i + 2]? = some "-") ∧
        (Divergence.between? first curve = none → ∀ k ∈ chart.ticks,
          (chart.keyCells k)[i + 2]? = some "-" ↔ (chart.keyCells k)[1]? = some "-") := by
  refine ⟨fun text => report_eq_ok_iff_tabulates, fun i k hk => ?_, ?_⟩
  · rw [keyRows, List.getElem?_map, hk, Option.map_some]
  rw [(assemble_eq_ok h).2, keyRows, List.forall_mem_map]
  refine ⟨?_, ?_⟩
  · cases hcurves : chart.curves with
    | nil => simp [Divergence.among, mem_ticks_iff, hcurves]
    | cons first rest => rw [among_eq_nil_iff, no_gaps_iff hcurves]
  intro first rest hcurves
  have hfirst : chart.curves[0]? = some first := by rw [hcurves, List.getElem?_cons_zero]
  refine ⟨?_, ?_⟩
  · intro k hk
    rw [cell_eq_dash_iff hfirst, first_gap_iff hcurves hk, hcurves]
  intro i curve hi
  have hcurve : chart.curves[i + 1]? = some curve := by rw [hcurves, List.getElem?_cons_succ, hi]
  refine ⟨?_, ?_⟩
  · intro w hw
    refine ⟨?_, ?_⟩
    · rw [hcurves]
      exact List.mem_filterMap.2 ⟨curve, List.mem_of_getElem? hi, hw⟩
    intro k hk
    obtain ⟨hpresent, habsent⟩ := (Divergence.mem_missing_iff hw).1 hk
    exact ⟨mem_ticks_iff.2 ⟨first, List.mem_of_getElem? hfirst, hpresent⟩, (cell_eq_dash_iff hcurve).2 habsent⟩
  · intro hnone k _
    rw [cell_eq_dash_iff hcurve, cell_eq_dash_iff hfirst, Divergence.between?_eq_none_iff.1 hnone]

/-- Three loads, the last of which has a key that the others lack. -/
def widening : Disk := fun path =>
  if path = Settings.standard.sweptPath { load := 6000 } then some ⟨"1 5 5 5\n2 5 5 5\n".toUTF8.toList, false⟩
  else if path.startsWith "./sparse" then some ⟨"1 5 5 5\n".toUTF8.toList, false⟩
  else some ⟨"5 5 5\n".toUTF8.toList, false⟩

theorem widening_gaps :
    ∃ chart, (assemble widening .standard .latency).outcome = .ok chart ∧ chart.warnings ≠ [] ∧
      (∃ text, chart.report = .ok text) ∧ ∃ row ∈ chart.keyRows, "-" ∈ row := by
  have hone : ((assemble widening .standard .latency).outcome.toOption.map fun chart =>
      (chart.warnings.length, chart.report.isOk)) = some (1, true) := by decide +kernel
  obtain ⟨chart, hchart, hshown⟩ := Option.map_eq_some_iff.1 hone
  obtain ⟨hlength, hprinted⟩ := Prod.mk.inj hshown
  have hsome : chart.warnings ≠ [] := List.ne_nil_of_length_eq_add_one hlength
  obtain ⟨-, -, hgaps, -⟩ := warnings_agree _ _ _ chart (toOption_eq_some_iff.1 hchart)
  have hreport : ∃ text, chart.report = .ok text := by
    cases hresult : chart.report with
    | ok text => exact ⟨text, rfl⟩
    | error e => simp [hresult, Except.isOk, Except.toBool] at hprinted
  refine ⟨chart, toOption_eq_some_iff.1 hchart, hsome, hreport, ?_⟩
  by_contra! hfull
  exact hsome (hgaps.2 hfull)

/-- There is nothing to warn of, and no table either, if the label of the axis has one byte too many. -/
theorem unwarned_unprinted : ∃ chart,
    (assemble (fun _ => none)
      { Settings.standard with levels := [], axisLabel := String.ofList (List.replicate 65536 'x') } .latency).outcome =
        .ok chart ∧ chart.warnings = [] ∧ ∃ e, chart.report = .error e := by
  obtain ⟨chart, hchart, hnone, hlabel, -⟩ := exists_assemble_of_no_levels
    (s := { Settings.standard with levels := [], axisLabel := String.ofList (List.replicate 65536 'x') })
    (fun _ => none) .latency rfl
  refine ⟨chart, hchart, hnone, report_of_long_label ?_⟩
  rw [hlabel, utf8ByteSize_replicate]
  decide

end Chart
end LoadSweep
