import LoadSweep.Proofs.Chart.Panel
import LoadSweep.Proofs.Chart.Rates
import LoadSweep.Proofs.Key

/-! The keys of a chart come from files, so they are finite and their texts tell them apart, with one exception: a
file may have rows for zero and rows for negative zero. These are two keys, but both are written `0`. -/
namespace LoadSweep

namespace Chart

variable {disk : Disk} {s : Settings} {m : Metric} {chart : Chart} {j k : Key}

/-- The keys of a chart are finite. -/
theorem exists_finite_key (h : (assemble disk s m).outcome = .ok chart) (hk : k ∈ chart.ticks) :
    ∃ x : Float, x.isFinite = true ∧ Key.ofFloat x = k := by
  obtain ⟨curve, hcurve, hk⟩ := mem_ticks_iff.1 hk
  obtain ⟨i, hi⟩ := List.getElem?_of_mem hcurve
  obtain ⟨l, -, hmeasured⟩ := measured_at h hi
  obtain ⟨rows, runs, ready, -⟩ := measure_eq_ok hmeasured
  obtain ⟨row, hrow, hkey⟩ := (mem_keys_of_measure ready hmeasured).1 hk
  obtain ⟨source, -, hread⟩ := ready.swept
  have hvalue : row[0]? = some row[0] := getElem?_pos row 0 (by norm_num)
  rw [hvalue, Option.map_some, Option.some.injEq] at hkey
  exact ⟨row[0], Table.read_finite hread row hrow 0 (by norm_num), hkey⟩

theorem text_eq_iff_of_mem_ticks (h : (assemble disk s m).outcome = .ok chart) (hj : j ∈ chart.ticks)
    (hk : k ∈ chart.ticks) : j.text = k.text ↔ j = k ∨ j ∈ Key.zeros ∧ k ∈ Key.zeros := by
  obtain ⟨x, hx, rfl⟩ := exists_finite_key h hj
  obtain ⟨y, hy, rfl⟩ := exists_finite_key h hk
  exact Key.text_eq_iff hx hy

theorem text_eq_zero_iff_of_mem_ticks (h : (assemble disk s m).outcome = .ok chart) (hk : k ∈ chart.ticks) :
    k.text = "0" ↔ k ∈ Key.zeros := by
  obtain ⟨x, hx, rfl⟩ := exists_finite_key h hk
  exact Key.text_eq_zero_iff hx

theorem nodup_ticks (c : Chart) : c.ticks.Nodup :=
  (pairwise_unionKeys _).imp fun hlt => by
    rintro rfl
    exact Key.lt_irrefl _ hlt

/-- The cells of keys in a report differ, unless both zeros are among the keys. -/
theorem nodup_key_cells_iff (h : (assemble disk s m).outcome = .ok chart) :
    (chart.keyRows.map List.head?).Nodup ↔ ¬∀ k ∈ Key.zeros, k ∈ chart.ticks := by
  have hcells : chart.keyRows.map List.head? = chart.ticks.map fun k => some k.text := by
    rw [keyRows, List.map_map]
    rfl
  rw [hcells, List.nodup_map_iff_inj_on chart.nodup_ticks]
  simp only [Option.some.injEq]
  constructor
  · intro hdiffer hboth
    have hnegative : Key.ofFloat (-0) ∈ Key.zeros := List.mem_cons_self
    have hpositive : Key.ofFloat 0 ∈ Key.zeros := List.mem_cons_of_mem _ List.mem_cons_self
    have htext := (text_eq_iff_of_mem_ticks h (hboth _ hnegative) (hboth _ hpositive)).2 (.inr ⟨hnegative, hpositive⟩)
    have hne : Key.ofFloat (-0) ≠ Key.ofFloat 0 := by decide +kernel
    exact hne (hdiffer _ (hboth _ hnegative) _ (hboth _ hpositive) htext)
  · intro hone j hj k hk htext
    by_contra hne
    obtain ⟨hjzero, hkzero⟩ := ((text_eq_iff_of_mem_ticks h hj hk).1 htext).resolve_left hne
    refine hone fun i hi => ?_
    rcases Key.eq_or_eq_of_mem_zeros hjzero hkzero hne hi with rfl | rfl
    · exact hj
    · exact hk

/-- A warning is about two curves of the chart. -/
theorem exists_between? (h : (assemble disk s m).outcome = .ok chart) {w : Divergence} (hw : w ∈ chart.warnings) :
    ∃ reference ∈ chart.curves, ∃ curve ∈ chart.curves, Divergence.between? reference curve = some w := by
  rw [(assemble_eq_ok h).2] at hw
  cases hcurves : chart.curves with
  | nil =>
    rw [hcurves] at hw
    cases hw
  | cons first rest =>
    rw [hcurves] at hw
    obtain ⟨curve, hcurve, hbetween⟩ := List.mem_filterMap.1 hw
    exact ⟨first, List.mem_cons_self, curve, List.mem_cons_of_mem _ hcurve, hbetween⟩

/-- The text of a key is listed as missing and as extra only if it is that of the zeros and one of them is missing, the
other one extra. -/
theorem listed_twice_iff (h : (assemble disk s m).outcome = .ok chart) {w : Divergence} (hw : w ∈ chart.warnings)
    (cell : String) :
    cell ∈ w.missing.map Key.text ∧ cell ∈ w.extra.map Key.text ↔
      cell = "0" ∧ ∃ j ∈ Key.zeros, ∃ k ∈ Key.zeros, j ∈ w.missing ∧ k ∈ w.extra := by
  obtain ⟨reference, hreference, curve, hcurve, hbetween⟩ := exists_between? h hw
  have hmissing {j : Key} (hj : j ∈ w.missing) : j ∈ chart.ticks ∧ j ∉ curve.series.keys := by
    obtain ⟨hold, hgone⟩ := (Divergence.mem_missing_iff hbetween).1 hj
    exact ⟨mem_ticks_iff.2 ⟨reference, hreference, hold⟩, hgone⟩
  have hextra {k : Key} (hk : k ∈ w.extra) : k ∈ chart.ticks ∧ k ∈ curve.series.keys := by
    obtain ⟨hnew, -⟩ := (Divergence.mem_extra_iff hbetween).1 hk
    exact ⟨mem_ticks_iff.2 ⟨curve, hcurve, hnew⟩, hnew⟩
  rw [List.mem_map, List.mem_map]
  constructor
  · rintro ⟨⟨j, hj, rfl⟩, k, hk, htext⟩
    have hne : k ≠ j := by
      rintro rfl
      exact (hmissing hj).2 (hextra hk).2
    obtain ⟨hkzero, hjzero⟩ :=
      ((text_eq_iff_of_mem_ticks h (hextra hk).1 (hmissing hj).1).1 htext).resolve_left hne
    exact ⟨(text_eq_zero_iff_of_mem_ticks h (hmissing hj).1).2 hjzero, j, hjzero, k, hkzero, hj, hk⟩
  · rintro ⟨rfl, j, hjzero, k, hkzero, hj, hk⟩
    exact ⟨⟨j, hj, (text_eq_zero_iff_of_mem_ticks h (hmissing hj).1).2 hjzero⟩,
      k, hk, (text_eq_zero_iff_of_mem_ticks h (hextra hk).1).2 hkzero⟩

/-- Finite keys of one text are one key or the two zeros. So the cells of keys in the report of a chart are pairwise
different unless both zeros are among its keys, and no text of a key is listed twice in a warning, as missing and as
extra, unless one zero is missing and the other one extra. -/
theorem keys_told_apart (a b : Float) (ha : a.isFinite = true) (hb : b.isFinite = true) (disk : Disk) (s : Settings)
    (m : Metric) :
    ((Key.ofFloat a).text = (Key.ofFloat b).text ↔
      Key.ofFloat a = Key.ofFloat b ∨ Key.ofFloat a ∈ Key.zeros ∧ Key.ofFloat b ∈ Key.zeros) ∧
    ∀ chart, (assemble disk s m).outcome = .ok chart →
      ((chart.keyRows.map List.head?).Nodup ↔ ¬∀ k ∈ Key.zeros, k ∈ chart.ticks) ∧
      ∀ w ∈ chart.warnings, ∀ cell, cell ∈ w.missing.map Key.text ∧ cell ∈ w.extra.map Key.text ↔
        cell = "0" ∧ ∃ j ∈ Key.zeros, ∃ k ∈ Key.zeros, j ∈ w.missing ∧ k ∈ w.extra :=
  ⟨Key.text_eq_iff ha hb, fun _ h => ⟨nodup_key_cells_iff h, fun _ hw => listed_twice_iff h hw⟩⟩

theorem keys_told_apart_widening :
    (1e300 : Float).isFinite = true ∧ (0.1 : Float).isFinite = true ∧
      (Key.ofFloat 1e300).text ≠ (Key.ofFloat 0.1).text ∧
      ∃ chart, (assemble widening .standard .latency).outcome = .ok chart ∧ (chart.keyRows.map List.head?).Nodup := by
  have hlarge : (1e300 : Float).isFinite = true := by decide +kernel
  have hsmall : (0.1 : Float).isFinite = true := by decide +kernel
  obtain ⟨htexts, hcharts⟩ := keys_told_apart 1e300 0.1 hlarge hsmall widening .standard .latency
  have hticks : (assemble widening .standard .latency).outcome.toOption.map ticks = some [.ofFloat 1, .ofFloat 2] := by
    decide +kernel
  obtain ⟨chart, hchart, hkeys⟩ := Option.map_eq_some_iff.1 hticks
  refine ⟨hlarge, hsmall, ?_, chart, toOption_eq_some_iff.1 hchart, ?_⟩
  · rw [ne_eq, htexts]
    decide +kernel
  · rw [(hcharts chart (toOption_eq_some_iff.1 hchart)).1, hkeys]
    decide +kernel

/-- Three loads, the last of which has rows for negative zero instead of zero. -/
def opposite : Disk := fun path =>
  if path = Settings.standard.sweptPath { load := 6000 } then some ⟨"-0 5 5 5\n".toUTF8.toList, false⟩
  else if path.startsWith "./sparse" then some ⟨"0 5 5 5\n".toUTF8.toList, false⟩
  else some ⟨"5 5 5\n".toUTF8.toList, false⟩

/-- Both zeros have a row, with the same text in front, and a warning lists that text twice. -/
theorem zeros_told_alike :
    (Key.ofFloat 0 ≠ Key.ofFloat (-0) ∧ (Key.ofFloat 0).text = (Key.ofFloat (-0)).text) ∧
      ∃ chart, (assemble opposite .standard .latency).outcome = .ok chart ∧
        chart.keyRows.map List.head? = [some "0", some "0"] ∧
        chart.warnings.map Divergence.text = ["6Gb/sec keys differ from 2Gb/sec; missing [0]; extra [0]"] := by
  have hcharts : (assemble opposite .standard .latency).outcome.toOption.map
      (fun c => (c.keyRows.map List.head?, c.warnings.map Divergence.text)) =
        some ([some "0", some "0"], ["6Gb/sec keys differ from 2Gb/sec; missing [0]; extra [0]"]) := by
    decide +kernel
  obtain ⟨chart, hchart, htexts⟩ := Option.map_eq_some_iff.1 hcharts
  obtain ⟨hcells, hwarnings⟩ := Prod.mk.inj htexts
  exact ⟨⟨by decide +kernel, by decide +kernel⟩, chart, toOption_eq_some_iff.1 hchart, hcells, hwarnings⟩

end Chart
end LoadSweep
