import LoadSweep.Proofs.Chart.Divergence
import LoadSweep.Proofs.Decimal.Expansion
import LoadSweep.Proofs.Settings.Paths

/-! A level without a label of its own is labelled with the decimal expansion of a thousandth of its load, so its
label tells its load, and with it the columns, the legend and the warnings of a chart tell their levels. -/
namespace LoadSweep

open Double
open Float.Model (UnpackedFloat)
open Float.Model.UnpackedFloat (pack unpack)

namespace Level

open Decimal

theorem value_toFloat (load : UInt32) : load.toFloat.isFinite = true ∧ value load.toFloat = load.toNat := by
  have hunpack : Decimal.unpack load.toFloat =
      unpack .binary64 (pack .binary64 (UnpackedFloat.normalize .binary64 (load.toNat : ℤ) 0 .positive)) := rfl
  have hlt := load.toNat_lt
  have hshows := shows_natCast (n := load.toNat) (by omega)
  rw [← hunpack] at hshows
  exact ⟨hshows.isFinite, hshows.value⟩

theorem number_thousandths (n : Nat) : (Decimal.mk n (-3)).number = n / 1000 := by
  rw [number, zpow_neg, div_eq_mul_inv]
  norm_num

theorem isRounded_thousandths (load : UInt32) : IsRounded (Decimal.mk load.toNat (-3)).number (load.toFloat / 1000) := by
  obtain ⟨hload, hvalue⟩ := value_toFloat load
  obtain ⟨hthousand, hvalue'⟩ := value_ofNat (n := 1000) (by norm_num)
  have hquotient := isRounded_div hload hthousand (by rw [hvalue']; norm_num)
  rwa [hvalue, hvalue', Nat.cast_ofNat, ← number_thousandths] at hquotient

/-- The quotient of doubles is rounded, but its text is the expansion of the exact one. -/
theorem expands_thousandths {load : UInt32} (h : 0 < load.toNat) :
    Expands (load.toNat / 1000) (plain (load.toFloat / 1000)).toList := by
  have hlt := load.toNat_lt
  have hone : (1 : ℚ) ≤ load.toNat := by exact_mod_cast h
  have hover := natCast_lt_overflow (n := load.toNat) (by omega)
  rw [← number_thousandths]
  refine expands_plain (isRounded_thousandths load) h (hlt.trans (by norm_num)) ?_ ?_
  · rw [number_thousandths]
    calc (2 : ℚ) ^ (-1022 : ℤ) ≤ 2 ^ (-10 : ℤ) := zpow_le_zpow_right₀ (by norm_num) (by norm_num)
      _ ≤ load.toNat / 1000 := by norm_num; linarith
  · rw [number_thousandths]
    linarith

/-- A load as text is the expansion of its thousandth and the unit. -/
theorem exists_rate (load : UInt32) :
    ∃ cs, Expands (load.toNat / 1000) cs ∧ rate load = String.ofList cs ++ "Gb/sec" := by
  have hmod : (load % 1000).toNat = load.toNat % 1000 := UInt32.toNat_mod load 1000
  unfold rate
  split_ifs with h
  · have hwhole : 1000 * (load.toNat / 1000) = load.toNat := by
      rw [h] at hmod
      have hzero : load.toNat % 1000 = 0 := hmod.symm
      omega
    have hquotient : (load.toNat / 1000 : ℚ) = (load.toNat / 1000 : ℕ) := by
      rw [div_eq_iff (by norm_num), mul_comm]
      exact_mod_cast hwhole.symm
    have htext := toList_toString (load / 1000)
    have hdiv : (load / 1000).toNat = load.toNat / 1000 := UInt32.toNat_div load 1000
    rw [hdiv] at htext
    refine ⟨_, hquotient ▸ expands_toDigits _, ?_⟩
    rw [← htext, String.ofList_toList]
    rfl
  · have hsome : 0 < load.toNat := by
      by_contra! hzero
      refine h (UInt32.toNat_inj.1 ?_)
      rw [hmod, Nat.le_zero.1 hzero]
      rfl
    refine ⟨_, expands_thousandths hsome, ?_⟩
    rw [String.ofList_toList]
    rfl

variable {l k : Level}

theorem label_of_none (h : l.given = none) : l.label = rate l.load := by
  rw [label, h, Option.getD_none]

/-- Different loads have different labels. -/
theorem rate_inj {load other : UInt32} : rate load = rate other ↔ load = other := by
  refine ⟨fun h => ?_, congrArg rate⟩
  obtain ⟨cs, hcs, hrate⟩ := exists_rate load
  obtain ⟨ds, hds, hrate'⟩ := exists_rate other
  rw [hrate, hrate', String.append_left_inj, String.ofList_inj] at h
  have hthousandth := hcs.number_unique (h ▸ hds)
  rw [div_left_inj' (by norm_num)] at hthousandth
  exact UInt32.toNat_inj.1 (by exact_mod_cast hthousandth)

theorem label_inj (hl : l.given = none) (hk : k.given = none) : l.label = k.label ↔ l.load = k.load := by
  rw [label_of_none hl, label_of_none hk, rate_inj]

theorem space_notMem_label (h : l.given = none) : ' ' ∉ l.label.toList := by
  obtain ⟨cs, hcs, hrate⟩ := exists_rate l.load
  rw [label_of_none h, hrate, String.toList_append, String.toList_ofList, List.mem_append, not_or]
  refine ⟨fun hmem => ?_, by decide⟩
  rcases hcs.isDigit_or_point ' ' hmem with hdigit | hpoint
  · exact absurd hdigit (by decide)
  · exact absurd hpoint (by decide)

end Level

/-- A text tells what stands in front of its first space. -/
theorem eq_of_first_space {cs ds rest rest' : List Char} (hcs : ' ' ∉ cs) (hds : ' ' ∉ ds)
    (h : cs ++ ' ' :: rest = ds ++ ' ' :: rest') : cs = ds := by
  have hfront {cs : List Char} (hcs : ' ' ∉ cs) (rest : List Char) : (cs ++ ' ' :: rest).takeWhile (· ≠ ' ') = cs := by
    rw [List.takeWhile_append_of_pos fun c hc => decide_eq_true (ne_of_mem_of_not_mem hc hcs)]
    simp
  rw [← hfront hcs rest, h, hfront hds rest']

/-- An entry of a legend tells what stands behind its last space. -/
theorem entry_inj {v w a b : String} (ha : ' ' ∉ a.toList) (hb : ' ' ∉ b.toList) :
    s!"{v} {a}" = s!"{w} {b}" ↔ v = w ∧ a = b := by
  have hentry (name label : String) : (s!"{name} {label}").toList = name.toList ++ ' ' :: label.toList := by
    simp [toString]
  rw [← String.toList_inj, hentry, hentry, append_separator_inj ha hb, String.toList_inj, String.toList_inj]

namespace Divergence

variable {v w : Divergence}

/-- A warning begins with the label of its level. -/
theorem toList_text (w : Divergence) : ∃ rest, w.text.toList = w.level.toList ++ ' ' :: rest := by
  have hfront (level reference missing extra : String) :
      (s!"{level} keys differ from {reference}" ++ missing ++ extra).toList =
        level.toList ++ ' ' :: ("keys differ from " ++ reference ++ missing ++ extra).toList := by
    simp [toString]
  exact ⟨_, hfront _ _ _ _⟩

theorem level_eq_of_text (hv : ' ' ∉ v.level.toList) (hw : ' ' ∉ w.level.toList) (h : v.text = w.text) :
    v.level = w.level := by
  obtain ⟨rest, hrest⟩ := toList_text v
  obtain ⟨rest', hrest'⟩ := toList_text w
  rw [h, hrest'] at hrest
  exact String.toList_inj.1 (eq_of_first_space hv hw hrest.symm)

end Divergence

namespace Chart

open Decimal

variable {disk : Disk} {s : Settings} {m : Metric} {chart : Chart} {i : Nat} {l : Level}

theorem headerCells_succ (c : Chart) (i : Nat) : c.headerCells[i + 1]? = c.curves[i]?.map (·.label) := by
  rw [headerCells, List.getElem?_cons_succ, List.getElem?_map]

/-- The curve of a level bears its label. -/
theorem exists_labelled (h : (assemble disk s m).outcome = .ok chart) (hi : s.levels[i]? = some l) :
    ∃ a, chart.curves[i]? = some a ∧ a.label = l.label := by
  obtain ⟨measured, -, hcurve⟩ := (curvesFrom_eq_ok (curvesFrom_of_assemble h)).2 i l hi
  exact ⟨_, hcurve, rfl⟩

/-- The label of a level that has none of its own is the one expansion of a thousandth of its load and the unit, so two
such levels have the same label only if they have the same load. In a chart they then have different headers, different
entries in the legend, whichever variant these are of, and different warnings about them, and a warning about one with
the other as its reference names two labels. -/
theorem labels_exact :
    (∀ l : Level, l.given = none → (∃! cs, Expands (l.load.toNat / 1000) cs) ∧
      ∀ cs, Expands (l.load.toNat / 1000) cs → l.label = String.ofList cs ++ "Gb/sec") ∧
    (∀ l k : Level, l.given = none → k.given = none → (l.label = k.label ↔ l.load = k.load)) ∧
    ∀ (disk : Disk) (s : Settings) (m : Metric) (chart : Chart), (assemble disk s m).outcome = .ok chart →
      chart.warnings = Divergence.among chart.curves ∧
      ∀ (i j : Nat) (l k : Level), s.levels[i]? = some l → s.levels[j]? = some k → l.given = none → k.given = none →
        l.load ≠ k.load → ∃ a b : Curve, chart.curves[i]? = some a ∧ chart.curves[j]? = some b ∧
          (chart.headerCells[i + 1]? = some l.label ∧ chart.headerCells[j + 1]? = some k.label ∧ l.label ≠ k.label) ∧
          (chart.sweptEntry a ≠ chart.sweptEntry b ∧ chart.baselineEntry a ≠ chart.baselineEntry b ∧
            chart.sweptEntry a ≠ chart.baselineEntry b) ∧
          (∀ (reference : Curve) (v w : Divergence), Divergence.between? reference a = some v →
            Divergence.between? reference b = some w → v.text ≠ w.text) ∧
          ∀ w : Divergence, Divergence.between? a b = some w →
            w.reference = l.label ∧ w.level = k.label ∧ w.reference ≠ w.level := by
  refine ⟨?_, fun l k => Level.label_inj, ?_⟩
  · intro l hl
    obtain ⟨cs, hcs, hrate⟩ := Level.exists_rate l.load
    rw [Level.label_of_none hl, hrate]
    exact ⟨⟨cs, hcs, fun ds hds => hds.unique hcs⟩, fun ds hds => by rw [hds.unique hcs]⟩
  · intro disk s m chart h
    refine ⟨(assemble_eq_ok h).2, ?_⟩
    intro i j l k hi hj hl hk hloads
    obtain ⟨a, ha, hal⟩ := exists_labelled h hi
    obtain ⟨b, hb, hbk⟩ := exists_labelled h hj
    have hlabels : l.label ≠ k.label := fun heq => hloads ((Level.label_inj hl hk).1 heq)
    have hspace : ' ' ∉ a.label.toList := hal ▸ Level.space_notMem_label hl
    have hspace' : ' ' ∉ b.label.toList := hbk ▸ Level.space_notMem_label hk
    have hentries (v w : String) : s!"{v} {a.label}" ≠ s!"{w} {b.label}" := by
      intro heq
      have hlabel := ((entry_inj hspace hspace').1 heq).2
      rw [hal, hbk] at hlabel
      exact hlabels hlabel
    refine ⟨a, b, ha, hb, ⟨?_, ?_, hlabels⟩, ⟨hentries _ _, hentries _ _, hentries _ _⟩, ?_, ?_⟩
    · rw [headerCells_succ, ha, Option.map_some, hal]
    · rw [headerCells_succ, hb, Option.map_some, hbk]
    · intro reference v w hv hw htext
      have hvl := (Divergence.tells_of_between? hv).level_eq
      have hwk := (Divergence.tells_of_between? hw).level_eq
      have hlevel := Divergence.level_eq_of_text (hvl ▸ hspace) (hwk ▸ hspace') htext
      rw [hvl, hwk, hal, hbk] at hlevel
      exact hlabels hlevel
    · intro w hw
      have htells := Divergence.tells_of_between? hw
      rw [htells.reference_eq, htells.level_eq, hal, hbk]
      exact ⟨rfl, rfl, hlabels⟩

/-- A load that is no multiple of a thousand, and a chart of loads that are. -/
theorem labels_exact_widening :
    Level.label { load := 2500 } = "2.5Gb/sec" ∧ Level.label { load := 2500 } ≠ Level.label { load := 2501 } ∧
      ∃ chart, (assemble widening .standard .latency).outcome = .ok chart ∧
        ∃ a b, chart.curves[0]? = some a ∧ chart.curves[2]? = some b ∧ chart.sweptEntry a ≠ chart.baselineEntry b := by
  obtain ⟨hexact, hinj, hchart⟩ := labels_exact
  have hexpands : Expands ((2500 : UInt32).toNat / 1000) ['2', '.', '5'] := by
    have hload : (2500 : UInt32).toNat = 2500 := rfl
    have hfraction : valueOf ['5'] = 5 := rfl
    refine ⟨2, ['5'], ⟨List.forall_mem_singleton.2 rfl, by decide, ?_⟩, rfl⟩
    rw [hload, hfraction]
    norm_num
  refine ⟨(hexact { load := 2500 } rfl).2 _ hexpands, ?_, ?_⟩
  · exact fun h => absurd ((hinj { load := 2500 } { load := 2501 } rfl rfl).1 h) (by decide)
  have hsome : (assemble widening .standard .latency).outcome.toOption.isSome := by decide +kernel
  obtain ⟨chart, hok⟩ := Option.isSome_iff_exists.1 hsome
  have hassembled := toOption_eq_some_iff.1 hok
  obtain ⟨a, b, ha, hb, -, ⟨-, -, hentries⟩, -⟩ :=
    (hchart _ _ _ chart hassembled).2 0 2 _ _ rfl rfl rfl rfl (by decide)
  exact ⟨chart, hassembled, a, b, ha, hb, hentries⟩

end Chart
end LoadSweep
