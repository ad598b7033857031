import LoadSweep.CommandLine.Comparison
import LoadSweep.Proofs.Double.Unpacked

/-! `check` is the test for `Settings.Valid`. The command line names three fields and leaves all others as they are,
so after its overrides only the window can be at fault: `Request.settings_overridden` says which settings a comparison
runs with. -/
namespace LoadSweep

/-- Against a pattern without a number nothing is smaller or larger. -/
theorem Double.not_lt_of_isNaN {x y : Float} (h : x.isNaN = true ∨ y.isNaN = true) : ¬x < y := by
  have hnan {z : Float} (hz : z.isNaN = true) : Decimal.unpack z = .notANumber := by
    change (Decimal.unpack z).isNaN = true at hz
    cases hu : Decimal.unpack z <;> simp [hu, Float.Model.UnpackedFloat.isNaN] at hz ⊢
  rw [lt_iff_unpack]
  rcases h with h | h <;> rw [hnan h]
  · simp [Float.Model.UnpackedFloat.lt, Float.Model.UnpackedFloat.compare]
  · cases Decimal.unpack x <;> simp [Float.Model.UnpackedFloat.lt, Float.Model.UnpackedFloat.compare]

namespace Settings

/-- A window that a rate can be taken over. -/
def Positive (window : Float) : Prop := window.isFinite = true ∧ 0 < window

/-- Settings that a comparison can be made with. -/
structure Valid (s : Settings) : Prop where
  levels : s.levels ≠ []
  loads : (s.levels.map (·.load)).Nodup
  window : Positive s.window
  ending : s.ending ≠ ""
  bounds : ∀ b ∈ s.bounds, b.low < b.high

/-- No load is repeated if the loads are pairwise different and none was seen before. -/
theorem repeated?_eq_none_iff {seen : List UInt32} {ls : List Level} :
    repeated? seen ls = none ↔ (∀ l ∈ ls, l.load ∉ seen) ∧ (ls.map (·.load)).Nodup := by
  induction ls generalizing seen with
  | nil => simp [repeated?]
  | cons l ls ih =>
    rw [repeated?]
    by_cases hl : l.load ∈ seen
    · simp [hl]
    · simp only [List.contains_iff_mem, hl, if_false, ih, List.mem_cons, List.map_cons, List.nodup_cons,
        List.mem_map, forall_eq_or_imp, not_or, not_exists, not_and, not_false_eq_true, true_and]
      constructor
      · rintro ⟨hrest, hnodup⟩
        exact ⟨fun l' hl' => (hrest l' hl').2, fun l' hl' => (hrest l' hl').1, hnodup⟩
      · rintro ⟨hseen, hne, hnodup⟩
        exact ⟨fun l' hl' => ⟨hne l' hl', hseen l' hl'⟩, hnodup⟩

theorem check_of_loads {s : Settings} (hlevels : s.levels ≠ []) (hloads : (s.levels.map (·.load)).Nodup) :
    s.check =
      if !(s.window.isFinite && 0 < s.window) then .error (.badWindow s.window)
      else if s.ending.isEmpty then .error .noEnding
      else match s.bounds.find? fun b => !(b.low < b.high) with
        | some b => .error (.invertedBounds b)
        | none => .ok () := by
  have hsome : s.levels.isEmpty = false := by simpa using hlevels
  have hdistinct : repeated? [] s.levels = none := repeated?_eq_none_iff.2 ⟨by simp, hloads⟩
  rw [check, hsome, hdistinct]
  rfl

theorem check_of_not_positive {s : Settings} (hlevels : s.levels ≠ []) (hloads : (s.levels.map (·.load)).Nodup)
    (hwindow : ¬Positive s.window) : s.check = .error (.badWindow s.window) := by
  have hbad : (!(s.window.isFinite && 0 < s.window)) = true := by
    by_cases hfinite : s.window.isFinite = true
    · simpa [Positive, hfinite] using hwindow
    · simp [hfinite]
  rw [check_of_loads hlevels hloads, if_pos hbad]

theorem check_eq_ok_iff {s : Settings} : s.check = .ok () ↔ s.Valid := by
  by_cases hlevels : s.levels = []
  · have hempty : s.check = .error .noLevels := by simp [check, hlevels]
    exact iff_of_false (by simp [hempty]) fun h => h.levels hlevels
  by_cases hloads : (s.levels.map (·.load)).Nodup
  · by_cases hwindow : Positive s.window
    · rw [check_of_loads hlevels hloads]
      by_cases hending : s.ending = ""
      · exact iff_of_false (by simp [hwindow.1, hwindow.2, hending]) fun h => h.ending hending
      · have hbounds : (s.bounds.find? fun b => !(b.low < b.high)) = none ↔ ∀ b ∈ s.bounds, b.low < b.high := by
          simp [List.find?_eq_none]
        have hvalid : s.Valid ↔ ∀ b ∈ s.bounds, b.low < b.high :=
          ⟨Valid.bounds, fun h => ⟨hlevels, hloads, hwindow, hending, h⟩⟩
        rw [hvalid, ← hbounds]
        cases hfind : s.bounds.find? fun b => !(b.low < b.high) <;> simp [hwindow.1, hwindow.2, hending]
    · exact iff_of_false (by simp [check_of_not_positive hlevels hloads hwindow]) fun h => hwindow h.window
  · have hrepeated : repeated? [] s.levels ≠ none := fun h => hloads (repeated?_eq_none_iff.1 h).2
    obtain ⟨load, hload⟩ := Option.ne_none_iff_exists'.1 hrepeated
    have hcheck : s.check = .error (.repeatedLoad load) := by simp [check, hlevels, hload]
    exact iff_of_false (by simp [hcheck]) fun h => hloads h.loads

theorem exists_check_error_iff {s : Settings} : (∃ i, s.check = .error i) ↔ ¬s.Valid := by
  rw [← check_eq_ok_iff]
  cases s.check <;> simp

theorem valid_standard : standard.Valid := check_eq_ok_iff.1 (by decide +kernel)

/-- With another directory, other metrics and another window settings stay valid as long as the window is. -/
theorem Valid.of_loaded {s t : Settings} (h : s.Valid) (hlevels : t.levels = s.levels) (hending : t.ending = s.ending)
    (hbounds : t.bounds = s.bounds) : t.Valid ↔ Positive t.window := by
  refine ⟨Valid.window, fun hwindow => ⟨hlevels ▸ h.levels, hlevels ▸ h.loads, hwindow, hending ▸ h.ending, ?_⟩⟩
  rw [hbounds]
  exact h.bounds

/-- A file gives the settings that its text holds, if they are valid. -/
theorem load_eq_ok_iff {disk : Disk} {path : String} {s : Settings} :
    load disk path = .ok s ↔
      ∃ bytes, (disk path).bind Source.utf8? = some bytes ∧ ofJson bytes = .ok s ∧ s.Valid := by
  rw [load]
  cases hbytes : (disk path).bind Source.utf8? with
  | none => simp
  | some bytes =>
    cases hjson : ofJson bytes with
    | error r => simp [hjson]
    | ok found =>
      cases hcheck : found.check with
      | error i =>
        have hinvalid : ¬found.Valid := exists_check_error_iff.1 ⟨i, hcheck⟩
        simp only [hcheck, reduceCtorEq, Option.some.injEq, exists_eq_left', hjson, Except.ok.injEq, false_iff, not_and]
        rintro rfl
        exact hinvalid
      | ok _ =>
        have hvalid : found.Valid := check_eq_ok_iff.1 hcheck
        simp only [hcheck, Except.ok.injEq, Option.some.injEq, exists_eq_left', hjson]
        exact ⟨fun h => ⟨h, h ▸ hvalid⟩, And.left⟩

end Settings

namespace Request

variable {r : Request} {disk : Disk} {s start : Settings}

/-- `start` is what the file of a request holds; without a file it is the standard. -/
def Starts (r : Request) (disk : Disk) (start : Settings) : Prop :=
  (∀ path, r.file = some path → Settings.load disk path = .ok start) ∧ (r.file = none → start = .standard)

theorem base_eq_ok_iff : r.base disk = .ok start ↔ r.Starts disk start := by
  unfold base Starts
  cases r.file <;> simp [eq_comm]

theorem base_eq_error_iff {e : SettingsError} :
    r.base disk = .error e ↔ ∃ path, r.file = some path ∧ Settings.load disk path = .error e := by
  unfold base
  cases r.file <;> simp

theorem Starts.valid (h : r.Starts disk start) : start.Valid := by
  cases hfile : r.file with
  | none => exact h.2 hfile ▸ Settings.valid_standard
  | some path =>
    obtain ⟨bytes, -, -, hvalid⟩ := Settings.load_eq_ok_iff.1 (h.1 path hfile)
    exact hvalid

/-- Only a window of its own can make settings invalid that a request overrides. -/
theorem valid_override_iff (h : start.Valid) :
    (r.override start).Valid ↔ ∀ window, r.window = some window → Settings.Positive window := by
  have hframe : (r.override start).Valid ↔ Settings.Positive (r.window.getD start.window) := h.of_loaded rfl rfl rfl
  rw [hframe]
  cases hwindow : r.window with
  | none => simpa using h.window
  | some window => simp

theorem settings_of_starts (h : r.Starts disk start) :
    r.settings disk = ((r.override start).check.mapError .invalid).map fun _ => r.override start := by
  rw [settings, base_eq_ok_iff.2 h]
  dsimp only
  cases (r.override start).check <;> rfl

theorem settings_of_error {e : SettingsError} (h : r.base disk = .error e) :
    r.settings disk = .error (.unusable e) := by
  rw [settings, h]

theorem settings_of_positive (h : r.Starts disk start)
    (hwindow : ∀ window, r.window = some window → Settings.Positive window) :
    r.settings disk = .ok (r.override start) := by
  have hcheck := Settings.check_eq_ok_iff.2 ((valid_override_iff h.valid).2 hwindow)
  rw [settings_of_starts h, hcheck]
  rfl

theorem settings_of_not_positive (h : r.Starts disk start) {window : Float} (hgiven : r.window = some window)
    (hwindow : ¬Settings.Positive window) : r.settings disk = .error (.invalid (.badWindow window)) := by
  have hoverridden : (r.override start).window = window := by simp [override, hgiven]
  have hcheck : (r.override start).check = .error (.badWindow (r.override start).window) :=
    Settings.check_of_not_positive (s := r.override start) h.valid.levels h.valid.loads (hoverridden ▸ hwindow)
  rw [settings_of_starts h, hcheck, hoverridden]
  rfl

/-- The settings of a comparison. Settings pass the check exactly if they are valid, which they are not with a bound
that is no number. A request is refused exactly if its file is, or if it names a window that is not positive, and then
for that window alone; otherwise the settings are valid, and they are those of the file, or the standard ones, in every
field that the command line does not name. -/
theorem settings_overridden (r : Request) (disk : Disk) :
    (∀ s : Settings, s.check = .ok () ↔ s.Valid) ∧
    (∀ s : Settings, ∀ b ∈ s.bounds, b.low.isNaN = true ∨ b.high.isNaN = true → ∃ i, s.check = .error i) ∧
    ((∃ e, r.settings disk = .error e) ↔
      (∃ path e, r.file = some path ∧ Settings.load disk path = .error e) ∨
        ∃ window, r.window = some window ∧ ¬Settings.Positive window) ∧
    (∀ i, r.settings disk = .error (.invalid i) → ∃ window, r.window = some window ∧ i = .badWindow window) ∧
    ∀ s, r.settings disk = .ok s → s.Valid ∧ ∃ start, r.Starts disk start ∧
      s = { start with
        directory := r.directory.getD start.directory
        metrics := if r.metrics = [] then start.metrics else r.metrics
        window := r.window.getD start.window } := by
  refine ⟨fun s => Settings.check_eq_ok_iff, ?_, ?_⟩
  · intro s b hb hnan
    exact Settings.exists_check_error_iff.2 fun h => Double.not_lt_of_isNaN hnan (h.bounds b hb)
  cases hbase : r.base disk with
  | error e =>
    obtain ⟨path, hfile, hload⟩ := base_eq_error_iff.1 hbase
    have hsettings := settings_of_error hbase
    exact ⟨iff_of_true ⟨_, hsettings⟩ (.inl ⟨path, e, hfile, hload⟩), by simp [hsettings], by simp [hsettings]⟩
  | ok start =>
    have hstarts := base_eq_ok_iff.1 hbase
    have hloads : ¬∃ path e, r.file = some path ∧ Settings.load disk path = .error e := by
      rintro ⟨path, e, hfile, hload⟩
      simp [hstarts.1 path hfile] at hload
    simp only [hloads, false_or]
    by_cases hwindow : ∀ window, r.window = some window → Settings.Positive window
    · have hsettings := settings_of_positive hstarts hwindow
      refine ⟨iff_of_false (by simp [hsettings]) ?_, by simp [hsettings], ?_⟩
      · rintro ⟨window, hgiven, hbad⟩
        exact hbad (hwindow window hgiven)
      · rintro s hs
        obtain rfl : r.override start = s := by simpa [hsettings] using hs
        refine ⟨(valid_override_iff hstarts.valid).2 hwindow, start, hstarts, ?_⟩
        simp [override]
    · push Not at hwindow
      obtain ⟨window, hgiven, hbad⟩ := hwindow
      have hsettings := settings_of_not_positive hstarts hgiven hbad
      refine ⟨iff_of_true ⟨_, hsettings⟩ ⟨window, hgiven, hbad⟩, ?_, by simp [hsettings]⟩
      intro i hi
      exact ⟨window, hgiven, by simpa [hsettings] using hi.symm⟩

end Request
end LoadSweep
