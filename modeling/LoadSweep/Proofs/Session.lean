import LoadSweep.Window
import Mathlib.Algebra.Group.Nat.Even

/-! A user acts on what the window offers while the data sets may change behind it. One action after another keeps
what is shown consistent with the data sets as they were at the last reload, with the settings and with each other. -/
namespace LoadSweep.Session

/-- The actions of the menu, and those of the controls at the top. -/
inductive Offers (s : Session) : Action → Prop
  | reload : Offers s .reload
  | moveTo (directory : String) : Offers s (.moveTo directory)
  | control {c : Control} {a : Action} (shown : c ∈ s.topBar) (acts : c.action = some a) : Offers s a

theorem mem_tabs_iff {c : Control} {i : Nat} {os : List Outcome} :
    c ∈ tabs i os ↔ ∃ j o, os[j]? = some o ∧ c = ⟨o.metric.title, some (.select (i + j))⟩ := by
  induction os generalizing i with
  | nil => simp [tabs]
  | cons o os ih =>
    rw [tabs, List.mem_cons, ih]
    constructor
    · rintro (rfl | ⟨j, p, hp, rfl⟩)
      · exact ⟨0, o, rfl, rfl⟩
      · exact ⟨j + 1, p, hp, by rw [Nat.add_right_comm, Nat.add_assoc]⟩
    · rintro ⟨j, p, hp, rfl⟩
      cases j with
      | zero =>
        obtain rfl : o = p := by simpa using hp
        exact .inl rfl
      | succ j => exact .inr ⟨j, p, by simpa using hp, by rw [Nat.add_right_comm, Nat.add_assoc]⟩

/-- There is a tab for each outcome and for nothing else. -/
theorem offers_select_iff {s : Session} {i : Nat} : s.Offers (.select i) ↔ i < s.outcomes.length := by
  constructor
  · rintro ⟨⟩
    rename_i c shown acts
    simp only [topBar, List.cons_append, List.mem_cons, List.mem_append, List.mem_map] at shown
    rcases shown with rfl | htab | rfl | ⟨status, -, rfl⟩
    · simp at acts
    · obtain ⟨j, o, ho, rfl⟩ := mem_tabs_iff.1 htab
      obtain rfl : j = i := by simpa using acts
      exact (List.getElem?_eq_some_iff.1 ho).1
    · simp at acts
    · simp at acts
  · intro hi
    have htab : ⟨s.outcomes[i].metric.title, some (.select i)⟩ ∈ tabs 0 s.outcomes :=
      mem_tabs_iff.2 ⟨i, _, List.getElem?_eq_getElem hi, by rw [Nat.zero_add]⟩
    refine .control (c := ⟨s.outcomes[i].metric.title, some (.select i)⟩) ?_ rfl
    simp [topBar, htab]

theorem offers_toggleBaselines (s : Session) : s.Offers .toggleBaselines :=
  .control (c := ⟨"Baselines", some .toggleBaselines⟩) (by simp [topBar]) rfl

/-- An action, and the data sets as they are when it happens. -/
structure Event where
  disk : Disk
  action : Action

def run (s : Session) (events : List Event) : Session := events.foldl (fun s e => s.perform e.disk e.action) s

/-- Each event is one that the window offers at its time. -/
def Follows (s : Session) : List Event → Prop
  | [] => True
  | e :: es => s.Offers e.action ∧ Follows (s.perform e.disk e.action) es

/-- What still matters of the past: the data sets and the directory of the last reload, and how often the baselines
were clicked on. -/
structure History where
  disk : Disk
  directory : String
  clicks : Nat

namespace History

def after (h : History) (e : Event) : History :=
  match e.action with
  | .reload => { h with disk := e.disk }
  | .moveTo directory => { h with disk := e.disk, directory := directory }
  | .select _ => h
  | .toggleBaselines => { h with clicks := h.clicks + 1 }

/-- The history of a session that was started and saw some events. -/
def of (disk : Disk) (settings : Settings) (events : List Event) : History :=
  events.foldl after ⟨disk, settings.directory, 0⟩

end History

/-- A position in a list, or the first one if there is none. -/
def Selects (i length : Nat) : Prop := i < length ∨ length = 0 ∧ i = 0

/-- What a session shows fits the history of the session. -/
structure Consistent (settings : Settings) (h : History) (s : Session) : Prop where
  settings_eq : s.settings = { settings with directory := h.directory }
  outcomes_eq : s.outcomes = s.settings.outcomes h.disk
  selects : Selects s.selected s.outcomes.length
  status_eq : s.status = Outcome.status? s.outcomes
  baselines : s.showBaselines = true ↔ Even h.clicks

variable {settings : Settings} {h : History} {s : Session}

theorem map_metric_outcomes (s : Settings) (disk : Disk) : (s.outcomes disk).map (·.metric) = s.metrics := by
  simp only [Settings.outcomes, List.map_map]
  exact List.map_id'' (fun _ => rfl) s.metrics

theorem length_outcomes (s : Settings) (disk : Disk) : (s.outcomes disk).length = s.metrics.length :=
  List.length_map _

/-- A reload makes a session consistent, whatever was selected. -/
theorem consistent_reload (disk : Disk) (hsettings : s.settings = { settings with directory := h.directory })
    (hbaselines : s.showBaselines = true ↔ Even h.clicks) :
    Consistent settings { h with disk := disk } (s.reload disk) where
  settings_eq := hsettings
  outcomes_eq := rfl
  selects := by
    change Selects (if (s.settings.outcomes disk).length ≤ s.selected then 0 else s.selected) _
    unfold Selects
    split_ifs with hselected
    · change 0 < (s.settings.outcomes disk).length ∨ (s.settings.outcomes disk).length = 0 ∧ 0 = 0
      omega
    · exact .inl (Nat.lt_of_not_le hselected)
  status_eq := rfl
  baselines := hbaselines

theorem consistent_start (disk : Disk) (settings : Settings) :
    Consistent settings (.of disk settings []) (.start disk settings) :=
  consistent_reload (h := ⟨disk, settings.directory, 0⟩) disk rfl (by simp [idle])

theorem Consistent.perform (hs : Consistent settings h s) {e : Event} (offered : s.Offers e.action) :
    Consistent settings (h.after e) (s.perform e.disk e.action) := by
  obtain ⟨disk, action⟩ := e
  cases action with
  | reload => exact consistent_reload disk hs.settings_eq hs.baselines
  | moveTo directory =>
    refine consistent_reload (s := s.inDirectory directory) (h := { h with directory := directory }) disk ?_ hs.baselines
    rw [inDirectory, hs.settings_eq]
  | select i =>
    have hi : i < s.outcomes.length := offers_select_iff.1 offered
    exact { hs with selects := .inl hi }
  | toggleBaselines =>
    refine { hs with baselines := ?_ }
    change (!s.showBaselines) = true ↔ Even (h.clicks + 1)
    rw [Nat.even_add_one, ← hs.baselines, Bool.not_eq_true', Bool.not_eq_true]

theorem Consistent.run (hs : Consistent settings h s) {events : List Event} (offered : s.Follows events) :
    Consistent settings (events.foldl History.after h) (s.run events) := by
  induction events generalizing h s with
  | nil => exact hs
  | cons e es ih => exact ih (hs.perform offered.1) offered.2

theorem Consistent.map_metric (hs : Consistent settings h s) : s.outcomes.map (·.metric) = settings.metrics := by
  rw [hs.outcomes_eq, map_metric_outcomes, hs.settings_eq]

theorem Consistent.length_eq (hs : Consistent settings h s) : s.outcomes.length = settings.metrics.length := by
  rw [← hs.map_metric, List.length_map]

/-- The metric on screen is the one at the selected position of the settings. -/
theorem Consistent.current_metric (hs : Consistent settings h s) :
    s.current?.map (·.metric) = settings.metrics[s.selected]? := by
  rw [current?, ← List.getElem?_map, hs.map_metric]

theorem Consistent.current_eq_none_iff (hs : Consistent settings h s) : s.current? = none ↔ settings.metrics = [] := by
  have hlength := hs.length_eq
  have hselects := hs.selects
  rw [current?, List.getElem?_eq_none_iff, ← List.length_eq_zero_iff]
  unfold Selects at hselects
  omega

theorem selected_reload (disk : Disk) (hselects : Selects s.selected s.settings.metrics.length) :
    (s.reload disk).selected = s.selected := by
  change (if (s.settings.outcomes disk).length ≤ s.selected then 0 else s.selected) = s.selected
  rw [length_outcomes]
  unfold Selects at hselects
  split_ifs <;> omega

/-- Neither a reload nor another directory changes which metric is selected. -/
theorem Consistent.selection_kept (hs : Consistent settings h s) (disk : Disk) {a : Action}
    (ha : a = .reload ∨ ∃ directory, a = .moveTo directory) :
    (s.perform disk a).selected = s.selected ∧
      (s.perform disk a).current?.map (·.metric) = s.current?.map (·.metric) := by
  have hselects : Selects s.selected s.settings.metrics.length := by
    rw [hs.settings_eq, ← hs.length_eq]
    exact hs.selects
  have hselected : (s.perform disk a).selected = s.selected := by
    rcases ha with rfl | ⟨directory, rfl⟩
    · exact selected_reload disk hselects
    · exact selected_reload (s := s.inDirectory directory) disk hselects
  have hoffered : s.Offers a := by
    rcases ha with rfl | ⟨directory, rfl⟩
    · exact .reload
    · exact .moveTo directory
  refine ⟨hselected, ?_⟩
  rw [(hs.perform (e := ⟨disk, a⟩) hoffered).current_metric, hs.current_metric, hselected]

/-- In every session that a user can get to: the outcomes are those of the directory shown, made of the data sets as
they were at the last reload, one for each metric; the selection is one of them; the status counts the failures; the
settings are as they were but for the directory; and the baselines show after an even number of clicks. -/
theorem run_consistent (settings : Settings) (disk : Disk) (events : List Event) (hcheck : settings.check = .ok ())
    (offered : (start disk settings).Follows events) :
    let s := (start disk settings).run events
    let h := History.of disk settings events
    (s.outcomes = s.settings.outcomes h.disk ∧ s.outcomes.map (·.metric) = settings.metrics ∧
      s.sideTexts[1]? = some s!"Directory: {h.directory}") ∧
    ((s.selected < s.outcomes.length ∨ s.outcomes = [] ∧ s.selected = 0) ∧
      (s.current? = none ↔ settings.metrics = []) ∧
      ∀ disk' a, (a = .reload ∨ ∃ directory, a = .moveTo directory) →
        (s.perform disk' a).selected = s.selected ∧
        (s.perform disk' a).current?.map (·.metric) = s.current?.map (·.metric)) ∧
    (∀ k, s.outcomes.countP (·.failed) = k →
      s.status = if k = 0 then none else some s!"{k} of {s.outcomes.length} charts failed") ∧
    (s.settings = { settings with directory := h.directory } ∧ s.settings.check = .ok ()) ∧
    (s.showBaselines = true ↔ Even h.clicks) := by
  intro s h
  have hs : Consistent settings h s := (consistent_start disk settings).run offered
  have hselects : s.selected < s.outcomes.length ∨ s.outcomes = [] ∧ s.selected = 0 :=
    hs.selects.imp_right fun hnone => ⟨List.length_eq_zero_iff.1 hnone.1, hnone.2⟩
  refine ⟨⟨hs.outcomes_eq, hs.map_metric, ?_⟩, ⟨hselects, hs.current_eq_none_iff, ?_⟩, ?_, ⟨hs.settings_eq, ?_⟩,
    hs.baselines⟩
  · change some s!"Directory: {s.settings.directory}" = _
    rw [hs.settings_eq]
  · intro disk' a ha
    exact hs.selection_kept disk' ha
  · rintro k rfl
    exact hs.status_eq
  · rw [hs.settings_eq]
    exact hcheck

/-- A look at the last chart, without baselines, before the data sets are sought elsewhere. -/
def wandering : List Event :=
  [⟨fun _ => none, .select 2⟩, ⟨fun _ => none, .toggleBaselines⟩, ⟨fun _ => none, .moveTo "elsewhere"⟩]

theorem run_wandering :
    Settings.standard.check = .ok () ∧ (start (fun _ => none) .standard).Follows wandering ∧
      ((start (fun _ => none) .standard).run wandering).status = some "3 of 3 charts failed" ∧
      ((start (fun _ => none) .standard).run wandering).settings.directory = "elsewhere" ∧
      ¬((start (fun _ => none) .standard).run wandering).showBaselines = true := by
  have hcheck : Settings.standard.check = .ok () := by decide +kernel
  have offered : (start (fun _ => none) .standard).Follows wandering :=
    ⟨offers_select_iff.2 (by decide +kernel), offers_toggleBaselines _, .moveTo "elsewhere", trivial⟩
  obtain ⟨-, -, hstatus, ⟨hsettings, -⟩, hbaselines⟩ := run_consistent _ _ wandering hcheck offered
  refine ⟨hcheck, offered, ?_, ?_, ?_⟩
  · have hlength : ((start (fun _ => none) .standard).run wandering).outcomes.length = 3 := by decide +kernel
    rw [hstatus 3 (by decide +kernel), hlength]
    rfl
  · rw [hsettings]
    rfl
  · rw [hbaselines]
    decide

end LoadSweep.Session
