import LoadSweep.Headless
import LoadSweep.Proofs.Chart.Levels
import LoadSweep.Session
import Mathlib.Data.List.TFAE
import Mathlib.Tactic.TFAE

/-! What is printed, the verdict of a run without a window and the status in the window are each read off the outcomes
by a pass of their own. Every pass is compared with the charts and the faults among the outcomes, which are enough to
tell all of them; `Settings.reports_agree` puts the comparisons together. -/
namespace LoadSweep

namespace Outcome

/-- The metric without a chart, and why it has none. -/
def fault? (o : Outcome) : Option (Metric × Failure) :=
  match o.result with
  | .ok _ => none
  | .error e => some (o.metric, e)

def charts (os : List Outcome) : List Chart := os.filterMap (·.result.toOption)

def faults (os : List Outcome) : List (Metric × Failure) := os.filterMap fault?

section

variable (m : Metric) (chart : Chart) (e : Failure) (os : List Outcome)

@[simp] theorem charts_ok : charts (⟨m, .ok chart⟩ :: os) = chart :: charts os := rfl

@[simp] theorem charts_error : charts (⟨m, .error e⟩ :: os) = charts os := rfl

@[simp] theorem faults_ok : faults (⟨m, .ok chart⟩ :: os) = faults os := rfl

@[simp] theorem faults_error : faults (⟨m, .error e⟩ :: os) = (m, e) :: faults os := rfl

end

section

variable (texts : List String) (fs : List (Metric × Failure))

/-- Reports as they are printed. -/
def reportsText : String := String.join (texts.map (· ++ "\n"))

/-- Faults as they are printed. -/
def faultsText : String := String.join (fs.map fun fault => s!"{fault.1.name}: {fault.2.message}\n")

@[simp] theorem reportsText_cons (text : String) : reportsText (text :: texts) = text ++ "\n" ++ reportsText texts :=
  String.join_cons

@[simp] theorem faultsText_cons (fault : Metric × Failure) :
    faultsText (fault :: fs) = s!"{fault.1.name}: {fault.2.message}\n" ++ faultsText fs := String.join_cons

end

/-- Outcomes whose reports can be laid out are printed before the others. -/
theorem printEach_append (last : Ending) {before : List Outcome} (after : List Outcome) {texts : List String}
    (h : (charts before).mapM Chart.report = .ok texts) :
    printEach last (before ++ after) = (printEach last after).after (reportsText texts) (faultsText (faults before)) := by
  induction before generalizing texts with
  | nil =>
    cases h
    simp [reportsText, faultsText, faults, Printed.after]
  | cons o before ih =>
    obtain ⟨m, e | chart⟩ := o
    · rw [charts_error] at h
      simp [printEach, ih h, Printed.after, String.append_assoc]
    · rw [charts_ok, List.mapM_cons] at h
      obtain ⟨text, htext, h⟩ := bind_eq_ok_iff.1 h
      obtain ⟨rest, hrest, h⟩ := bind_eq_ok_iff.1 h
      cases h
      simp [printEach, htext, ih hrest, Printed.after, String.append_assoc]

/-- A report that is too wide is the first of its kind among the outcomes. -/
theorem exists_tooWide {os : List Outcome} {e : TooWide} (h : (charts os).mapM Chart.report = .error e) :
    ∃ before m chart after texts, os = before ++ ⟨m, .ok chart⟩ :: after ∧
      (charts before).mapM Chart.report = .ok texts ∧ chart.report = .error e := by
  induction os with
  | nil => cases h
  | cons o os ih =>
    obtain ⟨m, failure | chart⟩ := o
    · obtain ⟨before, m', chart, after, texts, rfl, htexts, hchart⟩ := ih h
      exact ⟨⟨m, .error failure⟩ :: before, m', chart, after, texts, rfl, htexts, hchart⟩
    · rw [charts_ok, List.mapM_cons] at h
      cases htext : chart.report with
      | error found =>
        rw [htext] at h
        cases h
        exact ⟨[], m, chart, os, [], rfl, rfl, htext⟩
      | ok text =>
        rw [htext, ok_bind] at h
        cases hrest : (charts os).mapM Chart.report with
        | ok rest => simp [hrest] at h
        | error found =>
          rw [hrest] at h
          cases h
          obtain ⟨before, m', wide, after, texts, rfl, htexts, hwide⟩ := ih hrest
          refine ⟨⟨m, .ok chart⟩ :: before, m', wide, after, text :: texts, rfl, ?_, hwide⟩
          simp [charts_ok, List.mapM_cons, htext, htexts]

theorem firstFailure?_eq (os : List Outcome) : firstFailure? os = (faults os).head? := by
  induction os with
  | nil => rfl
  | cons o os ih =>
    obtain ⟨m, e | chart⟩ := o
    · rfl
    · exact ih

theorem failures_eq (os : List Outcome) : failures os = (faults os).length := by
  have hfault (o : Outcome) : o.failed = o.fault?.isSome := by
    obtain ⟨m, e | chart⟩ := o <;> rfl
  rw [failures, faults, List.length_filterMap_eq_countP]
  exact List.countP_congr fun o _ => by rw [hfault]

theorem allSucceeded_iff (os : List Outcome) : allSucceeded os = true ↔ faults os = [] := by
  have hfault (o : Outcome) : o.result.isOk = true ↔ o.fault? = none := by
    obtain ⟨m, e | chart⟩ := o <;> simp [fault?, Except.isOk, Except.toBool]
  simp only [allSucceeded, List.all_eq_true, faults, List.filterMap_eq_nil_iff, hfault]

/-- An outcome is a chart or a fault. -/
theorem length_charts_add (os : List Outcome) : (charts os).length + (faults os).length = os.length := by
  induction os with
  | nil => rfl
  | cons o os ih =>
    obtain ⟨m, e | chart⟩ := o
    · simp only [charts_error, faults_error, List.length_cons]
      omega
    · simp only [charts_ok, faults_ok, List.length_cons]
      omega

end Outcome

namespace Settings

variable {s : Settings} {disk : Disk}

/-- The charts of the metrics that have one. -/
def charts (s : Settings) (disk : Disk) : List Chart :=
  s.metrics.filterMap fun m => (Chart.assemble disk s m).outcome.toOption

/-- The metrics that have no chart, and why they have none. -/
def faults (s : Settings) (disk : Disk) : List (Metric × Failure) :=
  s.metrics.filterMap fun m => match (Chart.assemble disk s m).outcome with
    | .ok _ => none
    | .error e => some (m, e)

theorem outcomes_eq (s : Settings) (disk : Disk) :
    s.outcomes disk = s.metrics.map fun m => ⟨m, (Chart.assemble disk s m).outcome⟩ := rfl

theorem charts_outcomes (s : Settings) (disk : Disk) : Outcome.charts (s.outcomes disk) = s.charts disk := by
  rw [outcomes_eq, Outcome.charts, List.filterMap_map]
  rfl

theorem faults_outcomes (s : Settings) (disk : Disk) : Outcome.faults (s.outcomes disk) = s.faults disk := by
  rw [outcomes_eq, Outcome.faults, List.filterMap_map]
  rfl

theorem length_charts_add (s : Settings) (disk : Disk) :
    (s.charts disk).length + (s.faults disk).length = s.metrics.length := by
  have hlength : (s.outcomes disk).length = s.metrics.length := List.length_map _
  rw [← charts_outcomes, ← faults_outcomes, Outcome.length_charts_add, hlength]

theorem faults_ne_nil_iff :
    s.faults disk ≠ [] ↔ ∃ m ∈ s.metrics, ∃ e, (Chart.assemble disk s m).outcome = .error e := by
  have hmetric (m : Metric) : (match (Chart.assemble disk s m).outcome with
      | .ok _ => none
      | .error e => some (m, e)) ≠ none ↔ ∃ e, (Chart.assemble disk s m).outcome = .error e := by
    cases (Chart.assemble disk s m).outcome <;> simp
  rw [faults, Ne, List.filterMap_eq_nil_iff]
  push Not
  simp only [hmetric]

/-- No chart depends on which other metrics are asked for. -/
theorem assemble_withMetrics (disk : Disk) (s : Settings) (ms : List Metric) (m : Metric) :
    Chart.assemble disk { s with metrics := ms } m = Chart.assemble disk s m := by
  have hcurves (n i : Nat) (ls : List Level) :
      Chart.curvesFrom disk { s with metrics := ms } m n i ls = Chart.curvesFrom disk s m n i ls := by
    induction ls generalizing i with
    | nil => rfl
    | cons l ls ih =>
      have hcurve : Chart.curveOf disk { s with metrics := ms } m n i l = Chart.curveOf disk s m n i l := rfl
      simp only [Chart.curvesFrom, hcurve, ih]
  rw [Chart.assemble, Chart.assemble, hcurves]
  rfl

theorem outcomes_append (disk : Disk) {before after : List Metric} (h : s.metrics = before ++ after) :
    s.outcomes disk = { s with metrics := before }.outcomes disk ++ { s with metrics := after }.outcomes disk := by
  simp only [outcomes_eq, assemble_withMetrics, h, List.map_append]

/-- The charts and the faults are those that there are when fewer metrics are asked for. -/
theorem charts_append (disk : Disk) {before after : List Metric} (h : s.metrics = before ++ after) :
    s.charts disk = { s with metrics := before }.charts disk ++ { s with metrics := after }.charts disk ∧
      s.faults disk = { s with metrics := before }.faults disk ++ { s with metrics := after }.faults disk := by
  simp only [← charts_outcomes, ← faults_outcomes, outcomes_append disk h, Outcome.charts, Outcome.faults,
    List.filterMap_append, and_self]

theorem ending_of_nil (h : s.faults disk = []) : Outcome.ending (s.outcomes disk) = .done := by
  rw [Outcome.ending, Outcome.firstFailure?_eq, faults_outcomes, h]
  rfl

theorem ending_of_cons {m : Metric} {e : Failure} {rest : List (Metric × Failure)}
    (h : s.faults disk = (m, e) :: rest) : Outcome.ending (s.outcomes disk) = .failed
      s!"{(s.faults disk).length} of {s.metrics.length} charts failed; first: {m.name}: {e.message}" := by
  have hlength : (s.outcomes disk).length = s.metrics.length := List.length_map _
  rw [Outcome.ending, Outcome.firstFailure?_eq, Outcome.failures_eq, hlength, faults_outcomes, h]
  rfl

/-- A run that can lay out all reports prints them all, and ends as the outcomes say. -/
theorem runHeadless_of_reported {texts : List String} (h : (s.charts disk).mapM Chart.report = .ok texts) :
    s.runHeadless disk = ⟨Outcome.reportsText texts, Outcome.faultsText (s.faults disk),
      Outcome.ending (s.outcomes disk)⟩ := by
  rw [← charts_outcomes] at h
  have hprint := Outcome.printEach_append (Outcome.ending (s.outcomes disk)) [] h
  rw [List.append_nil, faults_outcomes] at hprint
  rw [runHeadless, Outcome.print, hprint]
  simp [Outcome.printEach, Printed.after]

/-- A run stops at the first report that is too wide. -/
theorem runHeadless_of_tooWide {e : TooWide} (h : (s.charts disk).mapM Chart.report = .error e) :
    ∃ before m after chart texts, s.metrics = before ++ m :: after ∧
      ({ s with metrics := before }.charts disk).mapM Chart.report = .ok texts ∧
      (Chart.assemble disk s m).outcome = .ok chart ∧ chart.report = .error e ∧
      s.runHeadless disk = ⟨Outcome.reportsText texts,
        Outcome.faultsText ({ s with metrics := before }.faults disk), .stopped e⟩ := by
  rw [← charts_outcomes] at h
  obtain ⟨before, m, chart, after, texts, hos, htexts, hchart⟩ := Outcome.exists_tooWide h
  rw [outcomes_eq] at hos
  obtain ⟨ms, ms', hmetrics, rfl, hrest⟩ := List.map_eq_append_iff.1 hos
  obtain ⟨m', rest, rfl, hm, -⟩ := List.map_eq_cons_iff.1 hrest
  obtain ⟨rfl, houtcome⟩ := Outcome.mk.injEq .. ▸ hm
  have hbefore : { s with metrics := ms }.outcomes disk = ms.map fun m => ⟨m, (Chart.assemble disk s m).outcome⟩ := by
    simp only [outcomes_eq, assemble_withMetrics]
  refine ⟨ms, m', rest, chart, texts, hmetrics, ?_, houtcome, hchart, ?_⟩
  · rw [← charts_outcomes, hbefore]
    exact htexts
  · have hprint := Outcome.printEach_append (Outcome.ending (s.outcomes disk)) (⟨m', .ok chart⟩ :: after) htexts
    rw [← hos, ← outcomes_eq] at hprint
    rw [runHeadless, Outcome.print, hprint, ← hbefore, faults_outcomes]
    simp [Outcome.printEach, hchart, Printed.after]

theorem status_start (s : Settings) (disk : Disk) :
    (Session.start disk s).status =
      if s.faults disk = [] then none
      else some s!"{(s.faults disk).length} of {s.metrics.length} charts failed" := by
  have hlength : (s.outcomes disk).length = s.metrics.length := List.length_map _
  change Outcome.status? (s.outcomes disk) = _
  rw [Outcome.status?, Outcome.failures_eq, faults_outcomes, hlength]
  simp only [List.length_eq_zero_iff]

/-- What a comparison reports of its metrics. If every report can be laid out, the output holds the reports of the
charts and the errors name the faults, in the order of the metrics; the ending says whether there are faults, how many
among how many metrics, and the first. A report that is too wide stops the run with what comes before it printed. No
chart or fault depends on the other metrics, and the outcomes, the first failure and the status in the window say of
the faults what the ending says. -/
theorem reports_agree (s : Settings) (disk : Disk) :
    let printed := s.runHeadless disk
    let status := (Session.start disk s).status
    let faults := s.faults disk
    (∀ texts, (s.charts disk).mapM Chart.report = .ok texts →
      printed.output = Outcome.reportsText texts ∧ printed.errors = Outcome.faultsText faults ∧
      texts.length + faults.length = s.metrics.length ∧
      ((∃ message, printed.ending = .failed message) ↔
        ∃ m ∈ s.metrics, ∃ e, (Chart.assemble disk s m).outcome = .error e) ∧
      (faults = [] → printed.ending = .done) ∧
      ∀ m e rest, faults = (m, e) :: rest → printed.ending =
        .failed s!"{faults.length} of {s.metrics.length} charts failed; first: {m.name}: {e.message}") ∧
    (∀ e, (s.charts disk).mapM Chart.report = .error e →
      ∃ before m after chart texts, s.metrics = before ++ m :: after ∧
        ({ s with metrics := before }.charts disk).mapM Chart.report = .ok texts ∧
        (Chart.assemble disk s m).outcome = .ok chart ∧ chart.report = .error e ∧
        printed = ⟨Outcome.reportsText texts, Outcome.faultsText ({ s with metrics := before }.faults disk),
          .stopped e⟩) ∧
    (∀ before after, s.metrics = before ++ after →
      s.charts disk = { s with metrics := before }.charts disk ++ { s with metrics := after }.charts disk ∧
      faults = { s with metrics := before }.faults disk ++ { s with metrics := after }.faults disk) ∧
    [∃ m ∈ s.metrics, ∃ e, (Chart.assemble disk s m).outcome = .error e,
      faults ≠ [],
      Outcome.allSucceeded (s.outcomes disk) = false,
      (Outcome.firstFailure? (s.outcomes disk)).isSome = true,
      status.isSome = true].TFAE ∧
    Outcome.firstFailure? (s.outcomes disk) = faults.head? ∧
    (faults ≠ [] → status = some s!"{faults.length} of {s.metrics.length} charts failed") := by
  intro printed status faults
  have hfault : faults ≠ [] ↔ ∃ m ∈ s.metrics, ∃ e, (Chart.assemble disk s m).outcome = .error e :=
    faults_ne_nil_iff
  have hfirst : Outcome.firstFailure? (s.outcomes disk) = faults.head? := by
    rw [Outcome.firstFailure?_eq, faults_outcomes]
  have hstatus : status = if faults = [] then none else some _ := status_start s disk
  refine ⟨?_, fun e h => runHeadless_of_tooWide h, fun _ _ h => charts_append disk h, ?_, hfirst, ?_⟩
  · intro texts htexts
    have hprinted : printed = _ := runHeadless_of_reported htexts
    have hlength : (s.charts disk).length = texts.length := by
      simpa using congrArg List.length (mapM_eq_ok_iff.1 htexts)
    have hcons (m : Metric) (e : Failure) (rest : List (Metric × Failure)) (hsome : faults = (m, e) :: rest) :
        printed.ending = .failed _ := (congrArg Printed.ending hprinted).trans (ending_of_cons hsome)
    have hnil (hnone : faults = []) : printed.ending = .done :=
      (congrArg Printed.ending hprinted).trans (ending_of_nil hnone)
    refine ⟨congrArg Printed.output hprinted, congrArg Printed.errors hprinted, ?_, ?_, hnil, hcons⟩
    · rw [← hlength]
      exact length_charts_add s disk
    · rw [← hfault]
      cases hfaults : faults with
      | nil => simp [hnil hfaults]
      | cons fault rest => simp [hcons _ _ _ hfaults]
  · tfae_have 1 ↔ 2 := hfault.symm
    tfae_have 2 ↔ 3 := by
      rw [← Bool.not_eq_true, Outcome.allSucceeded_iff, faults_outcomes]
    tfae_have 2 ↔ 4 := by rw [hfirst, List.isSome_head?]
    tfae_have 2 ↔ 5 := by
      rw [hstatus]
      split_ifs with hnone <;> simp [hnone]
    tfae_finish
  · intro hsome
    rw [hstatus, if_neg hsome]

end Settings
end LoadSweep
