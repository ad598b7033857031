import LoadSweep.Proofs.Chart.Levels

/-! The metrics read different columns of the same data sets. A failure that is not about the values of a column meets
every metric, so a chart and such a failure are never outcomes of one run. -/
namespace LoadSweep

/-- There are no rows at a path that a chart could be made from. -/
def Unusable (disk : Disk) (path : String) (width : Nat) : Prop :=
  (∃ e, Unread disk path width e) ∨ Opened disk path ([] : List (Row width))

theorem Unusable.not_opened {disk : Disk} {path : String} {width : Nat} {rows : List (Row width)}
    (h : Unusable disk path width) (hrows : rows ≠ []) : ¬Opened disk path rows := by
  intro opened
  have hload := opened.outcome_load
  rcases h with ⟨e, unread⟩ | empty
  · simp [Table.load_eq_error_iff.2 unread] at hload
  · rw [empty.outcome_load, Except.ok.injEq, Table.mk.injEq] at hload
    exact hrows (eq_of_heq hload.2.2).symm

/-- A level with a flaw that has nothing to do with a metric. -/
def Spoilt (disk : Disk) (s : Settings) (l : Level) : Prop :=
  Unusable disk (s.sweptPath l) 4 ∨ Unusable disk (s.baselinePath l) 3 ∨ ∃ c, s.reduction = .grouped c ∧ 3 ≤ c

theorem Spoilt.exists_unready {disk : Disk} {s : Settings} {l : Level} (h : Spoilt disk s l) :
    ∃ e, Unready disk s l e := by
  rcases ready_or_unready disk s l with ⟨rows, runs, ready⟩ | unready
  · rcases h with swept | baseline | ⟨c, hc, hout⟩
    · exact absurd ready.swept (swept.not_opened ready.sweptSome)
    · exact absurd ready.baseline (baseline.not_opened ready.baselineSome)
    · have hin := ready.column c hc
      omega
  · exact unready

namespace Chart

variable {disk : Disk} {s : Settings} {m m₁ m₂ : Metric} {l : Level} {e : Failure}

/-- A level that one metric can be measured at fails another for its values alone. -/
theorem Passes.outOfDomain (h : Passes disk s m₁ l) (hfails : (measure disk s m₂ l).outcome = .error e) :
    ∃ x, e = .outOfDomain m₂ x := by
  obtain ⟨measured, hmeasured⟩ := h
  rcases (measure_eq_error_iff.1 hfails).unready_or_outOfDomain with unready | hdomain
  · simp [measure_of_unready unready m₁] at hmeasured
  · exact hdomain

theorem not_passes_of_unready (unready : Unready disk s l e) : ¬Passes disk s m l := by
  rintro ⟨measured, hmeasured⟩
  simp [measure_of_unready unready m] at hmeasured

theorem exists_assemble_error (hl : l ∈ s.levels) (unready : Unready disk s l e) (m : Metric) :
    ∃ e', (assemble disk s m).outcome = .error e' := by
  cases h : (assemble disk s m).outcome with
  | error e' => exact ⟨e', rfl⟩
  | ok chart => exact absurd (exists_assemble_iff.1 ⟨chart, h⟩ l hl) (not_passes_of_unready unready)

/-- A failure that is not about values is met by every metric, unless values keep a metric from getting to it. -/
theorem assemble_error_of_error (h : (assemble disk s m₁).outcome = .error e) (hdomain : ∀ x, e ≠ .outOfDomain m₁ x)
    (m₂ : Metric) : ∃ e', (assemble disk s m₂).outcome = .error e' ∧ (e' = e ∨ ∃ x, e' = .outOfDomain m₂ x) := by
  obtain ⟨before, l, hfirst, hl⟩ := assemble_eq_error_iff.1 h
  have hunready : Unready disk s l e := by
    rcases (measure_eq_error_iff.1 hl).unready_or_outOfDomain with unready | ⟨x, hx⟩
    · exact unready
    · exact absurd hx (hdomain x)
  obtain ⟨e', he'⟩ := exists_assemble_error hfirst.mem hunready m₂
  refine ⟨e', he', ?_⟩
  obtain ⟨before', l', hfirst', hl'⟩ := assemble_eq_error_iff.1 he'
  -- the second run stops before the level of the first, at it, or not before it
  rcases hfirst.trichotomy hfirst' with hearlier | rfl | hlater
  · exact .inr ((hfirst.2 l' hearlier).outOfDomain hl')
  · rw [measure_of_unready hunready m₂, Except.error.injEq] at hl'
    exact .inl hl'.symm
  · exact absurd (hfirst'.2 l hlater) (not_passes_of_unready hunready)

end Chart

namespace Settings

theorem mem_outcomes {s : Settings} {disk : Disk} {o : Outcome} (h : o ∈ s.outcomes disk) :
    o.result = (Chart.assemble disk s o.metric).outcome := by
  obtain ⟨m, -, rfl⟩ := List.mem_map.1 h
  rfl

/-- Only values set metrics apart: any other failure of one metric is a failure of all of them, so a flaw of one
level costs every chart, and where there is a chart the other metrics fail for their values alone. -/
theorem failures_across_metrics (disk : Disk) (s : Settings) :
    (∀ m₁ m₂ e, (Chart.assemble disk s m₁).outcome = .error e → (∀ m x, e ≠ .outOfDomain m x) →
      ∃ e', (Chart.assemble disk s m₂).outcome = .error e' ∧ (e' = e ∨ ∃ x, e' = .outOfDomain m₂ x)) ∧
    (∀ l ∈ s.levels, Spoilt disk s l → ∀ o ∈ s.outcomes disk, ∃ e, o.result = .error e) ∧
    ∀ o₁ ∈ s.outcomes disk, ∀ chart, o₁.result = .ok chart →
      ∀ o₂ ∈ s.outcomes disk, ∀ e, o₂.result = .error e → ∃ x, e = .outOfDomain o₂.metric x := by
  refine ⟨?_, ?_, ?_⟩
  · intro m₁ m₂ e h hdomain
    exact Chart.assemble_error_of_error h (hdomain m₁) m₂
  · intro l hl spoilt o ho
    obtain ⟨e, unready⟩ := spoilt.exists_unready
    rw [mem_outcomes ho]
    exact Chart.exists_assemble_error hl unready o.metric
  · intro o₁ ho₁ chart hchart o₂ ho₂ e he
    rw [mem_outcomes ho₁] at hchart
    rw [mem_outcomes ho₂] at he
    -- otherwise the first metric would fail as well
    by_contra hvalues
    push Not at hvalues
    obtain ⟨e', he', -⟩ := Chart.assemble_error_of_error he hvalues o₁.metric
    simp [hchart] at he'

end Settings
end LoadSweep
