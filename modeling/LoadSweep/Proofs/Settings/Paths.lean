import LoadSweep.Proofs.Decimal.Digits
import LoadSweep.Proofs.Settings

/-! A data set is named by a variant, an underscore, a load, a point and the ending. A load is written in digits, so
the last underscore before the ending is the one behind the variant, whatever the variant and the ending hold. -/
namespace LoadSweep

/-- The last separator of a list is known by what follows it. -/
theorem append_separator_inj {α : Type} {c : α} {xs ys as bs : List α} (has : c ∉ as) (hbs : c ∉ bs) :
    xs ++ c :: as = ys ++ c :: bs ↔ xs = ys ∧ as = bs := by
  constructor
  · intro h
    rcases List.append_eq_append_iff.1 h with ⟨zs, hys, htail⟩ | ⟨zs, hxs, htail⟩
    · cases zs with
      | nil => simp_all
      | cons z zs =>
        obtain ⟨rfl, rfl⟩ := List.cons.inj htail
        simp at has
    · cases zs with
      | nil => simp_all
      | cons z zs =>
        obtain ⟨rfl, rfl⟩ := List.cons.inj htail
        simp at hbs
  · rintro ⟨rfl, rfl⟩
    rfl

namespace Path

/-- Of two paths that both lead from the root, or both do not, each leads elsewhere from a directory. -/
theorem join_inj {directory p q : String} (h : isRooted p = isRooted q) :
    join directory p = join directory q ↔ p = q := by
  unfold join
  rw [h]
  split_ifs
  · rfl
  · exact String.append_right_inj directory
  · exact String.append_right_inj (directory ++ "/")

end Path

namespace Settings

variable {s : Settings} {v w : String} {load other : UInt32} {ls : List Level}

theorem underscore_notMem_load (load : UInt32) : '_' ∉ (toString load).toList := by
  rw [Decimal.toList_toString]
  exact Nat.underscore_not_in_toDigits

theorem toString_load_inj : toString load = toString other ↔ load = other := by
  refine ⟨fun h => ?_, congrArg toString⟩
  exact UInt32.toNat_inj.1 (Nat.repr_injective h)

theorem toList_name (v : String) (load : UInt32) (ending : String) :
    (s!"{v}_{load}.{ending}").toList = v.toList ++ '_' :: (toString load).toList ++ '.' :: ending.toList := by
  simp [toString]

/-- The name of a data set is as good as its variant and its load. -/
theorem name_inj (ending : String) : s!"{v}_{load}.{ending}" = s!"{w}_{other}.{ending}" ↔ v = w ∧ load = other := by
  rw [← String.toList_inj, toList_name, toList_name, List.append_left_inj,
    append_separator_inj (underscore_notMem_load load) (underscore_notMem_load other), String.toList_inj,
    String.toList_inj, toString_load_inj]

/-- The name of a data set leads from the root if its variant does. -/
theorem isRooted_name (v : String) (load : UInt32) (ending : String) :
    Path.isRooted s!"{v}_{load}.{ending}" = Path.isRooted v := by
  rw [Path.isRooted, Path.isRooted, toList_name]
  cases v.toList <;> rfl

theorem datasetPath_inj (h : Path.isRooted v = Path.isRooted w) :
    s.datasetPath v load = s.datasetPath w other ↔ v = w ∧ load = other := by
  unfold datasetPath
  rw [Path.join_inj (by rw [isRooted_name, isRooted_name, h]), name_inj]

/-- At different loads a variant has different data sets. -/
theorem nodup_datasetPaths (hloads : (s.levels.map (·.load)).Nodup) (v : String) :
    (s.levels.map fun l => s.datasetPath v l.load).Nodup := by
  refine List.pairwise_map.2 ((List.pairwise_map.1 hloads).imp ?_)
  intro l l' hne hpath
  exact hne ((datasetPath_inj rfl).1 hpath).2

/-- The path of a data set tells its variant and its load, as long as all variants lead from the root or none does. So
with valid settings no two levels share a data set of either variant, and two different variants share none at all. -/
theorem paths_apart (s : Settings) :
    (∀ v w load other, Path.isRooted v = Path.isRooted w →
      (s.datasetPath v load = s.datasetPath w other ↔ v = w ∧ load = other)) ∧
    (s.check = .ok () → (s.levels.map s.sweptPath).Nodup ∧ (s.levels.map s.baselinePath).Nodup ∧
      (s.sweptVariant ≠ s.baselineVariant → Path.isRooted s.sweptVariant = Path.isRooted s.baselineVariant →
        (s.levels.map s.sweptPath ++ s.levels.map s.baselinePath).Nodup)) := by
  refine ⟨fun v w load other => datasetPath_inj, fun hcheck => ?_⟩
  have hloads := (check_eq_ok_iff.1 hcheck).loads
  have hswept : (s.levels.map s.sweptPath).Nodup := nodup_datasetPaths hloads s.sweptVariant
  have hbaseline : (s.levels.map s.baselinePath).Nodup := nodup_datasetPaths hloads s.baselineVariant
  refine ⟨hswept, hbaseline, fun hvariants hrooted => hswept.append hbaseline ?_⟩
  intro path hs hb
  obtain ⟨l, -, rfl⟩ := List.mem_map.1 hs
  obtain ⟨l', -, hpath⟩ := List.mem_map.1 hb
  exact hvariants ((datasetPath_inj hrooted).1 hpath.symm).1

/-- Variants that end like the names of data sets, in a directory with a slash behind it. -/
def nested : Settings :=
  { standard with directory := "runs/", sweptVariant := "run_4000", baselineVariant := "run", ending := "4000.csv" }

theorem paths_apart_nested :
    Path.isRooted nested.sweptVariant = Path.isRooted nested.baselineVariant ∧
      nested.datasetPath "run_4000" 2000 ≠ nested.datasetPath "run" 4000 ∧
      nested.check = .ok () ∧ nested.sweptVariant ≠ nested.baselineVariant ∧
      (nested.levels.map nested.sweptPath ++ nested.levels.map nested.baselinePath).Nodup := by
  have hrooted : Path.isRooted nested.sweptVariant = Path.isRooted nested.baselineVariant := by decide
  have hcheck : nested.check = .ok () := by decide +kernel
  have hvariants : nested.sweptVariant ≠ nested.baselineVariant := by decide
  obtain ⟨hpath, hpaths⟩ := paths_apart nested
  refine ⟨hrooted, ?_, hcheck, hvariants, (hpaths hcheck).2.2 hvariants hrooted⟩
  intro h
  exact hvariants ((hpath _ _ _ _ hrooted).1 h).1

/-- A variant that leads from the root can lead to the data set of one that does not. -/
example : ({ standard with directory := "/runs" }).datasetPath "/runs/run" 1 =
    ({ standard with directory := "/runs" }).datasetPath "run" 1 := by decide

end Settings
end LoadSweep
