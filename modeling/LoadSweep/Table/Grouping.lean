import LoadSweep.Failure
import LoadSweep.Mean
import LoadSweep.Series
import LoadSweep.Table

/-! Rows with one key form a group. One pass over the rows keeps a running state for each group; groups may be
interleaved. A pass reads the cells as numbers of any arithmetic: as doubles when it runs, as exact numbers to say
what it would give without rounding. -/
namespace LoadSweep

/-- Folds the rows of each group, in their order, from `start`. -/
def groupFold {ρ σ : Type} (key : ρ → Key) (start : σ) (step : σ → ρ → σ) (rows : List ρ) : Series σ :=
  rows.foldl (fun groups row => groups.alter (key row) fun state => step (state.getD start) row) .empty

/-- Each group is folded as if the rows of no other group were there. -/
theorem get?_groupFold {ρ σ : Type} (key : ρ → Key) (start : σ) (step : σ → ρ → σ) (rows : List ρ) (k : Key) :
    (groupFold key start step rows).get? k =
      if k ∈ rows.map key then some ((rows.filter (key · = k)).foldl step start) else none := by
  have go (groups : Series σ) :
      (rows.foldl (fun groups row => groups.alter (key row) fun state => step (state.getD start) row)
        groups).get? k =
        if k ∈ rows.map key then some ((rows.filter (key · = k)).foldl step ((groups.get? k).getD start))
        else groups.get? k := by
    induction rows generalizing groups with
    | nil => simp
    | cons row rows ih =>
      rw [List.foldl_cons, ih, Series.get?_alter]
      by_cases hk : key row = k
      · by_cases hm : k ∈ rows.map key
        · simp [hk, hm]
        · have none_left : rows.filter (key · = k) = [] := by
            rw [List.filter_eq_nil_iff]
            intro r hr hrk
            exact hm (List.mem_map.2 ⟨r, hr, by simpa using hrk⟩)
          simp [hk, hm, none_left]
      · simp [hk, Ne.symm hk]
  simpa [groupFold, Series.get?_empty] using go .empty

theorem mem_keys_groupFold {ρ σ : Type} {key : ρ → Key} {start : σ} {step : σ → ρ → σ} {rows : List ρ} {k : Key} :
    k ∈ (groupFold key start step rows).keys ↔ k ∈ rows.map key := by
  rw [Series.mem_keys, get?_groupFold]
  split <;> simp_all

/-- The running mean of each group of keyed values. -/
def groupedMeans {α : Type} [Averaging α] (rows : List (Key × α)) : Series α :=
  (groupFold (·.1) RunningMean.empty (fun m row => m.push row.2) rows).map (·.mean)

/-- The running means of each group of keyed value lists, value by value. -/
def groupedRowMeans {α : Type} [Averaging α] (width : Nat) (rows : List (Key × Vector α width)) :
    Series (Vector α width) :=
  (groupFold (·.1) (Vector.replicate width RunningMean.empty)
    (fun ms row => Vector.zipWith RunningMean.push ms row.2) rows).map (·.map (·.mean))

namespace Table

variable {γ : Type}

def checkNonEmpty (t : Table γ) : Except Failure Unit :=
  if t.isEmpty then .error (.emptyDataset t.source) else .ok ()

def column (t : Table γ) (c : Nat) : Except Failure (Fin t.width) :=
  if h : c < t.width then .ok ⟨c, h⟩ else .error (.columnOutOfRange t.source c t.width)

/-- The columns of the table by their numbers, up to the first that it does not have. -/
def columns (t : Table γ) : (cs : List Nat) → Except Failure (Vector (Fin t.width) cs.length)
  | [] => .ok #v[]
  | c :: cs => do
    let first ← t.column c
    let rest ← t.columns cs
    return (#v[first] ++ rest).cast (Nat.add_comm 1 cs.length)

section

variable {α : Type} [Averaging α] (t : Table γ) (read : γ → α)

def overallMeanBy (value : Nat) : Except Failure α := do
  t.checkNonEmpty
  let value ← t.column value
  return runningMean (t.rows.map fun row => read (row.get value))

variable [Cell γ]

def keyOf {width : Nat} (key : Fin width) (row : Row width γ) : Key := Cell.key row[key]

/-- Means of a column per distinct value of the key column. -/
def groupMeanBy (key value : Nat) : Except Failure (Series α) := do
  t.checkNonEmpty
  let key ← t.column key
  let value ← t.column value
  return groupedMeans (t.rows.map fun row => (keyOf key row, read (row.get value)))

/-- Means of several columns per distinct value of the key column, a series for each of the columns. -/
def groupMeansBy (key : Nat) (values : List Nat) : Except Failure (List (Series α)) := do
  t.checkNonEmpty
  let key ← t.column key
  let columns ← t.columns values
  let means := groupedRowMeans _ (t.rows.map fun row => (keyOf key row, columns.map fun c => read (row.get c)))
  return List.ofFn fun i : Fin values.length => means.map (·.get i)

/-- The mean, over the groups, of the means of a column. Every group counts once, however many rows it has. -/
def meanOfGroupMeansBy (key value : Nat) : Except Failure α := do
  let means ← t.groupMeanBy read key value
  return runningMean means.values

end

variable [Cell γ]

def groupMean (t : Table γ) (key value : Nat) : Except Failure (Series Float) := t.groupMeanBy Cell.number key value

def groupMeans (t : Table γ) (key : Nat) (values : List Nat) : Except Failure (List (Series Float)) :=
  t.groupMeansBy Cell.number key values

def overallMean (t : Table γ) (value : Nat) : Except Failure Float := t.overallMeanBy Cell.number value

def meanOfGroupMeans (t : Table γ) (key value : Nat) : Except Failure Float :=
  t.meanOfGroupMeansBy Cell.number key value

end Table
end LoadSweep
