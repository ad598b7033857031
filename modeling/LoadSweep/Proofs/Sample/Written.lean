import LoadSweep.CommandLine.Sample
import LoadSweep.Proofs.Files
import Mathlib.Data.List.Nodup

/-! The runs that are drawn for a load, and the files that hold them. -/
namespace LoadSweep.Sample

/-- The runs at a load. -/
structure Runs where
  swept : List (UInt32 × Run)
  baseline : List Run

namespace Runs

/-- There are `n` runs for each sample size, one size after another, and `n` of the baseline. -/
structure Sized (rs : Runs) (n : Nat) : Prop where
  swept : rs.swept.map (·.1) = sizes.flatMap (List.replicate n)
  baseline : rs.baseline.length = n

def dataSets (directory : String) (load : UInt32) (rs : Runs) : List DataSet :=
  [⟨sweptPath directory load, sweptText rs.swept⟩, ⟨baselinePath directory load, baselineText rs.baseline⟩]

end Runs

def drawAt (load : UInt32) (n : Nat) : Draw Runs := do
  let swept ← sweptRuns load n sizes
  let baseline ← baselineRuns load n
  return ⟨swept, baseline⟩

def drawRuns (n : Nat) : List UInt32 → Draw (List (UInt32 × Runs))
  | [] => return []
  | load :: loads => do
    let rs ← drawAt load n
    let others ← drawRuns n loads
    return (load, rs) :: others

def Request.drawn (r : Request) : List (UInt32 × Runs) := (drawRuns r.runs.toNat loads (Stream.ofSeed r.seed)).1

section

variable {files : Files} {directory : String} {n : Nat} {s s' : Stream}

end

namespace Request

variable {r : Request} {files : Files} {s : Stream}

end Request
end LoadSweep.Sample
