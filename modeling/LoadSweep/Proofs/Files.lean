import LoadSweep.Files
import Mathlib.Data.List.Basic

/-! A written file is found by its path, and what was found by a path with another last name is still found: the new
entry stands where no directory was, so no way leads through it. -/
namespace LoadSweep

namespace Path

variable {name : String}

end Path

namespace Files

variable {fs fs' : Files} {place start q : List String} {names : List String} {name path : String} {e : Entry}
  {bytes : List UInt8}

@[simp] theorem home_put : (fs.put place e).home = fs.home := rfl

theorem at?_of_ne_directory (h : fs.at? place ≠ some .directory) : place.isPrefixOf fs.home = false := by
  rw [← Bool.not_eq_true]
  intro habove
  exact h (if_pos habove)

theorem at?_put_of_ne (h : q ≠ place) : (fs.put place e).at? q = fs.at? q := by
  have hput : (fs.put place e).entries.find? (·.1 == q) = fs.entries.find? (·.1 == q) := by
    rw [put, List.find?_cons_of_neg (by simpa using h.symm), List.find?_filter]
    congr 1
    funext entry
    by_cases hq : entry.1 = q <;> simp [hq, h]
  rw [at?, at?, hput, home_put]

theorem at?_put_self (h : fs.at? place ≠ some .directory) : (fs.put place e).at? place = some e := by
  rw [at?, home_put, at?_of_ne_directory h]
  simp [put]

theorem follow_of_not_directory (h : fs.at? start ≠ some .directory) (name : String) (names : List String) :
    fs.follow start (name :: names) = none := by
  rw [follow]
  split
  · rename_i hdirectory
    exact absurd hdirectory h
  · rfl

def next (start : List String) (name : String) : List String :=
  if !Path.isStep name then start else if name = ".." then start.dropLast else start ++ [name]

theorem follow_of_directory (h : fs.at? start = some .directory) (name : String) (names : List String) :
    fs.follow start (name :: names) = fs.follow (next start name) names := by
  simp only [follow, h, next]
  split
  · rfl
  · split <;> rfl

/-- A way leads through directories, so it is still there when something is put where no directory was. -/
theorem follow_put (hplace : fs.at? place ≠ some .directory) (h : fs.follow start names = some q) :
    (fs.put place e).follow start names = some q := by
  induction names generalizing start with
  | nil =>
    rw [follow, Option.map_eq_some_iff] at h ⊢
    obtain ⟨found, hfound, rfl⟩ := h
    by_cases hstart : start = place
    · exact ⟨e, by rw [hstart, at?_put_self hplace], rfl⟩
    · exact ⟨found, by rw [at?_put_of_ne hstart, hfound], rfl⟩
  | cons name names ih =>
    by_cases hstart : fs.at? start = some .directory
    · have hne : start ≠ place := by
        rintro rfl
        exact hplace hstart
      rw [follow_of_directory hstart] at h
      rw [follow_of_directory (by rw [at?_put_of_ne hne, hstart]), ih h]
    · rw [follow_of_not_directory hstart] at h
      cases h

/-- A path names a file in a directory that is there, and no directory stands in the way of the file. -/
structure Admits (fs : Files) (path : String) (start : List String) (name : String) : Prop where
  usable : Path.isUsable path = true
  fileName : Path.isFileName name = true
  way : ∃ before, Path.names path = before ++ [name] ∧ fs.follow (fs.start path) before = some start
  directory : fs.at? start = some .directory
  free : fs.at? (start ++ [name]) ≠ some .directory

theorem Admits.getLast? (h : fs.Admits path start name) : (Path.names path).getLast? = some name := by
  obtain ⟨before, hpath, -⟩ := h.way
  rw [hpath, List.getLast?_concat]

/-- What admits a file still does when another one is put. -/
theorem Admits.put {other : List String} (h : fs.Admits path start name) (hother : fs.at? other ≠ some .directory) :
    (fs.put other (.file bytes)).Admits path start name := by
  obtain ⟨before, hpath, hstart⟩ := h.way
  refine ⟨h.usable, h.fileName, ⟨before, hpath, follow_put hother hstart⟩, ?_, ?_⟩
  · have hne : start ≠ other := by
      rintro rfl
      exact hother h.directory
    rw [at?_put_of_ne hne, h.directory]
  · by_cases hplace : start ++ [name] = other
    · rw [hplace, at?_put_self hother]
      simp
    · rw [at?_put_of_ne hplace]
      exact h.free

end Files
end LoadSweep
