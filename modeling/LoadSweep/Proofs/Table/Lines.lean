import LoadSweep.Table.Record

/-! The lines of a text and the numbers that messages give them. A record is a line that is not empty:
`Record.ofSource_eq_numbered` says that cutting at single bytes and dropping what is empty finds the same records as
cutting at line ends of one or two bytes. -/
namespace LoadSweep

/-- A line and the line end after it; the last line of a text has none. -/
structure Line where
  bytes : List UInt8
  ending : List UInt8
  deriving DecidableEq, Repr

namespace Line

def whole (l : Line) : List UInt8 := l.bytes ++ l.ending

/-- Puts a byte before a line. -/
def push (b : UInt8) (l : Line) : Line := ⟨b :: l.bytes, l.ending⟩

end Line

open Record

/-- Cuts a text at `\n`, `\r\n` and `\r`. -/
def lines : List UInt8 → List Line
  | [] => [⟨[], []⟩]
  | 13 :: 10 :: rest => ⟨[], [13, 10]⟩ :: lines rest
  | b :: rest => if isLineEnd b then ⟨[], [b]⟩ :: lines rest else (lines rest).modifyHead (.push b)

/-- The number of the line after `before`: one more than the line feeds up to the first byte of the line end of
the last line there that is not empty. -/
def numberAfter (before : List Line) : Nat :=
  match before.reverse.dropWhile (·.bytes.isEmpty) with
  | [] => 1
  | l :: earlier => 1 + ((earlier.reverse.flatMap Line.whole ++ l.bytes) ++ l.ending.take 1).count lineFeed

/-- The records of lines, `prior` being the lines before them. -/
def numbered (prior : List Line) : List Line → List Record
  | [] => []
  | l :: ls =>
    if l.bytes.isEmpty then numbered (prior ++ [l]) ls
    else ⟨numberAfter prior, l.bytes⟩ :: numbered (prior ++ [l]) ls

/-- Lines as a text is cut into them: no line end inside of a line, and one after each line but the last. -/
inductive Cut : List Line → Prop
  | last {body : List UInt8} (plain : ∀ b ∈ body, isLineEnd b = false) : Cut [⟨body, []⟩]
  | cons {body ending : List UInt8} {ls : List Line} (plain : ∀ b ∈ body, isLineEnd b = false)
      (ends : ending = [10] ∨ ending = [13] ∨ ending = [13, 10]) (rest : Cut ls) : Cut (⟨body, ending⟩ :: ls)

theorem Cut.push {b : UInt8} {ls : List Line} (hb : isLineEnd b = false) (h : Cut ls) :
    Cut (ls.modifyHead (.push b)) := by
  have plain_cons {body : List UInt8} (plain : ∀ c ∈ body, isLineEnd c = false) :
      ∀ c ∈ b :: body, isLineEnd c = false := by
    intro c hc
    rcases List.mem_cons.1 hc with rfl | hc
    · exact hb
    · exact plain c hc
  cases h with
  | last plain => exact .last (plain_cons plain)
  | cons plain ends rest => exact .cons (plain_cons plain) ends rest

theorem isLineEnd_iff {b : UInt8} : isLineEnd b = true ↔ b = 10 ∨ b = 13 := by
  simp [isLineEnd, lineFeed, carriageReturn]

theorem cut_lines (text : List UInt8) : Cut (lines text) := by
  fun_induction lines text with
  | case1 => exact .last (by simp)
  | case2 rest ih => exact .cons (by simp) (by simp) ih
  | case3 b rest _ hb ih =>
    refine .cons (by simp) ?_ ih
    rcases isLineEnd_iff.1 hb with rfl | rfl
    · exact .inl rfl
    · exact .inr (.inl rfl)
  | case4 b rest _ hb ih => exact ih.push (by simpa using hb)

/-- Cutting loses no byte and invents none. -/
theorem flatMap_lines (text : List UInt8) : (lines text).flatMap Line.whole = text := by
  fun_induction lines text with
  | case1 => rfl
  | case2 rest ih => simp [Line.whole, ih]
  | case3 b rest _ _ ih => simp [Line.whole, ih]
  | case4 b rest _ _ ih =>
    cases hls : lines rest with
    | nil => exact absurd (hls ▸ cut_lines rest) nofun
    | cons l ls => simpa [hls, Line.whole, Line.push] using ih

theorem stretches_plain {body : List UInt8} (plain : ∀ b ∈ body, isLineEnd b = false) :
    stretches body = ([], body) := by
  induction body with
  | nil => rfl
  | cons b body ih =>
    have hb := plain b (by simp)
    have hbody := ih fun c hc => plain c (by simp [hc])
    simp [stretches, hb, hbody]

theorem stretches_append {body : List UInt8} (plain : ∀ b ∈ body, isLineEnd b = false) {e : UInt8}
    (he : isLineEnd e = true) (rest : List UInt8) :
    stretches (body ++ e :: rest) = (⟨body, e⟩ :: (stretches rest).1, (stretches rest).2) := by
  induction body with
  | nil => simp [stretches, he]
  | cons b body ih =>
    have hb := plain b (by simp)
    have hbody := ih fun c hc => plain c (by simp [hc])
    simp [stretches, hb, hbody]

/-- The records of bytes that follow others: `line` is the number of the next record, `feeds` counts the line
feeds before it. -/
def recordsFrom (line feeds : Nat) (bytes : List UInt8) : List Record :=
  let records := number line feeds (stretches bytes).1
  let last := (stretches bytes).2
  records.1 ++ if last.isEmpty then [] else [⟨records.2, last⟩]

theorem ofSource_eq_recordsFrom (bytes : List UInt8) :
    ofSource ⟨bytes, false⟩ = recordsFrom 1 0 (dropMark bytes) := by
  simp only [ofSource, completed, recordsFrom, Source.isCut, Bool.false_and, Bool.false_eq_true, if_false]
  split <;> rfl

theorem recordsFrom_plain {body : List UInt8} (plain : ∀ b ∈ body, isLineEnd b = false) (line feeds : Nat) :
    recordsFrom line feeds body = if body.isEmpty then [] else [⟨line, body⟩] := by
  simp [recordsFrom, stretches_plain plain, number]

theorem recordsFrom_append {body : List UInt8} (plain : ∀ b ∈ body, isLineEnd b = false) {e : UInt8}
    (he : isLineEnd e = true) (line feeds : Nat) (rest : List UInt8) :
    recordsFrom line feeds (body ++ e :: rest) =
      if body.isEmpty then recordsFrom line (feeds + [e].count lineFeed) rest
      else ⟨line, body⟩ :: recordsFrom (1 + (feeds + [e].count lineFeed)) (feeds + [e].count lineFeed) rest := by
  by_cases hbody : body.isEmpty <;>
    simp [recordsFrom, stretches_append plain he, number, hbody, List.count_cons, Nat.add_comm 1]

/-- A line end of two bytes counts its first byte before it numbers the next line, and the second one later. -/
theorem recordsFrom_line {body ending : List UInt8} (plain : ∀ b ∈ body, isLineEnd b = false)
    (ends : ending = [10] ∨ ending = [13] ∨ ending = [13, 10]) (line feeds : Nat) (rest : List UInt8) :
    recordsFrom line feeds (body ++ ending ++ rest) =
      if body.isEmpty then recordsFrom line (feeds + ending.count lineFeed) rest
      else ⟨line, body⟩ ::
        recordsFrom (1 + (feeds + (ending.take 1).count lineFeed)) (feeds + ending.count lineFeed) rest := by
  have feed_is_end : isLineEnd 10 = true := rfl
  have return_is_end : isLineEnd 13 = true := rfl
  rcases ends with rfl | rfl | rfl
  · simpa using recordsFrom_append plain feed_is_end line feeds rest
  · simpa using recordsFrom_append plain return_is_end line feeds rest
  · have second (line feeds : Nat) : recordsFrom line feeds ([] ++ 10 :: rest) = _ :=
      recordsFrom_append (by simp) feed_is_end line feeds rest
    have first := recordsFrom_append plain return_is_end line feeds (10 :: rest)
    simp only [List.nil_append, List.isEmpty_nil, if_true] at second
    simpa [second, Nat.add_assoc, lineFeed] using first

theorem numberAfter_append_empty {l : Line} (hl : l.bytes.isEmpty = true) (prior : List Line) :
    numberAfter (prior ++ [l]) = numberAfter prior := by
  simp [numberAfter, hl]

theorem numberAfter_append {l : Line} (hl : l.bytes.isEmpty = false) (prior : List Line) :
    numberAfter (prior ++ [l]) =
      1 + ((prior.flatMap Line.whole ++ l.bytes) ++ l.ending.take 1).count lineFeed := by
  simp [numberAfter, hl]

theorem count_lineFeed_plain {body : List UInt8} (plain : ∀ b ∈ body, isLineEnd b = false) :
    body.count lineFeed = 0 := by
  rw [List.count_eq_zero]
  intro hmem
  have := plain _ hmem
  simp [isLineEnd] at this

/-- The records of a text that is cut into lines, line by line. -/
theorem recordsFrom_cut {ls : List Line} (h : Cut ls) (prior : List Line) :
    recordsFrom (numberAfter prior) ((prior.flatMap Line.whole).count lineFeed) (ls.flatMap Line.whole) =
      numbered prior ls := by
  induction h generalizing prior with
  | @last body plain =>
    have hwhole : [Line.mk body []].flatMap Line.whole = body := by simp [Line.whole]
    rw [hwhole, recordsFrom_plain plain]
    rfl
  | @cons body ending ls plain ends rest ih =>
    have hbody := count_lineFeed_plain plain
    have hcount : ((prior ++ [Line.mk body ending]).flatMap Line.whole).count lineFeed =
        (prior.flatMap Line.whole).count lineFeed + ending.count lineFeed := by
      simp [Line.whole, hbody]
    -- the feeds of an empty line count at once, its number is given only with the next line that is not empty
    rw [List.flatMap_cons, Line.whole, recordsFrom_line plain ends, numbered, ← ih, hcount]
    by_cases hempty : body.isEmpty
    · rw [if_pos hempty, if_pos hempty, numberAfter_append_empty hempty]
    · have hnumber := numberAfter_append (l := ⟨body, ending⟩) (by simpa using hempty) prior
      rw [if_neg hempty, if_neg hempty, hnumber]
      simp [hbody]

/-- The records of a source are its lines that are not empty, each numbered by the lines before it. -/
theorem Record.ofSource_eq_numbered (bytes : List UInt8) :
    ofSource ⟨bytes, false⟩ = numbered [] (lines (dropMark bytes)) := by
  have h := recordsFrom_cut (cut_lines (dropMark bytes)) []
  rw [flatMap_lines] at h
  rw [ofSource_eq_recordsFrom, ← h]
  rfl

end LoadSweep
