import LoadSweep.Proofs.Table.Grammar
import Mathlib.Data.List.Induction

/-! A record takes its number from the end of the record before it. So the number that a flaw is reported with stays
behind the line it means: empty lines just before the line are not counted, and a line end of two bytes is counted by
its first byte, which is no line feed. `flaw_number` says by how much, in texts with line ends of one kind. -/
namespace LoadSweep

open Record

/-- How many of the last lines are empty. -/
def emptyRun (ls : List Line) : Nat := (ls.reverse.takeWhile (·.bytes.isEmpty)).length

/-- By how much the number of a line stays behind if `before`, with line ends `ending`, stand before the line. -/
def lag (ending : List UInt8) (before : List Line) : Nat :=
  emptyRun before + if before.all (·.bytes.isEmpty) then 0 else ending.length - 1

/-- Lines with the same line end after each of them. -/
def Uniform (ending : List UInt8) (ls : List Line) : Prop :=
  ∀ l ∈ ls, (∀ b ∈ l.bytes, isLineEnd b = false) ∧ l.ending = ending

/-- A text in which every line ends alike; after the last line there may be no line end. -/
def EndsAlike (ending text : List UInt8) : Prop :=
  ∀ l ∈ lines (dropMark text), l.ending = ending ∨ l.ending = []

variable {ending text : List UInt8} {before after : List Line} {l : Line}

theorem lag_concat_of_empty (hl : l.bytes.isEmpty = true) : lag ending (before ++ [l]) = lag ending before + 1 := by
  simp only [lag, emptyRun, List.reverse_append, List.reverse_singleton, List.singleton_append, List.takeWhile_cons, hl,
    if_true, List.length_cons, List.all_append, List.all_cons, List.all_nil, Bool.and_true]
  omega

theorem lag_concat_of_filled (hl : l.bytes.isEmpty = false) : lag ending (before ++ [l]) = ending.length - 1 := by
  simp [lag, emptyRun, hl]

/-- The number is right on the first line, and behind a line that is not empty if line ends have one byte. -/
theorem lag_eq_zero_iff :
    lag ending before = 0 ↔
      before = [] ∨ ending.length ≤ 1 ∧ ∃ l, before.getLast? = some l ∧ l.bytes ≠ [] := by
  rcases List.eq_nil_or_concat before with rfl | ⟨front, l, rfl⟩
  · simp [lag, emptyRun]
  · cases hl : l.bytes.isEmpty with
    | true =>
      have hnil : l.bytes = [] := List.isEmpty_iff.1 hl
      simp [lag_concat_of_empty hl, hnil]
    | false =>
      have hne : l.bytes ≠ [] := by simpa using hl
      simp [lag_concat_of_filled hl, hne, Nat.sub_eq_zero_iff_le]

theorem Uniform.of_concat (h : Uniform ending (before ++ [l])) :
    Uniform ending before ∧ (∀ b ∈ l.bytes, isLineEnd b = false) ∧ l.ending = ending :=
  ⟨fun m hm => h m (List.mem_append_left _ hm), h l (by simp)⟩

theorem count_lineFeed_whole (hending : ending = [10] ∨ ending = [13, 10]) (h : Uniform ending before) :
    (before.flatMap Line.whole).count lineFeed = before.length := by
  induction before with
  | nil => rfl
  | cons l ls ih =>
    obtain ⟨⟨plain, hl⟩, hls⟩ := List.forall_mem_cons.1 h
    have hone : ending.count lineFeed = 1 := by rcases hending with rfl | rfl <;> rfl
    simp [Line.whole, count_lineFeed_plain plain, hl, hone, ih hls, Nat.add_comm]

/-- What a number lacks of the number of its line. -/
theorem numberAfter_add_lag (hending : ending = [10] ∨ ending = [13, 10]) (h : Uniform ending before) :
    numberAfter before + lag ending before = before.length + 1 := by
  induction before using List.reverseRecOn with
  | nil => rfl
  | append_singleton ls l ih =>
    obtain ⟨hls, plain, hl⟩ := h.of_concat
    have hbefore := ih hls
    have hfeeds := count_lineFeed_whole hending hls
    cases hempty : l.bytes.isEmpty with
    | true =>
      rw [numberAfter_append_empty hempty, lag_concat_of_empty hempty, List.length_append, List.length_singleton]
      omega
    | false =>
      -- the first byte of the line end after `l` is counted in the number, what is behind it is the lag
      have hend : (ending.take 1).count lineFeed + (ending.length - 1) = 1 := by
        rcases hending with rfl | rfl <;> rfl
      rw [numberAfter_append hempty, lag_concat_of_filled hempty, hl, List.count_append, List.count_append, hfeeds,
        count_lineFeed_plain plain, List.length_append, List.length_singleton]
      omega

/-- A line that another line follows has a line end. -/
theorem Cut.ended {bad : Line} {ls : List Line} (h : Cut ls) (hls : ls = before ++ bad :: after) :
    ∀ l ∈ before, (∀ b ∈ l.bytes, isLineEnd b = false) ∧ l.ending ≠ [] := by
  induction h generalizing before with
  | last plain =>
    obtain rfl : before = [] := by
      have hlength := congrArg List.length hls
      simp only [List.length_cons, List.length_nil, List.length_append] at hlength
      exact List.eq_nil_of_length_eq_zero (by omega)
    simp
  | cons plain ends rest ih =>
    cases before with
    | nil => simp
    | cons l front =>
      obtain ⟨rfl, hfront⟩ := List.cons.inj hls
      refine List.forall_mem_cons.2 ⟨⟨plain, ?_⟩, ih hfront⟩
      rcases ends with rfl | rfl | rfl <;> simp

theorem EndsAlike.uniform {bad : Line} (h : EndsAlike ending text)
    (hlines : lines (dropMark text) = before ++ bad :: after) : Uniform ending before := by
  intro l hl
  obtain ⟨plain, hsome⟩ := (cut_lines (dropMark text)).ended hlines l hl
  have hmem : l ∈ lines (dropMark text) := by
    rw [hlines]
    exact List.mem_append_left _ hl
  exact ⟨plain, (h l hmem).resolve_right hsome⟩

/-- A mark has no line feed in it. -/
theorem exists_mark (text : List UInt8) : ∃ mark, text = mark ++ dropMark text ∧ mark.count lineFeed = 0 := by
  unfold dropMark
  split
  · exact ⟨byteOrderMark, rfl, rfl⟩
  · exact ⟨[], rfl, rfl⟩

namespace Table

/-- A flaw and its place: `bad` is the first line of a text that is neither blank nor a row, `before` are the lines and
`front` all bytes before it. -/
structure FlawAt (width : Nat) (text : List UInt8) (flaw : RowFlaw) (before : List Line) (bad : Line)
    (front : List UInt8) : Prop where
  first : FirstIn (fun l => l.isBlank = true ∨ ∃ row : Row width, l.Holds row) (lines (dropMark text)) before bad
  filled : bad.isBlank = false
  flawed : bad.Flawed width flaw
  place : ∃ after, lines (dropMark text) = before ++ bad :: after ∧ text = front ++ (bad :: after).flatMap Line.whole

variable {path source : String} {width number : Nat} {flaw : RowFlaw}

theorem exists_flawAt (h : Table.read path width ⟨text, false⟩ = .error (.malformedRow source number flaw)) :
    ∃ before bad front, FlawAt width text flaw before bad front ∧ number = numberAfter before ∧
      front.count lineFeed = (before.flatMap Line.whole).count lineFeed := by
  rw [read_eq_map, map_eq_error_iff, readRecords_numbered_eq_error_iff] at h
  obtain ⟨before, bad, hfirst, hfilled, _, hflawed, heq⟩ := h
  obtain ⟨-, rfl, rfl⟩ := Failure.malformedRow.inj heq
  obtain ⟨after, hlines⟩ := hfirst.1
  obtain ⟨mark, htext, hmark⟩ := exists_mark text
  refine ⟨before, bad, mark ++ before.flatMap Line.whole, ⟨hfirst, hfilled, hflawed, after, hlines, ?_⟩, rfl, ?_⟩
  · rw [List.append_assoc, ← List.flatMap_append, ← hlines, flatMap_lines]
    exact htext
  · rw [List.count_append, hmark, Nat.zero_add]

/-- The number that a flaw is reported with, in a text all of whose lines end in `\n` or all in `\r\n`. The number of
the flawed line, one more than the line feeds before its first byte, is that number and its lag. So the number is that
of the line if it is the first one, or if lines end in `\n` and the line just before it is not empty, and too small
otherwise. -/
theorem flaw_number (hending : ending = [10] ∨ ending = [13, 10]) (hends : EndsAlike ending text)
    (h : Table.read path width ⟨text, false⟩ = .error (.malformedRow source number flaw)) :
    ∃ before bad front, FlawAt width text flaw before bad front ∧
      before.length + 1 = 1 + front.count lineFeed ∧
      number + lag ending before = 1 + front.count lineFeed ∧
      (number = 1 + front.count lineFeed ↔
        before = [] ∨ ending = [10] ∧ ∃ l, before.getLast? = some l ∧ l.bytes ≠ []) := by
  obtain ⟨before, bad, front, hflaw, rfl, hfront⟩ := exists_flawAt h
  obtain ⟨after, hlines, -⟩ := hflaw.place
  have huniform := hends.uniform hlines
  have hfeeds := count_lineFeed_whole hending huniform
  have hnumber := numberAfter_add_lag hending huniform
  have hone : ending.length ≤ 1 ↔ ending = [10] := by rcases hending with rfl | rfl <;> simp
  refine ⟨before, bad, front, hflaw, by omega, by omega, ?_⟩
  rw [← hone, ← lag_eq_zero_iff]
  omega

/-- A row behind an empty line, in lines that end in two bytes. -/
theorem flaw_number_two_bytes :
    EndsAlike [13, 10] (Text.Utf8.bytesOf "1 2\r\n\r\n3\r\n") ∧
    Table.read "in.csv" 2 ⟨Text.Utf8.bytesOf "1 2\r\n\r\n3\r\n", false⟩ =
      .error (.malformedRow "in.csv" 1 (.wrongCount 2 1)) ∧
    ∃ before bad front, FlawAt 2 (Text.Utf8.bytesOf "1 2\r\n\r\n3\r\n") (.wrongCount 2 1) before bad front ∧
      1 + lag [13, 10] before = 1 + front.count lineFeed := by
  have hends : EndsAlike [13, 10] (Text.Utf8.bytesOf "1 2\r\n\r\n3\r\n") := by
    unfold EndsAlike
    decide +kernel
  have hread : Table.read "in.csv" 2 ⟨Text.Utf8.bytesOf "1 2\r\n\r\n3\r\n", false⟩ =
      .error (.malformedRow "in.csv" 1 (.wrongCount 2 1)) := (map_eq_error_iff (f := fun _ => ())).1 (by decide +kernel)
  obtain ⟨before, bad, front, hflaw, -, hlag, -⟩ := flaw_number (.inr rfl) hends hread
  exact ⟨hends, hread, before, bad, front, hflaw, hlag⟩

/-- The third line of the first text is reported as the second, as an empty line stands before it, and the second line
of the other as the first, as its lines end in two bytes. -/
theorem number_behind :
    ((lines (Text.Utf8.bytesOf "1 2\n\n3\n")).map (·.bytes) = ["1 2", "", "3", ""].map Text.Utf8.bytesOf ∧
      Table.read "in.csv" 2 ⟨Text.Utf8.bytesOf "1 2\n\n3\n", false⟩ =
        .error (.malformedRow "in.csv" 2 (.wrongCount 2 1))) ∧
    (lines (Text.Utf8.bytesOf "1 2\r\n3\r\n")).map (·.bytes) = ["1 2", "3", ""].map Text.Utf8.bytesOf ∧
      Table.read "in.csv" 2 ⟨Text.Utf8.bytesOf "1 2\r\n3\r\n", false⟩ =
        .error (.malformedRow "in.csv" 1 (.wrongCount 2 1)) := by
  refine ⟨⟨?_, (map_eq_error_iff (f := fun _ => ())).1 ?_⟩, ?_, (map_eq_error_iff (f := fun _ => ())).1 ?_⟩
  all_goals decide +kernel

end Table
end LoadSweep
