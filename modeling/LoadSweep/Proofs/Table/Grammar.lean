import LoadSweep.Proofs.Table.Lines
import LoadSweep.Proofs.Table.Words
import Mathlib.Data.List.Forall2

/-! A line is blank, holds a row or has a flaw, and which of these is said of the line as a whole. `read_verdict` says
that reading accepts exactly the texts all of whose lines are blank or hold a row, keeps every row in its place, and
otherwise reports the first line with a flaw. -/
namespace LoadSweep

namespace Line

/-- Nothing but white space stands in the line. -/
def isBlank (l : Line) : Bool := (Text.Utf8.decode l.bytes).any (·.all Text.isBlank)

/-- A word is read as a number, and the number is finite. -/
def Spells (word : List Char) (x : Float) : Prop := Decimal.read? word = some x ∧ x.isFinite = true

/-- The words of the line are the numbers of a row. -/
def Holds {width : Nat} (l : Line) (row : Row width) : Prop :=
  ∃ text, Text.Utf8.decode l.bytes = some text ∧ List.Forall₂ Spells (Text.words text) row.toList

/-- The line is no row of `width` numbers: because of a field that is no text, else because of the number of its
words, else because of a word that is no finite number. -/
inductive Flawed (width : Nat) (l : Line) : RowFlaw → Prop
  | notText {before : List (List UInt8)} {field : List UInt8}
      (first : FirstIn (fun bytes => (Text.Utf8.decode bytes).isSome) (l.bytes.splitOnP (· == 32)) before field)
      (bad : Text.Utf8.decode field = none) : Flawed width l (.notText before.length)
  | wrongCount {text : List Char} (decoded : Text.Utf8.decode l.bytes = some text)
      (count : (Text.words text).length ≠ width) : Flawed width l (.wrongCount width (Text.words text).length)
  | notNumber {text : List Char} {before : List (List Char)} {word : List Char}
      (decoded : Text.Utf8.decode l.bytes = some text) (count : (Text.words text).length = width)
      (first : FirstIn (fun w => ∃ x, Spells w x) (Text.words text) before word)
      (bad : ¬∃ x, Spells word x) : Flawed width l (.notNumber before.length (String.ofList word))

end Line

namespace Table

open Text Line

theorem number?_eq_some_iff {w : List Char} {x : Float} : number? w = some x ↔ Spells w x := by
  rw [number?, Option.filter_eq_some_iff, Spells]

theorem number?_isSome_iff {w : List Char} : (number? w).isSome = true ↔ ∃ x, Spells w x := by
  simp only [Option.isSome_iff_exists, number?_eq_some_iff]

theorem number?_eq_none_iff {w : List Char} : number? w = none ↔ ¬∃ x, Spells w x := by
  rw [← number?_isSome_iff, Option.not_isSome_iff_eq_none]

theorem mapM_number?_eq_some_iff {ws : List (List Char)} {xs : List Float} :
    ws.mapM number? = some xs ↔ List.Forall₂ Spells ws xs := by
  induction ws generalizing xs with
  | nil => simp [eq_comm]
  | cons w ws ih =>
    simp only [List.mapM_cons, Option.bind_eq_bind, Option.bind_eq_some_iff, Option.pure_def, Option.some.injEq,
      number?_eq_some_iff, ih, List.forall₂_cons_left_iff]
    constructor
    · rintro ⟨x, hx, xs, hxs, rfl⟩
      exact ⟨x, xs, hx, hxs, rfl⟩
    · rintro ⟨x, xs, hx, hxs, rfl⟩
      exact ⟨x, hx, xs, hxs, rfl⟩

theorem length_of_mapM_number? {ws : List (List Char)} {xs : List Float} (h : ws.mapM number? = some xs) :
    xs.length = ws.length := by
  rw [← readNumbers_toOption 0, Option.map_eq_some_iff] at h
  obtain ⟨found, -, rfl⟩ := h
  exact found.2

theorem readRow_eq_ok_iff {width : Nat} {ws : List (List Char)} {row : Row width} :
    readRow width ws = .ok row ↔ ws.mapM number? = some row.toList := by
  by_cases hlen : ws.length = width
  · have h := readNumbers_toOption 0 ws
    rw [readRow, dif_pos hlen, ← h]
    cases readNumbers 0 ws with
    | error flaw => simp [Except.map, Except.toOption]
    | ok xs => simp [Except.map, Except.toOption, ← Vector.toList_inj]
  · have hnot : ws.mapM number? ≠ some row.toList := by
      intro h
      have := length_of_mapM_number? h
      simp at this
      omega
    simp [readRow, hlen, hnot]

theorem readRow_eq_error_iff {width : Nat} {ws : List (List Char)} {flaw : RowFlaw} :
    readRow width ws = .error flaw ↔
      (ws.length ≠ width ∧ flaw = .wrongCount width ws.length) ∨
        (ws.length = width ∧ ∃ before bad, FirstIn (fun w => ∃ x, Spells w x) ws before bad ∧
          (¬∃ x, Spells bad x) ∧ flaw = .notNumber before.length (String.ofList bad)) := by
  by_cases hlen : ws.length = width
  · have h : readNumbers 0 ws = .error flaw ↔ _ := readNumbers_eq_error_iff
    simp only [Nat.zero_add, number?_isSome_iff, number?_eq_none_iff] at h
    rw [readRow, dif_pos hlen]
    simp only [hlen, ne_eq, not_true_eq_false, false_and, true_and, false_or, ← h]
    exact map_eq_error_iff
  · simp [readRow, hlen, @eq_comm _ flaw]

theorem readRecord_of_decode {width : Nat} {bytes : List UInt8} {text : List Char}
    (h : Utf8.decode bytes = some text) :
    readRecord width bytes = if words text = [] then .ok none else (readRow width (words text)).map some := by
  have hw : recordWords bytes = .ok (words text) := recordWords_eq_ok_iff.2 ⟨text, h, rfl⟩
  rw [readRecord, hw]
  cases words text <;> rfl

theorem recordWords_of_not_text {bytes : List UInt8} (h : Utf8.decode bytes = none) :
    ∃ flaw, recordWords bytes = .error flaw := by
  cases hw : recordWords bytes with
  | error flaw => exact ⟨flaw, rfl⟩
  | ok ws =>
    obtain ⟨text, htext, -⟩ := recordWords_eq_ok_iff.1 hw
    simp [h] at htext

theorem recordWords_eq_error_iff {bytes : List UInt8} {flaw : RowFlaw} :
    recordWords bytes = .error flaw ↔
      ∃ before field, FirstIn (fun bytes => (Utf8.decode bytes).isSome) (bytes.splitOnP (· == 32)) before field ∧
        Utf8.decode field = none ∧ flaw = .notText before.length := by
  have h : recordWords bytes = .error flaw ↔ _ := fieldWords_eq_error_iff
  simpa only [Nat.zero_add] using h

end Table

namespace Line

open Text Table

variable {width : Nat} {l : Line} {row : Row width} {flaw : RowFlaw}

theorem isBlank_iff_of_decode {text : List Char} (h : Utf8.decode l.bytes = some text) :
    l.isBlank = true ↔ words text = [] := by
  simp [isBlank, h, words_eq_nil_iff]

theorem isBlank_of_not_text (h : Utf8.decode l.bytes = none) : l.isBlank = false := by
  simp [isBlank, h]

theorem readRecord_eq_none_iff : readRecord width l.bytes = .ok none ↔ l.isBlank = true := by
  cases h : Utf8.decode l.bytes with
  | none =>
    obtain ⟨flaw, hw⟩ := recordWords_of_not_text h
    simp [readRecord, hw, isBlank_of_not_text h]
  | some text =>
    rw [readRecord_of_decode h, isBlank_iff_of_decode h]
    by_cases hwords : words text = []
    · simp [hwords]
    · rw [if_neg hwords, map_eq_ok_iff]
      simp [hwords]

theorem readRecord_eq_some_iff :
    readRecord width l.bytes = .ok (some row) ↔ l.isBlank = false ∧ l.Holds row := by
  cases h : Utf8.decode l.bytes with
  | none =>
    obtain ⟨flaw, hw⟩ := recordWords_of_not_text h
    simp [readRecord, hw, Holds, h]
  | some text =>
    have hblank := isBlank_iff_of_decode h
    have hrow : readRow width (words text) = .ok row ↔ (words text).mapM number? = some row.toList :=
      readRow_eq_ok_iff
    rw [readRecord_of_decode h]
    by_cases hwords : words text = []
    · simp [hwords, hblank.2 hwords]
    · have hfull : l.isBlank = false := by simpa [hwords] using hblank
      have hholds : l.Holds row ↔ (words text).mapM number? = some row.toList := by
        simp [Holds, h, mapM_number?_eq_some_iff]
      rw [if_neg hwords, hholds, ← hrow, map_eq_ok_iff]
      simp [hfull]

/-- A flaw of a line whose bytes are a text is one of its row. -/
theorem flawed_iff_of_decode {text : List Char} (h : Utf8.decode l.bytes = some text) :
    l.Flawed width flaw ↔ readRow width (words text) = .error flaw := by
  rw [readRow_eq_error_iff]
  constructor
  · intro hflawed
    cases hflawed with
    | notText first bad =>
      have hw := recordWords_eq_error_iff.2 ⟨_, _, first, bad, rfl⟩
      have hok := recordWords_eq_ok_iff.2 ⟨text, h, rfl⟩
      simp [hw] at hok
    | wrongCount decoded count =>
      cases h.symm.trans decoded
      exact .inl ⟨count, rfl⟩
    | notNumber decoded count first bad =>
      cases h.symm.trans decoded
      exact .inr ⟨count, _, _, first, bad, rfl⟩
  · rintro (⟨count, rfl⟩ | ⟨count, before, word, first, bad, rfl⟩)
    · exact .wrongCount h count
    · exact .notNumber h count first bad

theorem flawed_iff_of_not_text (h : Utf8.decode l.bytes = none) :
    l.Flawed width flaw ↔ recordWords l.bytes = .error flaw := by
  rw [recordWords_eq_error_iff]
  constructor
  · intro hflawed
    cases hflawed with
    | notText first bad => exact ⟨_, _, first, bad, rfl⟩
    | wrongCount decoded => simp [h] at decoded
    | notNumber decoded => simp [h] at decoded
  · rintro ⟨before, field, first, bad, rfl⟩
    exact .notText first bad

theorem readRecord_eq_error_iff :
    readRecord width l.bytes = .error flaw ↔ l.isBlank = false ∧ l.Flawed width flaw := by
  cases h : Utf8.decode l.bytes with
  | none =>
    obtain ⟨found, hw⟩ := recordWords_of_not_text h
    simp [flawed_iff_of_not_text h, isBlank_of_not_text h, readRecord, hw]
  | some text =>
    have hblank := isBlank_iff_of_decode h
    rw [readRecord_of_decode h, flawed_iff_of_decode h]
    by_cases hwords : words text = []
    · simp [hwords, hblank.2 hwords]
    · have hfull : l.isBlank = false := by simpa [hwords] using hblank
      rw [if_neg hwords, map_eq_error_iff]
      simp [hfull]

/-- A line that cannot be read is neither blank nor a row. -/
theorem readRecord_isOk_iff :
    (∃ found, readRecord width l.bytes = .ok found) ↔ l.isBlank = true ∨ ∃ row : Row width, l.Holds row := by
  constructor
  · rintro ⟨found, h⟩
    cases found with
    | none => exact .inl (readRecord_eq_none_iff.1 h)
    | some row => exact .inr ⟨row, (readRecord_eq_some_iff.1 h).2⟩
  · intro h
    cases hblank : l.isBlank with
    | true => exact ⟨none, readRecord_eq_none_iff.2 hblank⟩
    | false =>
      obtain ⟨row, hrow⟩ := h.resolve_left (by simp [hblank])
      exact ⟨some row, readRecord_eq_some_iff.2 ⟨hblank, hrow⟩⟩

theorem not_holds_of_error (h : readRecord width l.bytes = .error flaw) (row : Row width) : ¬l.Holds row := by
  intro hrow
  obtain ⟨found, hfound⟩ := readRecord_isOk_iff.2 (.inr ⟨row, hrow⟩)
  simp [h] at hfound

/-- At most one row stands in a line. -/
theorem holds_iff_of_some (h : readRecord width l.bytes = .ok (some row)) (other : Row width) :
    l.Holds other ↔ other = row := by
  obtain ⟨hblank, hrow⟩ := readRecord_eq_some_iff.1 h
  constructor
  · intro hother
    have := h.symm.trans (readRecord_eq_some_iff.2 ⟨hblank, hother⟩)
    simpa using this.symm
  · rintro rfl
    exact hrow

end Line

namespace Table

variable {path : String} {width : Nat}

/-- An empty line is no record, and as a blank line it would be skipped all the same. -/
theorem readRecords_numbered_cons (prior : List Line) (l : Line) (ls : List Line) :
    readRecords path width (numbered prior (l :: ls)) =
      match readRecord width l.bytes with
      | .error flaw => .error (.malformedRow path (numberAfter prior) flaw)
      | .ok row => (readRecords path width (numbered (prior ++ [l]) ls)).map (row.toList ++ ·) := by
  by_cases hempty : l.bytes.isEmpty
  · have hblank : readRecord width l.bytes = .ok none := by
      rw [List.isEmpty_iff.1 hempty]
      rfl
    rw [numbered, if_pos hempty, hblank]
    cases readRecords path width (numbered (prior ++ [l]) ls) <;> rfl
  · rw [numbered, if_neg hempty]
    rfl

/-- The rows of lines are those of the lines that are not blank, one for each. -/
theorem readRecords_numbered_eq_ok_iff (path : String) (prior ls : List Line) {rows : List (Row width)} :
    readRecords path width (numbered prior ls) = .ok rows ↔
      List.Forall₂ Line.Holds (ls.filter (!·.isBlank)) rows := by
  induction ls generalizing prior rows with
  | nil =>
    simp only [numbered, readRecords, Except.ok.injEq, List.filter_nil, List.forall₂_nil_left_iff]
    exact eq_comm
  | cons l ls ih =>
    rw [readRecords_numbered_cons]
    cases h : readRecord width l.bytes with
    | error flaw =>
      obtain ⟨hblank, -⟩ := Line.readRecord_eq_error_iff.1 h
      have hnone := Line.not_holds_of_error h
      simp [hblank, List.forall₂_cons_left_iff, hnone]
    | ok found =>
      simp only [map_eq_ok_iff, ih, @eq_comm _ _ rows]
      cases found with
      | none =>
        have hblank := Line.readRecord_eq_none_iff.1 h
        simp [hblank]
      | some row =>
        obtain ⟨hblank, hrow⟩ := Line.readRecord_eq_some_iff.1 h
        have honly := Line.holds_iff_of_some h
        simp [hblank, List.forall₂_cons_left_iff, honly]

/-- The line that is reported is the first that is neither blank nor a row. -/
theorem readRecords_numbered_eq_error_iff (prior ls : List Line) {e : Failure} :
    readRecords path width (numbered prior ls) = .error e ↔
      ∃ before bad, FirstIn (fun l => l.isBlank = true ∨ ∃ row : Row width, l.Holds row) ls before bad ∧
        bad.isBlank = false ∧
        ∃ flaw, bad.Flawed width flaw ∧ e = .malformedRow path (numberAfter (prior ++ before)) flaw := by
  induction ls generalizing prior with
  | nil => simp [numbered, readRecords, not_firstIn_nil]
  | cons l ls ih =>
    have hflawed (flaw : RowFlaw) : readRecord width l.bytes = .error flaw ↔ _ := Line.readRecord_eq_error_iff
    rw [readRecords_numbered_cons, exists_firstIn_cons, ← Line.readRecord_isOk_iff]
    cases h : readRecord width l.bytes with
    | error flaw =>
      obtain ⟨hblank, -⟩ := Line.readRecord_eq_error_iff.1 h
      have honly (other : RowFlaw) : l.Flawed width other ↔ flaw = other := by
        simpa [h, hblank] using (hflawed other).symm
      simp [hblank, honly, @eq_comm _ e]
    | ok found =>
      have hsound (flaw : RowFlaw) : ¬(l.isBlank = false ∧ l.Flawed width flaw) := by
        simpa [h] using hflawed flaw
      simp only [map_eq_error_iff, ih, List.append_assoc, List.singleton_append]
      constructor
      · intro hlater
        exact .inr ⟨⟨found, rfl⟩, hlater⟩
      · rintro (⟨hblank, flaw, hflaw, -⟩ | ⟨-, hlater⟩)
        · exact absurd ⟨hblank, hflaw⟩ (hsound flaw)
        · exact hlater

theorem read_eq_of_readable (bytes : List UInt8) :
    Table.read path width ⟨bytes, false⟩ =
      (readRecords path width (Record.ofSource ⟨bytes, false⟩)).map fun rows => ⟨path, width, rows⟩ := by
  rw [Table.read]
  cases readRecords path width (Record.ofSource ⟨bytes, false⟩) <;> rfl

theorem read_eq_ok_iff {bytes : List UInt8} {rows : List (Row width)} :
    Table.read path width ⟨bytes, false⟩ = .ok ⟨path, width, rows⟩ ↔
      readRecords path width (Record.ofSource ⟨bytes, false⟩) = .ok rows := by
  rw [read_eq_of_readable, map_eq_ok_iff]
  simp

theorem read_eq_map (text : List UInt8) :
    Table.read path width ⟨text, false⟩ =
      (readRecords path width (numbered [] (lines (Record.dropMark text)))).map fun rows => ⟨path, width, rows⟩ := by
  rw [read_eq_of_readable, Record.ofSource_eq_numbered]

theorem exists_forall₂_iff {α β : Type} {R : α → β → Prop} {xs : List α} :
    (∃ ys, List.Forall₂ R xs ys) ↔ ∀ x ∈ xs, ∃ y, R x y := by
  induction xs with
  | nil => simp
  | cons x xs ih =>
    simp only [List.forall₂_cons_left_iff, List.mem_cons, forall_eq_or_imp, ← ih]
    constructor
    · rintro ⟨_, y, ys, hy, hys, rfl⟩
      exact ⟨⟨y, hy⟩, ys, hys⟩
    · rintro ⟨⟨y, hy⟩, ys, hys⟩
      exact ⟨y :: ys, y, ys, hy, hys, rfl⟩

/-- Reading is decided line by line. The first part says which texts are accepted, the second that an accepted text
gives the rows of its lines that are not blank, and the third which line and which flaw a refused text is blamed
for. -/
theorem read_verdict (path : String) (width : Nat) (text : List UInt8) :
    ((∃ t, Table.read path width ⟨text, false⟩ = .ok t) ↔
      ∀ l ∈ lines (Record.dropMark text), l.isBlank = false → ∃ row : Row width, l.Holds row) ∧
    (∀ t, Table.read path width ⟨text, false⟩ = .ok t ↔
      ∃ rows : List (Row width), t = ⟨path, width, rows⟩ ∧
        List.Forall₂ Line.Holds ((lines (Record.dropMark text)).filter (!·.isBlank)) rows) ∧
    (∀ e, Table.read path width ⟨text, false⟩ = .error e ↔
      ∃ before bad, FirstIn (fun l => l.isBlank = true ∨ ∃ row : Row width, l.Holds row)
          (lines (Record.dropMark text)) before bad ∧
        bad.isBlank = false ∧
        ∃ flaw, bad.Flawed width flaw ∧ e = .malformedRow path (numberAfter before) flaw) := by
  have haccept (t : Table) : Table.read path width ⟨text, false⟩ = .ok t ↔
      ∃ rows : List (Row width), t = ⟨path, width, rows⟩ ∧
        List.Forall₂ Line.Holds ((lines (Record.dropMark text)).filter (!·.isBlank)) rows := by
    simp only [← readRecords_numbered_eq_ok_iff path [], read_eq_map, map_eq_ok_iff]
    constructor
    · rintro ⟨rows, hrows, rfl⟩
      exact ⟨rows, rfl, hrows⟩
    · rintro ⟨rows, rfl, hrows⟩
      exact ⟨rows, hrows, rfl⟩
  refine ⟨?_, haccept, ?_⟩
  · have hrows : (∃ t, Table.read path width ⟨text, false⟩ = .ok t) ↔
        ∃ rows : List (Row width),
          List.Forall₂ Line.Holds ((lines (Record.dropMark text)).filter (!·.isBlank)) rows := by
      simp [haccept]
    rw [hrows, exists_forall₂_iff]
    simp
  · intro e
    have hreject : readRecords path width (numbered [] (lines (Record.dropMark text))) = .error e ↔ _ :=
      readRecords_numbered_eq_error_iff [] _
    simp only [List.nil_append] at hreject
    rw [← hreject, read_eq_map, map_eq_error_iff]

end Table
end LoadSweep
