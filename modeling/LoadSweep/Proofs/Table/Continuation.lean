import LoadSweep.Proofs.Table.Grammar
import Mathlib.Data.List.DropRight

/-! Reading goes record by record, so nothing behind a line end changes what was found before it. `read_continued`
says so of more bytes and of a fault of the medium; the one fault that is not noticed is that right behind a mark. -/
namespace LoadSweep

namespace Record

/-- Bytes up to the last line end. -/
def finished (bytes : List UInt8) : List UInt8 := bytes.rdropWhile (!isLineEnd ·)

variable {bytes : List UInt8} {e : UInt8}

theorem isLineEnd_lineFeed : isLineEnd lineFeed = true := rfl

theorem stretches_concat (he : isLineEnd e = true) (bytes : List UInt8) :
    stretches (bytes ++ [e]) = ((stretches bytes).1 ++ [⟨(stretches bytes).2, e⟩], []) := by
  induction bytes with
  | nil => simp [stretches, he]
  | cons b bytes ih =>
    cases hb : isLineEnd b with
    | true => simp [stretches, hb, ih]
    | false => rcases hrest : stretches bytes with ⟨_ | ⟨s, ss⟩, last⟩ <;> simp [stretches, hb, hrest, ih]

/-- Behind a line end cutting starts anew. -/
theorem stretches_append_of_complete (h : (stretches bytes).2 = []) (more : List UInt8) :
    stretches (bytes ++ more) = ((stretches bytes).1 ++ (stretches more).1, (stretches more).2) := by
  induction bytes with
  | nil => simp [stretches]
  | cons b bytes ih =>
    cases hb : isLineEnd b with
    | true =>
      have hrest : (stretches bytes).2 = [] := by simpa [stretches, hb] using h
      simp [stretches, hb, ih hrest]
    | false =>
      rcases hrest : stretches bytes with ⟨_ | ⟨s, ss⟩, last⟩
      · simp [stretches, hb, hrest] at h
      · have hlast : last = [] := by simpa [stretches, hb, hrest] using h
        have happend := ih (by rw [hrest, hlast])
        simp [stretches, hb, hrest, happend]

theorem number_append (line feeds : Nat) (ss ts : List Stretch) :
    ∃ line' feeds', number line feeds (ss ++ ts) =
      ((number line feeds ss).1 ++ (number line' feeds' ts).1, (number line' feeds' ts).2) := by
  induction ss generalizing line feeds with
  | nil => exact ⟨line, feeds, rfl⟩
  | cons s ss ih =>
    by_cases hs : s.body.isEmpty
    · obtain ⟨line', feeds', happend⟩ := ih line (feeds + if s.ending == lineFeed then 1 else 0)
      exact ⟨line', feeds', by simpa [number, hs] using happend⟩
    · obtain ⟨line', feeds', happend⟩ := ih ((feeds + if s.ending == lineFeed then 1 else 0) + 1)
        (feeds + if s.ending == lineFeed then 1 else 0)
      exact ⟨line', feeds', by simp only [List.cons_append, number, hs, happend, Bool.false_eq_true, if_false]⟩

/-- Where a record stands changes its number and nothing else. -/
theorem map_bytes_number (line feeds : Nat) (ss : List Stretch) :
    (number line feeds ss).1.map (·.bytes) = (ss.map (·.body)).filter (!·.isEmpty) := by
  induction ss generalizing line feeds with
  | nil => rfl
  | cons s ss ih => by_cases hs : s.body.isEmpty <;> simp [number, hs, ih]

theorem map_bytes_recordsFrom (line feeds : Nat) (bytes : List UInt8) :
    (recordsFrom line feeds bytes).map (·.bytes) = (recordsFrom 1 0 bytes).map (·.bytes) := by
  simp only [recordsFrom, List.map_append, map_bytes_number]
  split <;> rfl

theorem not_isLineEnd_of_mem_mark : ∀ b ∈ byteOrderMark, isLineEnd b = false := by
  simp [byteOrderMark, isLineEnd, lineFeed, carriageReturn]

theorem dropMark_eq_self (h : ¬byteOrderMark <+: bytes) : dropMark bytes = bytes := by
  unfold dropMark
  split
  · rename_i rest
    exact absurd ⟨rest, rfl⟩ h
  · rfl

/-- More bytes do not make a mark of bytes that have a line end at their end. -/
theorem mark_prefix_append_iff (he : isLineEnd e = true) (hmem : e ∈ bytes) (more : List UInt8) :
    byteOrderMark <+: bytes ++ more ↔ byteOrderMark <+: bytes := by
  refine ⟨fun h => ?_, fun h => h.trans (List.prefix_append _ _)⟩
  rcases List.prefix_or_prefix_of_prefix h (List.prefix_append bytes more) with hmark | hshort
  · exact hmark
  · simp [not_isLineEnd_of_mem_mark e (hshort.subset hmem)] at he

theorem dropMark_append (he : isLineEnd e = true) (hmem : e ∈ bytes) (more : List UInt8) :
    dropMark (bytes ++ more) = dropMark bytes ++ more := by
  by_cases h : byteOrderMark <+: bytes
  · obtain ⟨rest, rfl⟩ := h
    rfl
  · rw [dropMark_eq_self h, dropMark_eq_self (mt (mark_prefix_append_iff he hmem more).1 h)]

theorem stretches_dropMark (he : isLineEnd e = true) (front : List UInt8) :
    (stretches (dropMark (front ++ [e]))).2 = [] := by
  by_cases h : byteOrderMark <+: front
  · obtain ⟨rest, rfl⟩ := h
    exact congrArg Prod.snd (stretches_concat he rest)
  · have hmark : ¬byteOrderMark <+: front ++ [e] := by
      rw [List.prefix_concat_iff, not_or]
      refine ⟨fun heq => ?_, h⟩
      have hmem : e ∈ byteOrderMark := by simp [heq]
      simp [not_isLineEnd_of_mem_mark e hmem] at he
    rw [dropMark_eq_self hmark, stretches_concat he]

/-- The records of a source that a line end stands in: those before it do not depend on what is behind it. -/
theorem ofSource_append (he : isLineEnd e = true) (front more : List UInt8) (broken : Bool) :
    ∃ line feeds, ofSource ⟨front ++ [e] ++ more, broken⟩ = ofSource ⟨front ++ [e], false⟩ ++
      if broken then (number line feeds (stretches more).1).1 else recordsFrom line feeds more := by
  have hmem : e ∈ front ++ [e] := by simp
  have hmark : front ++ [e] ++ more ≠ byteOrderMark := by
    intro heq
    simp [not_isLineEnd_of_mem_mark e (by simp [← heq])] at he
  have hcut : (Source.mk (front ++ [e] ++ more) broken).isCut = broken := by
    rw [Source.isCut, bne_iff_ne.2 hmark, Bool.and_true]
  have hstretches := stretches_append_of_complete (stretches_dropMark he front) more
  obtain ⟨line, feeds, hnumber⟩ := number_append 1 0 (stretches (dropMark (front ++ [e]))).1 (stretches more).1
  refine ⟨line, feeds, ?_⟩
  rw [ofSource_eq_recordsFrom]
  simp only [ofSource, completed, hcut, dropMark_append he hmem, hstretches, hnumber, recordsFrom,
    stretches_dropMark he, List.isEmpty_nil, if_true, List.append_nil]
  cases broken with
  | true => rfl
  | false => cases hlast : (stretches more).2 <;> simp

/-- No line end stands behind the last one. -/
theorem exists_finished_append (bytes : List UInt8) :
    ∃ rest, bytes = finished bytes ++ rest ∧ (∀ b ∈ rest, isLineEnd b = false) ∧
      (finished bytes = [] ∨ ∃ front e, finished bytes = front ++ [e] ∧ isLineEnd e = true) := by
  refine ⟨bytes.rtakeWhile (!isLineEnd ·), List.rdropWhile_append_rtakeWhile.symm, ?_, ?_⟩
  · intro b hb
    simpa using List.mem_rtakeWhile_imp hb
  · by_cases hnil : finished bytes = []
    · exact .inl hnil
    · have hlast : ¬(!isLineEnd ((finished bytes).getLast hnil)) := List.rdropWhile_last_not _ _ hnil
      exact .inr ⟨_, _, (List.dropLast_append_getLast hnil).symm, by simpa using hlast⟩

/-- Of a source that breaks off the records are those that a line end completes. -/
theorem ofSource_finished (h : bytes ≠ byteOrderMark) : ofSource ⟨bytes, true⟩ = ofSource ⟨finished bytes, false⟩ := by
  obtain ⟨rest, hbytes, hrest, hnil | ⟨front, e, hfront, he⟩⟩ := exists_finished_append bytes
  · have hcut : (Source.mk bytes true).isCut = true := bne_iff_ne.2 h
    rw [hnil, List.nil_append] at hbytes
    have hplain : ∀ b ∈ dropMark bytes, isLineEnd b = false := by
      intro b hb
      refine hrest b (hbytes ▸ ?_)
      by_cases hmark : byteOrderMark <+: bytes
      · obtain ⟨behind, rfl⟩ := hmark
        exact List.mem_append_right _ hb
      · rwa [dropMark_eq_self hmark] at hb
    simp only [ofSource, completed, hcut, stretches_plain hplain, hnil]
    rfl
  · obtain ⟨line, feeds, hrecords⟩ := ofSource_append he front rest true
    have hnone : (number line feeds (stretches rest).1).1 = [] := by rw [stretches_plain hrest]; rfl
    rw [← hfront, ← hbytes, if_pos rfl, hnone, List.append_nil] at hrecords
    exact hrecords

end Record

namespace Table

variable {path : String} {width : Nat} {bytes : List UInt8}

theorem readRecords_append (rs ts : List Record) :
    readRecords path width (rs ++ ts) =
      (readRecords path width rs).bind fun rows => (readRecords path width ts).map (rows ++ ·) := by
  induction rs with
  | nil =>
    change readRecords path width ts = _
    cases readRecords path width ts <;> rfl
  | cons r rs ih =>
    rw [List.cons_append, readRecords, readRecords]
    cases readRecord width r.bytes with
    | error flaw => rfl
    | ok row =>
      rw [ih]
      cases readRecords path width rs with
      | error e => rfl
      | ok rows => cases readRecords path width ts <;> simp [Except.bind, Except.map]

theorem readRecords_congr {rs ts : List Record} (h : rs.map (·.bytes) = ts.map (·.bytes)) {rows : List (Row width)} :
    readRecords path width rs = .ok rows ↔ readRecords path width ts = .ok rows := by
  induction rs generalizing ts rows with
  | nil =>
    obtain rfl : ts = [] := by simpa using h.symm
    rfl
  | cons r rs ih =>
    cases ts with
    | nil => simp at h
    | cons t ts =>
      simp only [List.map_cons, List.cons.injEq] at h
      rw [readRecords, readRecords, h.1]
      cases readRecord width t.bytes with
      | error flaw => simp
      | ok row => simp only [map_eq_ok_iff, ih h.2]

section

variable {t s : List UInt8} (hend : t.getLast? = some Record.lineFeed)

include hend

theorem read_append_of_error {e : Failure} (h : Table.read path width ⟨t, false⟩ = .error e) (broken : Bool) :
    Table.read path width ⟨t ++ s, broken⟩ = .error e := by
  obtain ⟨front, rfl⟩ := List.getLast?_eq_some_iff.1 hend
  obtain ⟨line, feeds, hrecords⟩ := Record.ofSource_append Record.isLineEnd_lineFeed front s broken
  rw [read_eq_of_readable, map_eq_error_iff] at h
  rw [Table.read, hrecords, readRecords_append, h]
  rfl

theorem read_append_eq_ok_iff (hmark : ¬byteOrderMark <+: s) {rows : List (Row width)}
    (h : Table.read path width ⟨t, false⟩ = .ok ⟨path, width, rows⟩) {whole : Table} :
    Table.read path width ⟨t ++ s, false⟩ = .ok whole ↔
      ∃ more, Table.read path width ⟨s, false⟩ = .ok ⟨path, width, more⟩ ∧ whole = ⟨path, width, rows ++ more⟩ := by
  obtain ⟨front, rfl⟩ := List.getLast?_eq_some_iff.1 hend
  obtain ⟨line, feeds, hrecords⟩ := Record.ofSource_append Record.isLineEnd_lineFeed front s false
  rw [read_eq_ok_iff] at h
  have hmore (more : List (Row width)) : readRecords path width (recordsFrom line feeds s) = .ok more ↔
      Table.read path width ⟨s, false⟩ = .ok ⟨path, width, more⟩ := by
    rw [read_eq_ok_iff, readRecords_congr (Record.map_bytes_recordsFrom line feeds s), ofSource_eq_recordsFrom,
      Record.dropMark_eq_self hmark]
  rw [read_eq_of_readable, hrecords, readRecords_append, h, if_neg Bool.false_ne_true]
  change ((readRecords path width (recordsFrom line feeds s)).map (rows ++ ·)).map _ = _ ↔ _
  simp only [map_eq_ok_iff, hmore]
  constructor
  · rintro ⟨_, ⟨more, hread, rfl⟩, rfl⟩
    exact ⟨more, hread, rfl⟩
  · rintro ⟨more, hread, rfl⟩
    exact ⟨_, ⟨more, hread, rfl⟩, rfl⟩

end

theorem read_of_broken (h : bytes ≠ byteOrderMark) :
    Table.read path width ⟨bytes, true⟩ =
      (Table.read path width ⟨Record.finished bytes, false⟩).bind fun _ => .error (.unreadable path) := by
  have hcut : (Source.mk bytes true).isCut = true := bne_iff_ne.2 h
  rw [Table.read, read_eq_of_readable, Record.ofSource_finished h]
  cases readRecords path width (Record.ofSource ⟨Record.finished bytes, false⟩) with
  | error e => rfl
  | ok rows => exact if_pos hcut

/-- What reading finds in rows that a line end completes is final. A flaw among them is reported whatever follows, a
fault of the medium included, and their rows stand before those of what follows, read alone. A fault never gives a
table: it counts after the rows that a line end completes before it. Only right behind a mark it passes for the end. -/
theorem read_continued (path : String) (width : Nat) :
    (∀ t s, t.getLast? = some Record.lineFeed → ¬byteOrderMark <+: s →
      (∀ e, Table.read path width ⟨t, false⟩ = .error e →
        ∀ broken, Table.read path width ⟨t ++ s, broken⟩ = .error e) ∧
      ∀ rows, Table.read path width ⟨t, false⟩ = .ok ⟨path, width, rows⟩ →
        ∀ whole, Table.read path width ⟨t ++ s, false⟩ = .ok whole ↔
          ∃ more, Table.read path width ⟨s, false⟩ = .ok ⟨path, width, more⟩ ∧ whole = ⟨path, width, rows ++ more⟩) ∧
    (∀ bytes, bytes ≠ byteOrderMark → Table.read path width ⟨bytes, true⟩ =
      (Table.read path width ⟨Record.finished bytes, false⟩).bind fun _ => .error (.unreadable path)) ∧
    Table.read path width ⟨byteOrderMark, true⟩ = .ok ⟨path, width, []⟩ := by
  refine ⟨fun t s hend hmark => ⟨?_, ?_⟩, fun bytes hbytes => read_of_broken hbytes, rfl⟩
  · intro e he broken
    exact read_append_of_error hend he broken
  · intro rows hrows whole
    exact read_append_eq_ok_iff hend hmark hrows

/-- The flaw of a row is still the one to be reported when a later row is flawed too and the medium fails behind it. -/
theorem read_continued_flaw :
    Table.read "in.csv" 2 ⟨Text.Utf8.bytesOf "1 2\n3\n" ++ Text.Utf8.bytesOf "x\n4 5", true⟩ =
      .error (.malformedRow "in.csv" 2 (.wrongCount 2 1)) := by
  have hflaw : Table.read "in.csv" 2 ⟨Text.Utf8.bytesOf "1 2\n3\n", false⟩ =
      .error (.malformedRow "in.csv" 2 (.wrongCount 2 1)) := (map_eq_error_iff (f := fun _ => ())).1 (by decide +kernel)
  exact ((read_continued "in.csv" 2).1 _ _ (by decide +kernel) (by decide +kernel)).1 _ hflaw true

/-- A fault of the medium that gives a table. -/
theorem read_broken_behind_mark : ∃ t, Table.read "in.csv" 3 ⟨byteOrderMark, true⟩ = .ok t ∧ t.rows = [] :=
  ⟨⟨"in.csv", 3, []⟩, rfl, rfl⟩

end Table
end LoadSweep
