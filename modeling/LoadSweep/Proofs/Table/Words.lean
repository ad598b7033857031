import LoadSweep.Proofs.Pass
import LoadSweep.Table.Reader

/-! A record is cut at single spaces, each field is decoded, and each text is cut at blanks. `recordWords_toOption`
says that this finds the words of the whole line, whatever its bytes are. -/
namespace LoadSweep

namespace Text.Utf8

theorem isTail_of_ascii {b : UInt8} (hb : b < 0x80) : isTail b = false := by
  have : ¬ 0x80 ≤ b := UInt8.not_le.2 hb
  simp [isTail, this]

/-- An ASCII byte stands for itself wherever it is: it never belongs to a longer character. -/
theorem decode_append_ascii {b : UInt8} (hb : b < 0x80) (xs ys : List UInt8) :
    decode (xs ++ b :: ys) =
      (decode xs).bind fun s => (decode ys).map fun t => s ++ Char.ofNat b.toNat :: t := by
  have tail := isTail_of_ascii hb
  -- one case for each first byte and each end that comes too soon; `b` is no tail, so no case takes it in
  fun_induction decode xs with
  | case1 =>
    rw [List.nil_append, decode.eq_def]
    simp only [if_pos hb, Option.bind_some, List.nil_append]
  | case2 a rest ha ih =>
    rw [List.cons_append, decode.eq_def]
    simp only [if_pos ha, ih]
    simp [Option.bind_map, Option.map_bind, Function.comp_def]
  | case3 a h1 h2 c rest ht ih =>
    rw [List.cons_append, decode.eq_def]
    simp only [if_neg h1, if_pos h2, List.cons_append, if_pos ht, ih]
    simp [Option.bind_map, Option.map_bind, Function.comp_def]
  | case4 a h1 h2 c rest ht =>
    rw [List.cons_append, decode.eq_def]
    simp only [if_neg h1, if_pos h2, List.cons_append, if_neg ht, Option.bind_none]
  | case5 a rest h1 h2 short =>
    rw [List.cons_append, decode.eq_def]
    simp only [if_neg h1, if_pos h2, Option.bind_none]
    cases rest with
    | nil => simp [tail]
    | cons c rest => exact absurd rfl (short c rest)
  | case6 a h1 h2 h3 c d rest ht ih =>
    rw [List.cons_append, decode.eq_def]
    simp only [if_neg h1, if_neg h2, if_pos h3, List.cons_append, if_pos ht, ih]
    simp [Option.bind_map, Option.map_bind, Function.comp_def]
  | case7 a h1 h2 h3 c d rest ht =>
    rw [List.cons_append, decode.eq_def]
    simp only [if_neg h1, if_neg h2, if_pos h3, List.cons_append, if_neg ht, Option.bind_none]
  | case8 a rest h1 h2 h3 short =>
    rw [List.cons_append, decode.eq_def]
    simp only [if_neg h1, if_neg h2, if_pos h3, Option.bind_none]
    match rest with
    | [] => cases ys <;> simp [opensThree, tail]
    | [c] => simp [tail]
    | c :: d :: rest => exact absurd rfl (short c d rest)
  | case9 a h1 h2 h3 h4 c d e rest ht ih =>
    rw [List.cons_append, decode.eq_def]
    simp only [if_neg h1, if_neg h2, if_neg h3, if_pos h4, List.cons_append, if_pos ht, ih]
    simp [Option.bind_map, Option.map_bind, Function.comp_def]
  | case10 a h1 h2 h3 h4 c d e rest ht =>
    rw [List.cons_append, decode.eq_def]
    simp only [if_neg h1, if_neg h2, if_neg h3, if_pos h4, List.cons_append, if_neg ht, Option.bind_none]
  | case11 a rest h1 h2 h3 h4 short =>
    rw [List.cons_append, decode.eq_def]
    simp only [if_neg h1, if_neg h2, if_neg h3, if_pos h4, Option.bind_none]
    match rest with
    | [] => match ys with
      | [] | [_] | _ :: _ :: _ => simp [opensFour, tail]
    | [c] => cases ys <;> simp [tail]
    | [c, d] => simp [tail]
    | c :: d :: e :: rest => exact absurd rfl (short c d e rest)
  | case12 a rest h1 h2 h3 h4 =>
    rw [List.cons_append, decode.eq_def]
    simp only [if_neg h1, if_neg h2, if_neg h3, if_neg h4, Option.bind_none]

end Text.Utf8

namespace Text

theorem words_append {c : Char} (hc : isBlank c = true) (s t : List Char) :
    words (s ++ c :: t) = words s ++ words t := by
  simp only [words, List.splitOnP_append_cons s t hc, List.filter_append]

/-- A text has no words exactly if all of it is blank. -/
theorem words_eq_nil_iff (text : List Char) : words text = [] ↔ text.all isBlank = true := by
  induction text with
  | nil => simp [words]
  | cons c text ih =>
    rw [words, List.splitOnP_cons_eq_if_modifyHead]
    by_cases hc : isBlank c
    · simpa [hc, words] using ih
    · cases hfields : text.splitOnP isBlank with
      | nil => exact absurd hfields (List.splitOnP_ne_nil _ _)
      | cons field fields => simp [hc]

end Text

namespace Table

open Text

/-- The words of fields are those of the fields with single spaces between them. -/
theorem fieldWords_toOption (field : Nat) (bytes : List UInt8) (rest : List (List UInt8)) :
    (fieldWords field (bytes :: rest)).toOption =
      (Utf8.decode ([32].intercalate (bytes :: rest))).map words := by
  induction rest generalizing field bytes with
  | nil =>
    cases h : Utf8.decode bytes <;> simp [fieldWords, h, Except.map, Except.toOption]
  | cons next rest ih =>
    have hspace : (32 : UInt8) < 0x80 := by decide
    rw [List.intercalate_cons_cons, List.append_assoc, List.singleton_append, Utf8.decode_append_ascii hspace]
    cases h : Utf8.decode bytes with
    | none => simp [fieldWords, h, Except.toOption]
    | some text =>
      have hblank : isBlank (Char.ofNat 32) = true := by decide
      have htail := ih (field + 1) next
      have hmap : (fieldWords field (bytes :: next :: rest)).toOption =
          (fieldWords (field + 1) (next :: rest)).toOption.map (words text ++ ·) := by
        rw [fieldWords, h]
        exact toOption_map
      rw [hmap, htail, Option.bind_some, Option.map_map, Option.map_map]
      congr 1
      funext tail
      exact (words_append hblank text tail).symm

theorem recordWords_toOption (bytes : List UInt8) :
    (recordWords bytes).toOption = (Utf8.decode bytes).map words := by
  have hjoined : [32].intercalate (bytes.splitOnP (· == 32)) = bytes := by
    rw [← List.splitOn_eq_splitOnP, List.intercalate_splitOn]
  unfold recordWords
  cases hfields : bytes.splitOnP (· == 32) with
  | nil => exact absurd hfields (List.splitOnP_ne_nil _ _)
  | cons first rest => rw [fieldWords_toOption, ← hfields, hjoined]

theorem recordWords_eq_ok_iff {bytes : List UInt8} {ws : List (List Char)} :
    recordWords bytes = .ok ws ↔ ∃ text, Utf8.decode bytes = some text ∧ words text = ws := by
  rw [← toOption_eq_some_iff, recordWords_toOption, Option.map_eq_some_iff]

/-- The field that is reported is the first that is no text. -/
theorem fieldWords_eq_error_iff {field : Nat} {fields : List (List UInt8)} {flaw : RowFlaw} :
    fieldWords field fields = .error flaw ↔
      ∃ before bad, FirstIn (fun bytes => (Utf8.decode bytes).isSome) fields before bad ∧
        Utf8.decode bad = none ∧ flaw = .notText (field + before.length) := by
  induction fields generalizing field with
  | nil => simp [fieldWords, not_firstIn_nil]
  | cons bytes rest ih =>
    rw [exists_firstIn_cons]
    cases h : Utf8.decode bytes with
    | none => simp [fieldWords, h, @eq_comm _ flaw]
    | some text =>
      have hmap : fieldWords field (bytes :: rest) = .error flaw ↔ fieldWords (field + 1) rest = .error flaw := by
        rw [fieldWords, h]
        exact map_eq_error_iff
      rw [hmap, ih]
      simp [Nat.add_assoc, Nat.add_comm 1]

/-- The numbers of a row are those of its words, in their order. -/
theorem readNumbers_toOption (column : Nat) (ws : List (List Char)) :
    (readNumbers column ws).toOption.map (·.1) = ws.mapM number? := by
  induction ws generalizing column with
  | nil => rfl
  | cons w ws ih =>
    rw [List.mapM_cons, ← ih (column + 1)]
    cases h : number? w with
    | none => simp [readNumbers, h, Except.toOption]
    | some x => cases htail : readNumbers (column + 1) ws <;> simp [readNumbers, h, htail, Except.map, Except.toOption]

/-- The word that is reported is the first that is no finite number. -/
theorem readNumbers_eq_error_iff {column : Nat} {ws : List (List Char)} {flaw : RowFlaw} :
    readNumbers column ws = .error flaw ↔
      ∃ before bad, FirstIn (fun w => (number? w).isSome) ws before bad ∧
        number? bad = none ∧ flaw = .notNumber (column + before.length) (String.ofList bad) := by
  induction ws generalizing column with
  | nil => simp [readNumbers, not_firstIn_nil]
  | cons w ws ih =>
    rw [exists_firstIn_cons]
    cases h : number? w with
    | none => simp [readNumbers, h, @eq_comm _ flaw]
    | some x =>
      have hmap : readNumbers column (w :: ws) = .error flaw ↔ readNumbers (column + 1) ws = .error flaw := by
        rw [readNumbers, h]
        exact map_eq_error_iff
      rw [hmap, ih]
      simp [Nat.add_assoc, Nat.add_comm 1]

end Table
end LoadSweep
