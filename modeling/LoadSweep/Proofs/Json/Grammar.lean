import LoadSweep.Json.Reader
import LoadSweep.Proofs.Pass

/-! The rules by which a text spells a tree of values. The reader takes such a text whole and finds the tree, whatever
follows the text. -/
namespace LoadSweep.Json

/-- White space. -/
def Blank (bs : List UInt8) : Prop := ∀ b ∈ bs, isSpace b = true

/-- Digits, at least one. -/
structure SpellsDigits (bs : List UInt8) (ds : List Nat) : Prop where
  some : bs ≠ []
  digits : ∀ b ∈ bs, isDigit b = true
  values : ds = bs.map (·.toNat - 48)

inductive SpellsFraction : List UInt8 → Option (List Nat) → Prop
  | none : SpellsFraction [] none
  | point {bs : List UInt8} {ds : List Nat} : SpellsDigits bs ds → SpellsFraction ('.'.toUInt8 :: bs) (some ds)

/-- The sign of an exponent. -/
inductive SpellsSign : List UInt8 → Bool → Prop
  | none : SpellsSign [] false
  | plus : SpellsSign ['+'.toUInt8] false
  | minus : SpellsSign ['-'.toUInt8] true

inductive SpellsExponent : List UInt8 → Option (Bool × List Nat) → Prop
  | none : SpellsExponent [] none
  | mark {mark : Char} {sign bs : List UInt8} {negative : Bool} {ds : List Nat} : mark ∈ ['e', 'E'] →
      SpellsSign sign negative → SpellsDigits bs ds →
      SpellsExponent (mark.toUInt8 :: (sign ++ bs)) (some (negative, ds))

/-- A number without its minus. No digit follows a zero. -/
inductive SpellsNumeral (negative : Bool) : List UInt8 → Numeral → Prop
  | mk {bs point mark : List UInt8} {whole : List Nat} {fraction : Option (List Nat)}
      {exponent : Option (Bool × List Nat)} : SpellsDigits bs whole → (whole.head? = some 0 → whole.length = 1) →
      SpellsFraction point fraction → SpellsExponent mark exponent →
      SpellsNumeral negative (bs ++ (point ++ mark)) ⟨negative, whole, fraction, exponent⟩

/-- What stands between the quotes of a string. -/
inductive SpellsPieces : List UInt8 → List Piece → Prop
  | nil : SpellsPieces [] []
  | byte {b : UInt8} {bs : List UInt8} {ps : List Piece} : ¬b < 0x20 → b ≠ '"'.toUInt8 → b ≠ '\\'.toUInt8 →
      SpellsPieces bs ps → SpellsPieces (b :: bs) (.byte b :: ps)
  | char {e c : Char} {bs : List UInt8} {ps : List Piece} : (e, c) ∈ escapes →
      SpellsPieces bs ps → SpellsPieces ('\\'.toUInt8 :: e.toUInt8 :: bs) (.char c :: ps)
  | unit {a b c d : UInt8} {n : Nat} {bs : List UInt8} {ps : List Piece} : hexUnit? a b c d = some n →
      SpellsPieces bs ps → SpellsPieces ('\\'.toUInt8 :: 'u'.toUInt8 :: a :: b :: c :: d :: bs) (.unit n :: ps)

/-- A byte of a string that stands for itself. -/
def isPlain (b : UInt8) : Bool := !(decide (b < 0x20) || b == '"'.toUInt8 || b == '\\'.toUInt8)

theorem spellsPieces_bytes {bs : List UInt8} (h : bs.all isPlain = true) : SpellsPieces bs (bs.map .byte) := by
  induction bs with
  | nil => exact .nil
  | cons b bs ih =>
    obtain ⟨hb, hrest⟩ : isPlain b = true ∧ bs.all isPlain = true := by simpa using h
    obtain ⟨⟨hcontrol, hquote⟩, hslash⟩ : (¬b < 0x20 ∧ b ≠ '"'.toUInt8) ∧ b ≠ '\\'.toUInt8 := by
      simpa [isPlain] using hb
    exact .byte hcontrol hquote hslash (ih hrest)

/-- A part of a tree: a value, the items of an array or the members of an object. -/
inductive Part where
  | value (n : Node)
  | items (ns : List Node)
  | members (ms : List (Quoted × Node))

inductive Spells : List UInt8 → Part → Prop
  | null : Spells ('n'.toUInt8 :: ['u', 'l', 'l'].map Char.toUInt8) (.value (.null none))
  | true : Spells ('t'.toUInt8 :: ['r', 'u', 'e'].map Char.toUInt8) (.value (.bool true))
  | false : Spells ('f'.toUInt8 :: ['a', 'l', 's', 'e'].map Char.toUInt8) (.value (.bool false))
  | positive {bs : List UInt8} {n : Numeral} : SpellsNumeral false bs n → Spells bs (.value (.number n))
  | negative {bs : List UInt8} {n : Numeral} : SpellsNumeral true bs n →
      Spells ('-'.toUInt8 :: bs) (.value (.number n))
  | string {bs : List UInt8} {ps : List Piece} : SpellsPieces bs ps →
      Spells ('"'.toUInt8 :: (bs ++ ['"'.toUInt8])) (.value (.string ⟨ps, none⟩))
  | emptyArray {blank : List UInt8} : Blank blank →
      Spells ('['.toUInt8 :: (blank ++ [']'.toUInt8])) (.value (.array [] none))
  | array {blank bs : List UInt8} {ns : List Node} : Blank blank → Spells bs (.items ns) →
      Spells ('['.toUInt8 :: (blank ++ (bs ++ [']'.toUInt8]))) (.value (.array ns none))
  | emptyObject {blank : List UInt8} : Blank blank →
      Spells ('\x7b'.toUInt8 :: (blank ++ ['\x7d'.toUInt8])) (.value (.object [] .closed))
  | object {blank bs : List UInt8} {ms : List (Quoted × Node)} : Blank blank → Spells bs (.members ms) →
      Spells ('\x7b'.toUInt8 :: (blank ++ (bs ++ ['\x7d'.toUInt8]))) (.value (.object ms .closed))
  | lastItem {bs after : List UInt8} {n : Node} : Spells bs (.value n) → Blank after →
      Spells (bs ++ after) (.items [n])
  | item {bs after before rest : List UInt8} {n : Node} {ns : List Node} : Spells bs (.value n) → Blank after →
      Blank before → Spells rest (.items ns) →
      Spells (bs ++ (after ++ ','.toUInt8 :: (before ++ rest))) (.items (n :: ns))
  | lastMember {key beforeColon afterColon bs after : List UInt8} {ps : List Piece} {n : Node} :
      SpellsPieces key ps → Blank beforeColon → Blank afterColon → Spells bs (.value n) → Blank after →
      Spells ('"'.toUInt8 :: (key ++ '"'.toUInt8 :: (beforeColon ++ ':'.toUInt8 :: (afterColon ++ (bs ++ after)))))
        (.members [(⟨ps, none⟩, n)])
  | member {key beforeColon afterColon bs after before rest : List UInt8} {ps : List Piece} {n : Node}
      {ms : List (Quoted × Node)} :
      SpellsPieces key ps → Blank beforeColon → Blank afterColon → Spells bs (.value n) → Blank after →
      Blank before → Spells rest (.members ms) →
      Spells ('"'.toUInt8 :: (key ++ '"'.toUInt8 :: (beforeColon ++ ':'.toUInt8 ::
        (afterColon ++ (bs ++ (after ++ ','.toUInt8 :: (before ++ rest)))))))
        (.members ((⟨ps, none⟩, n) :: ms))

/-- A text that spells a value, with white space around it. -/
def SpellsText (text : List UInt8) (n : Node) : Prop :=
  ∃ before bs after, Blank before ∧ Spells bs (.value n) ∧ Blank after ∧ text = before ++ (bs ++ after)

theorem isByte_eq_false {c : Char} {b : UInt8} (hc : c.toUInt8.toNat = c.toNat) (h : b ≠ c.toUInt8) :
    isByte c b = false := by
  rw [isByte, beq_eq_false_iff_ne, ← hc]
  exact fun heq => h (UInt8.toNat_inj.1 heq)

theorem isByte_of_isDigit {c : Char} {b : UInt8} (h : isDigit b = true) (hc : c.toUInt8.toNat = c.toNat)
    (hdigit : isDigit c.toUInt8 = false) : isByte c b = false := by
  refine isByte_eq_false hc fun heq => ?_
  rw [heq, hdigit] at h
  cases h

theorem skipSpace_append {blank : List UInt8} (h : Blank blank) (rest : List UInt8) :
    skipSpace (blank ++ rest) = skipSpace rest := List.dropWhile_append_of_pos h

theorem skipSpace_cons {b : UInt8} (h : isSpace b = false) (bs : List UInt8) : skipSpace (b :: bs) = b :: bs := by
  simp [skipSpace, h]

theorem skipSpace_mark {blank : List UInt8} (h : Blank blank) {c : UInt8} (hc : isSpace c = false) (rest : List UInt8) :
    skipSpace (blank ++ c :: rest) = c :: rest := by
  rw [skipSpace_append h, skipSpace_cons hc]

/-- What may follow a number. -/
def Stops (rest : List UInt8) : Prop :=
  ∀ b ∈ rest.head?, isDigit b = false ∧ isByte '.' b = false ∧ isByte 'e' b = false ∧ isByte 'E' b = false

theorem readDigits_append {bs rest : List UInt8} {ds : List Nat} (h : SpellsDigits bs ds)
    (hrest : ∀ b ∈ rest.head?, isDigit b = false) : readDigits (bs ++ rest) = .ok (ds, rest) := by
  have htake : (bs ++ rest).takeWhile isDigit = bs := by
    rw [List.takeWhile_append_of_pos h.digits]
    cases rest with
    | nil => simp
    | cons b rest => simp [hrest b rfl]
  have hdrop : (bs ++ rest).dropWhile isDigit = rest := by
    rw [List.dropWhile_append_of_pos h.digits]
    cases rest with
    | nil => rfl
    | cons b rest => simp [hrest b rfl]
  obtain ⟨b, tail, rfl⟩ := List.exists_cons_of_ne_nil h.some
  rw [readDigits, htake, hdrop, h.values]

theorem readFraction_append {bs rest : List UInt8} {fraction : Option (List Nat)} (h : SpellsFraction bs fraction)
    (hrest : ∀ b ∈ rest.head?, isDigit b = false ∧ isByte '.' b = false) :
    readFraction (bs ++ rest) = .ok (fraction, rest) := by
  cases h with
  | none =>
    cases rest with
    | nil => rfl
    | cons b rest => simp [readFraction, (hrest b rfl).2]
  | point hds =>
    have hpoint : isByte '.' '.'.toUInt8 = true := rfl
    rw [List.cons_append, readFraction, if_pos hpoint, readDigits_append hds fun b hb => (hrest b hb).1]
    rfl

theorem readSign_append {sign bs rest : List UInt8} {negative : Bool} {ds : List Nat} (h : SpellsSign sign negative)
    (hds : SpellsDigits bs ds) : readSign (sign ++ (bs ++ rest)) = (negative, bs ++ rest) := by
  cases h with
  | none =>
    -- a digit is no sign
    obtain ⟨b, tail, rfl⟩ := List.exists_cons_of_ne_nil hds.some
    have hdigit := hds.digits b (by simp)
    have hminus : isByte '-' b = false := isByte_of_isDigit hdigit rfl rfl
    have hplus : isByte '+' b = false := isByte_of_isDigit hdigit rfl rfl
    simp [readSign, hminus, hplus]
  | plus => rfl
  | minus => rfl

theorem readExponent_append {bs rest : List UInt8} {exponent : Option (Bool × List Nat)}
    (h : SpellsExponent bs exponent) (hrest : Stops rest) : readExponent (bs ++ rest) = .ok (exponent, rest) := by
  cases h with
  | none =>
    cases rest with
    | nil => rfl
    | cons b rest => simp [readExponent, (hrest b rfl).2.2]
  | @mark mark sign bs negative ds hmark hsign hds =>
    have hmarked : (isByte 'e' mark.toUInt8 || isByte 'E' mark.toUInt8) = true := by
      rcases hmark with _ | ⟨_, _ | ⟨_, ⟨⟩⟩⟩ <;> rfl
    rw [List.cons_append, readExponent, if_pos hmarked, List.append_assoc, readSign_append hsign hds]
    simp only [readDigits_append hds fun b hb => (hrest b hb).1]
    rfl

/-- An exponent is not taken for more digits or a fraction. -/
theorem head_exponent {bs rest : List UInt8} {exponent : Option (Bool × List Nat)} (h : SpellsExponent bs exponent)
    (hrest : Stops rest) : ∀ b ∈ (bs ++ rest).head?, isDigit b = false ∧ isByte '.' b = false := by
  intro b hb
  cases h with
  | none => exact ⟨(hrest b hb).1, (hrest b hb).2.1⟩
  | mark hmark =>
    simp only [List.cons_append, List.head?_cons, Option.mem_def, Option.some.injEq] at hb
    subst hb
    rcases hmark with _ | ⟨_, _ | ⟨_, ⟨⟩⟩⟩ <;> exact ⟨rfl, rfl⟩

theorem readNumeral_append {negative : Bool} {bs rest : List UInt8} {n : Numeral} (h : SpellsNumeral negative bs n)
    (hrest : Stops rest) : readNumeral negative (bs ++ rest) = .ok (n, rest) := by
  obtain ⟨hwhole, hzero, hfraction, hexponent⟩ := h
  rename_i whole point mark ds fraction exponent
  have hmark := head_exponent hexponent hrest
  have hpoint : ∀ b ∈ (point ++ (mark ++ rest)).head?, isDigit b = false := by
    intro b hb
    cases hfraction with
    | none => exact (hmark b hb).1
    | point =>
      simp only [List.cons_append, List.head?_cons, Option.mem_def, Option.some.injEq] at hb
      subst hb
      rfl
  have hlength : ¬(ds.head? = some 0 ∧ 1 < ds.length) := fun h => by
    have := hzero h.1
    omega
  rw [List.append_assoc, List.append_assoc, readNumeral, readDigits_append hwhole hpoint]
  simp only [ok_bind, if_neg hlength, readFraction_append hfraction hmark, readExponent_append hexponent hrest]
  rfl

theorem readNumber_append {negative : Bool} {bs rest : List UInt8} {n : Numeral} (h : SpellsNumeral negative bs n)
    (hrest : Stops rest) : readNumber negative (bs ++ rest) = (.number n, some rest) := by
  rw [readNumber, readNumeral_append h hrest]

theorem SpellsNumeral.head {negative : Bool} {bs : List UInt8} {n : Numeral} (h : SpellsNumeral negative bs n) :
    ∃ b tail, bs = b :: tail ∧ isDigit b = true := by
  obtain ⟨hwhole, -, -, -⟩ := h
  obtain ⟨b, tail, rfl⟩ := List.exists_cons_of_ne_nil hwhole.some
  exact ⟨b, _, rfl, hwhole.digits b (by simp)⟩

theorem readQuoted_quote (bs : List UInt8) : readQuoted ('"'.toUInt8 :: bs) = (⟨[], none⟩, some bs) := by
  rw [readQuoted.eq_def]
  exact if_pos rfl

theorem readQuoted_byte {b : UInt8} (hquote : b ≠ '"'.toUInt8) (hslash : b ≠ '\\'.toUInt8) (hcontrol : ¬b < 0x20)
    (bs : List UInt8) : readQuoted (b :: bs) = consPiece (.byte b) (readQuoted bs) := by
  rw [readQuoted.eq_def]
  simp only [isByte_eq_false rfl hquote, isByte_eq_false rfl hslash, hcontrol, Bool.false_eq_true, if_false]

theorem readQuoted_char {e : UInt8} {p : Char × Char} (hunit : isByte 'u' e = false)
    (hfind : (escapes.find? fun p => isByte p.1 e) = some p) (bs : List UInt8) :
    readQuoted ('\\'.toUInt8 :: e :: bs) = consPiece (.char p.2) (readQuoted bs) := by
  have hquote : isByte '"' '\\'.toUInt8 = false := rfl
  have hslash : isByte '\\' '\\'.toUInt8 = true := rfl
  rw [readQuoted.eq_def]
  simp only [hquote, hslash, hunit, hfind, Bool.false_eq_true, if_false, if_true]

theorem readQuoted_unit {a b c d : UInt8} {n : Nat} (h : hexUnit? a b c d = some n) (bs : List UInt8) :
    readQuoted ('\\'.toUInt8 :: 'u'.toUInt8 :: a :: b :: c :: d :: bs) = consPiece (.unit n) (readQuoted bs) := by
  have hquote : isByte '"' '\\'.toUInt8 = false := rfl
  have hslash : isByte '\\' '\\'.toUInt8 = true := rfl
  have hunit : isByte 'u' 'u'.toUInt8 = true := rfl
  rw [readQuoted.eq_def]
  simp only [hquote, hslash, hunit, h, Bool.false_eq_true, if_false, if_true]

theorem readQuoted_append {bs : List UInt8} {ps : List Piece} (h : SpellsPieces bs ps) (rest : List UInt8) :
    readQuoted (bs ++ '"'.toUInt8 :: rest) = (⟨ps, none⟩, some rest) := by
  induction h with
  | nil => exact readQuoted_quote rest
  | byte hcontrol hquote hslash _ ih =>
    rw [List.cons_append, readQuoted_byte hquote hslash hcontrol, ih]
    rfl
  | @char e c bs ps hmem _ ih =>
    -- no two escapes have the same letter, and none is the `u` of a code unit
    have hescape : isByte 'u' e.toUInt8 = false ∧ (escapes.find? fun p => isByte p.1 e.toUInt8) = some (e, c) := by
      have hall : escapes.all (fun p => !isByte 'u' p.1.toUInt8 &&
          (escapes.find? fun q => isByte q.1 p.1.toUInt8) == some p) = true := by decide
      simpa using List.all_eq_true.1 hall _ hmem
    rw [List.cons_append, List.cons_append, readQuoted_char hescape.1 hescape.2, ih]
    rfl
  | unit hunit _ ih =>
    rw [List.cons_append, List.cons_append, List.cons_append, List.cons_append, List.cons_append, List.cons_append,
      readQuoted_unit hunit, ih]
    rfl

/-- A byte that begins a value. -/
def Opens (b : UInt8) : Prop := isSpace b = false ∧ isByte ']' b = false

theorem opens_of_isDigit {b : UInt8} (h : isDigit b = true) : Opens b := by
  have hbound : 48 ≤ b ∧ b ≤ 57 := by simpa [isDigit] using h
  refine ⟨?_, isByte_of_isDigit h rfl rfl⟩
  have hne (c : UInt8) (hc : c < 48) : (b == c) = false := by
    simp only [beq_eq_false_iff_ne]
    rintro rfl
    exact absurd hbound.1 (UInt8.not_le.2 hc)
  simp [isSpace, hne 0x20 (by decide), hne 0x0A (by decide), hne 0x09 (by decide), hne 0x0D (by decide)]

/-- White space and a mark may follow a number. -/
theorem stops_append {after : List UInt8} (h : Blank after) {c : Char} (hc : c ∈ [',', ']', '\x7d'])
    (rest : List UInt8) : Stops (after ++ c.toUInt8 :: rest) := by
  intro b hb
  cases after with
  | nil =>
    simp only [List.nil_append, List.head?_cons, Option.mem_def, Option.some.injEq] at hb
    subst hb
    rcases hc with _ | ⟨_, _ | ⟨_, _ | ⟨_, ⟨⟩⟩⟩⟩ <;> exact ⟨rfl, rfl, rfl, rfl⟩
  | cons b' after =>
    simp only [List.cons_append, List.head?_cons, Option.mem_def, Option.some.injEq] at hb
    subst hb
    have hspace := h b' (by simp)
    simp only [isSpace, Bool.or_eq_true, beq_iff_eq] at hspace
    rcases hspace with ((rfl | rfl) | rfl) | rfl <;> exact ⟨rfl, rfl, rfl, rfl⟩

theorem stops_blank {after : List UInt8} (h : Blank after) : Stops after := by
  intro b hb
  cases after with
  | nil => cases hb
  | cons b' after => exact stops_append h (c := ',') (by simp) [] b (by simpa using hb)

/-- What the reader makes of a part, whatever follows it. Each byte takes at most two steps. -/
def Part.Read (bs : List UInt8) : Part → Prop
  | value n => (∃ b tail, bs = b :: tail ∧ Opens b) ∧ ∀ blank rest fuel, Blank blank → Stops rest →
      2 * bs.length ≤ fuel + 1 → readValue fuel (blank ++ (bs ++ rest)) = (n, some rest)
  | items ns => (∃ b tail, bs = b :: tail ∧ Opens b) ∧ ∀ blank rest fuel, Blank blank →
      2 * bs.length ≤ fuel → readItems fuel (blank ++ (bs ++ ']'.toUInt8 :: rest)) = (ns, none, some rest)
  | members ms => (∃ tail, bs = '"'.toUInt8 :: tail) ∧ ∀ blank rest fuel, Blank blank →
      2 * bs.length ≤ fuel → readMembers fuel (blank ++ (bs ++ '\x7d'.toUInt8 :: rest)) = (ms, .closed, some rest)

/-- A value is read by what comes after its first byte. -/
theorem Part.read_value {b : UInt8} {tail : List UInt8} {n : Node} (hopens : Opens b)
    (h : ∀ rest fuel, Stops rest → 2 * tail.length ≤ fuel → ∀ bs, skipSpace bs = b :: (tail ++ rest) →
      readValue (fuel + 1) bs = (n, some rest)) : (Part.value n).Read (b :: tail) := by
  refine ⟨⟨b, tail, rfl, hopens⟩, fun blank rest fuel hblank hrest hfuel => ?_⟩
  rw [List.length_cons] at hfuel
  obtain ⟨fuel, rfl⟩ : ∃ f, fuel = f + 1 := ⟨fuel - 1, by omega⟩
  refine h rest fuel hrest (by omega) _ ?_
  rw [skipSpace_append hblank, List.cons_append, skipSpace_cons hopens.1]

theorem Part.read_scalar {b : UInt8} {tail : List UInt8} {n : Node} (hopens : Opens b)
    (hstring : isByte '"' b = false) (harray : isByte '[' b = false) (hobject : isByte '\x7b' b = false)
    (h : ∀ rest, Stops rest → readScalar b (tail ++ rest) = (n, some rest)) : (Part.value n).Read (b :: tail) := by
  refine read_value hopens fun rest fuel hrest _ bs hbs => ?_
  rw [readValue, hbs]
  simp only [hstring, harray, hobject, Bool.false_eq_true, if_false]
  exact h rest hrest

theorem read_number {bs : List UInt8} {n : Numeral} (h : SpellsNumeral false bs n) :
    (Part.value (.number n)).Read bs := by
  obtain ⟨b, tail, rfl, hb⟩ := h.head
  have hne (c : Char) (hc : c.toUInt8.toNat = c.toNat) (hdigit : isDigit c.toUInt8 = false) : isByte c b = false :=
    isByte_of_isDigit hb hc hdigit
  refine Part.read_scalar (opens_of_isDigit hb) (hne _ rfl rfl) (hne _ rfl rfl) (hne _ rfl rfl) fun rest hrest => ?_
  rw [readScalar]
  simp only [hne 'n' rfl rfl, hne 't' rfl rfl, hne 'f' rfl rfl, hne '-' rfl rfl, hb, Bool.false_eq_true, if_false,
    if_true]
  exact readNumber_append h hrest

section

variable {blank bs : List UInt8}

theorem read_string {ps : List Piece} (h : SpellsPieces bs ps) :
    (Part.value (.string ⟨ps, none⟩)).Read ('"'.toUInt8 :: (bs ++ ['"'.toUInt8])) := by
  refine Part.read_value ⟨rfl, rfl⟩ fun rest fuel _ _ text htext => ?_
  have hquote : isByte '"' '"'.toUInt8 = true := rfl
  rw [readValue, htext]
  simp only [hquote, if_true, List.append_assoc, List.cons_append, List.nil_append, readQuoted_append h rest]

theorem read_emptyArray (hblank : Blank blank) :
    (Part.value (.array [] none)).Read ('['.toUInt8 :: (blank ++ [']'.toUInt8])) := by
  refine Part.read_value ⟨rfl, rfl⟩ fun rest fuel _ _ text htext => ?_
  have hquote : isByte '"' '['.toUInt8 = false := rfl
  have hbracket : isByte '[' '['.toUInt8 = true := rfl
  have hclose : isByte ']' ']'.toUInt8 = true := rfl
  have hskip : skipSpace (blank ++ [']'.toUInt8] ++ rest) = ']'.toUInt8 :: rest := by
    rw [List.append_assoc]
    exact skipSpace_mark hblank rfl rest
  rw [readValue, htext]
  simp only [hquote, hbracket, hclose, Bool.false_eq_true, if_false, if_true, hskip]

theorem read_emptyObject (hblank : Blank blank) :
    (Part.value (.object [] .closed)).Read ('\x7b'.toUInt8 :: (blank ++ ['\x7d'.toUInt8])) := by
  refine Part.read_value ⟨rfl, rfl⟩ fun rest fuel _ _ text htext => ?_
  have hquote : isByte '"' '\x7b'.toUInt8 = false := rfl
  have hbracket : isByte '[' '\x7b'.toUInt8 = false := rfl
  have hbrace : isByte '\x7b' '\x7b'.toUInt8 = true := rfl
  have hclose : isByte '\x7d' '\x7d'.toUInt8 = true := rfl
  have hskip : skipSpace (blank ++ ['\x7d'.toUInt8] ++ rest) = '\x7d'.toUInt8 :: rest := by
    rw [List.append_assoc]
    exact skipSpace_mark hblank rfl rest
  rw [readValue, htext]
  simp only [hquote, hbracket, hbrace, hclose, Bool.false_eq_true, if_false, if_true, hskip]

theorem read_array {ns : List Node} (hblank : Blank blank) (h : (Part.items ns).Read bs) :
    (Part.value (.array ns none)).Read ('['.toUInt8 :: (blank ++ (bs ++ [']'.toUInt8]))) := by
  refine Part.read_value ⟨rfl, rfl⟩ fun rest fuel _ hfuel text htext => ?_
  obtain ⟨⟨b, tail, rfl, hopens⟩, hread⟩ := h
  have hquote : isByte '"' '['.toUInt8 = false := rfl
  have hbracket : isByte '[' '['.toUInt8 = true := rfl
  have hitems := hread [] rest fuel (by simp [Blank]) (by simp at hfuel ⊢; omega)
  rw [List.nil_append, List.cons_append] at hitems
  have hskip : skipSpace (blank ++ (b :: tail ++ [']'.toUInt8]) ++ rest) = b :: (tail ++ ']'.toUInt8 :: rest) := by
    rw [List.append_assoc, skipSpace_append hblank]
    simp [skipSpace_cons hopens.1]
  rw [readValue, htext]
  simp only [hquote, hbracket, Bool.false_eq_true, if_false, if_true, hskip, hopens.2, hitems]

theorem read_object {ms : List (Quoted × Node)} (hblank : Blank blank) (h : (Part.members ms).Read bs) :
    (Part.value (.object ms .closed)).Read ('\x7b'.toUInt8 :: (blank ++ (bs ++ ['\x7d'.toUInt8]))) := by
  refine Part.read_value ⟨rfl, rfl⟩ fun rest fuel _ hfuel text htext => ?_
  obtain ⟨⟨tail, rfl⟩, hread⟩ := h
  have hquote : isByte '"' '\x7b'.toUInt8 = false := rfl
  have hbracket : isByte '[' '\x7b'.toUInt8 = false := rfl
  have hbrace : isByte '\x7b' '\x7b'.toUInt8 = true := rfl
  have hclose : isByte '\x7d' '"'.toUInt8 = false := rfl
  have hmembers := hread [] rest fuel (by simp [Blank]) (by simp at hfuel ⊢; omega)
  rw [List.nil_append, List.cons_append] at hmembers
  have hskip : skipSpace (blank ++ ('"'.toUInt8 :: tail ++ ['\x7d'.toUInt8]) ++ rest) =
      '"'.toUInt8 :: (tail ++ '\x7d'.toUInt8 :: rest) := by
    rw [List.append_assoc, skipSpace_append hblank]
    simp [skipSpace_cons (b := '"'.toUInt8) rfl]
  rw [readValue, htext]
  simp only [hquote, hbracket, hbrace, hclose, Bool.false_eq_true, if_false, if_true, hskip, hmembers]

end

section

variable {fuel : Nat} {text behind : List UInt8} {n : Node}

/-- An item and what the mark behind it leads to. -/
theorem readItems_step (hread : readValue fuel text = (n, some behind)) :
    (∀ rest, skipSpace behind = ']'.toUInt8 :: rest → readItems (fuel + 1) text = ([n], none, some rest)) ∧
    ∀ next ns cut rest, skipSpace behind = ','.toUInt8 :: next → readItems fuel next = (ns, cut, rest) →
      readItems (fuel + 1) text = (n :: ns, cut, rest) := by
  have hclose : isByte ']' ']'.toUInt8 = true := rfl
  have hopen : isByte ']' ','.toUInt8 = false := rfl
  have hcomma : isByte ',' ','.toUInt8 = true := rfl
  constructor
  · intro rest hbehind
    rw [readItems, hread]
    simp only [hbehind, hclose, if_true]
  · intro next ns cut rest hbehind hnext
    rw [readItems, hread]
    simp only [hbehind, hopen, hcomma, hnext, Bool.false_eq_true, if_false, if_true]

/-- A member and what the mark behind it leads to. -/
theorem readMembers_step {key colon value : List UInt8} {ps : List Piece}
    (hquote : skipSpace text = '"'.toUInt8 :: key) (hkey : readQuoted key = (⟨ps, none⟩, some colon))
    (hcolon : skipSpace colon = ':'.toUInt8 :: value) (hread : readValue fuel value = (n, some behind)) :
    (∀ rest, skipSpace behind = '\x7d'.toUInt8 :: rest →
      readMembers (fuel + 1) text = ([(⟨ps, none⟩, n)], .closed, some rest)) ∧
    ∀ next ms ending rest, skipSpace behind = ','.toUInt8 :: next → readMembers fuel next = (ms, ending, rest) →
      readMembers (fuel + 1) text = ((⟨ps, none⟩, n) :: ms, ending, rest) := by
  have hquoted : isByte '"' '"'.toUInt8 = true := rfl
  have hcoloned : isByte ':' ':'.toUInt8 = true := rfl
  have hclose : isByte '\x7d' '\x7d'.toUInt8 = true := rfl
  have hopen : isByte '\x7d' ','.toUInt8 = false := rfl
  have hcomma : isByte ',' ','.toUInt8 = true := rfl
  constructor
  · intro rest hbehind
    rw [readMembers, hquote]
    simp only [hquoted, if_true, hkey, hcolon, hcoloned, hread, hbehind, hclose]
  · intro next ms ending rest hbehind hnext
    rw [readMembers, hquote]
    simp only [hquoted, if_true, hkey, hcolon, hcoloned, hread, hbehind, hopen, hcomma, hnext, Bool.false_eq_true,
      if_false]

end

/-- The reader finds every part that a text spells. -/
theorem read_of_spells {bs : List UInt8} {p : Part} (h : Spells bs p) : p.Read bs := by
  -- an item or a member takes one step more than its value, which is why values are bounded by one step more
  induction h with
  | null => exact Part.read_scalar ⟨rfl, rfl⟩ rfl rfl rfl fun rest _ => rfl
  | true => exact Part.read_scalar ⟨rfl, rfl⟩ rfl rfl rfl fun rest _ => rfl
  | false => exact Part.read_scalar ⟨rfl, rfl⟩ rfl rfl rfl fun rest _ => rfl
  | positive hn => exact read_number hn
  | negative hn => exact Part.read_scalar ⟨rfl, rfl⟩ rfl rfl rfl fun rest hrest => readNumber_append hn hrest
  | string hps => exact read_string hps
  | emptyArray hblank => exact read_emptyArray hblank
  | array hblank _ ih => exact read_array hblank ih
  | emptyObject hblank => exact read_emptyObject hblank
  | object hblank _ ih => exact read_object hblank ih
  | @lastItem bs after n _ hafter ih =>
    obtain ⟨⟨b, tail, rfl, hopens⟩, hread⟩ := ih
    refine ⟨⟨b, tail ++ after, rfl, hopens⟩, fun blank rest fuel hblank hfuel => ?_⟩
    obtain ⟨fuel, rfl⟩ : ∃ f, fuel = f + 1 := ⟨fuel - 1, by simp at hfuel; omega⟩
    have hvalue := hread blank (after ++ ']'.toUInt8 :: rest) fuel hblank (stops_append hafter (by simp) rest)
      (by simp at hfuel ⊢; omega)
    rw [List.append_assoc]
    exact (readItems_step hvalue).1 rest (skipSpace_mark hafter rfl rest)
  | @item bs after before next n ns _ hafter hbefore _ ih ihnext =>
    obtain ⟨⟨b, tail, rfl, hopens⟩, hread⟩ := ih
    refine ⟨⟨b, _, rfl, hopens⟩, fun blank rest fuel hblank hfuel => ?_⟩
    simp only [List.length_append, List.length_cons] at hfuel
    obtain ⟨fuel, rfl⟩ : ∃ f, fuel = f + 1 := ⟨fuel - 1, by omega⟩
    have hvalue := hread blank (after ++ ','.toUInt8 :: (before ++ (next ++ ']'.toUInt8 :: rest))) fuel hblank
      (stops_append hafter (by simp) _) (by simp only [List.length_cons]; omega)
    have hnext := ihnext.2 before rest fuel hbefore (by omega)
    simp only [List.append_assoc, List.cons_append] at hvalue ⊢
    exact (readItems_step hvalue).2 _ _ _ _ (skipSpace_mark hafter rfl _) hnext
  | @lastMember key beforeColon afterColon bs after ps n hkey hbeforeColon hafterColon _ hafter ih =>
    refine ⟨⟨_, rfl⟩, fun blank rest fuel hblank hfuel => ?_⟩
    simp only [List.length_append, List.length_cons] at hfuel
    obtain ⟨fuel, rfl⟩ : ∃ f, fuel = f + 1 := ⟨fuel - 1, by omega⟩
    have hvalue := ih.2 afterColon (after ++ '\x7d'.toUInt8 :: rest) fuel hafterColon
      (stops_append hafter (by simp) rest) (by omega)
    simp only [List.append_assoc, List.cons_append] at hvalue ⊢
    exact (readMembers_step (skipSpace_mark hblank rfl _) (readQuoted_append hkey _) (skipSpace_mark hbeforeColon rfl _)
      hvalue).1 rest (skipSpace_mark hafter rfl rest)
  | @member key beforeColon afterColon bs after before next ps n ms hkey hbeforeColon hafterColon _ hafter hbefore _ ih
      ihnext =>
    refine ⟨⟨_, rfl⟩, fun blank rest fuel hblank hfuel => ?_⟩
    simp only [List.length_append, List.length_cons] at hfuel
    obtain ⟨fuel, rfl⟩ : ∃ f, fuel = f + 1 := ⟨fuel - 1, by omega⟩
    have hvalue := ih.2 afterColon (after ++ ','.toUInt8 :: (before ++ (next ++ '\x7d'.toUInt8 :: rest))) fuel
      hafterColon (stops_append hafter (by simp) _) (by omega)
    have hnext := ihnext.2 before rest fuel hbefore (by omega)
    simp only [List.append_assoc, List.cons_append] at hvalue ⊢
    exact (readMembers_step (skipSpace_mark hblank rfl _) (readQuoted_append hkey _) (skipSpace_mark hbeforeColon rfl _)
      hvalue).2 _ _ _ _ (skipSpace_mark hafter rfl _) hnext

/-- A text is read as the tree that it spells, to its end. -/
theorem ofBytes_of_spells {text : List UInt8} {n : Node} (h : SpellsText text n) :
    Document.ofBytes text = ⟨n, false⟩ := by
  obtain ⟨before, bs, after, hbefore, hbs, hafter, rfl⟩ := h
  have hread := (read_of_spells hbs).2 before after (2 * (before ++ (bs ++ after)).length + 2) hbefore
    (stops_blank hafter) (by simp; omega)
  have hend : skipSpace after = [] := by
    have hskip := skipSpace_append hafter []
    rwa [List.append_nil] at hskip
  rw [Document.ofBytes, hread]
  simp [hend]

def Part.skim : Part → Option Fault
  | value n => n.skim
  | items ns => Node.skimItems ns
  | members ms => Node.skimMembers ms

/-- What is spelled by the rules has no fault for one who passes over it. -/
theorem skim_of_spells {bs : List UInt8} {p : Part} (h : Spells bs p) : p.skim = none := by
  induction h with
  | array _ _ ih => simpa [Part.skim, Node.skim] using ih
  | object _ _ ih => simpa [Part.skim, Node.skim, Ending.fault] using ih
  | lastItem _ _ ih => simpa [Part.skim, Node.skimItems] using ih
  | item _ _ _ _ ih ihnext => simpa [Part.skim, Node.skimItems, ih] using ⟨ih, ihnext⟩
  | lastMember _ _ _ _ _ ih => simpa [Part.skim, Node.skimMembers] using ih
  | member _ _ _ _ _ _ _ ih ihnext => simpa [Part.skim, Node.skimMembers] using ⟨ih, ihnext⟩
  | _ => rfl

theorem SpellsText.skim {text : List UInt8} {n : Node} (h : SpellsText text n) : n.skim = none := by
  obtain ⟨before, bs, after, -, hbs, -, -⟩ := h
  exact skim_of_spells hbs

end LoadSweep.Json
