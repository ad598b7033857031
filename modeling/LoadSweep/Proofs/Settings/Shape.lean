import LoadSweep.Proofs.Json.Record
import LoadSweep.Settings.Shape

/-! Settings are what a text says of each of their fields, whatever else it says and in whatever order. -/
namespace LoadSweep

open Json Json.Fields

namespace Colour

/-- A colour is three bytes, or a name in letters of either case. -/
inductive Denoted : Node → Colour → Prop
  | channels {r g b : Node} {red green blue : UInt8} : DenotesNatural 256 r red.toNat →
      DenotesNatural 256 g green.toNat → DenotesNatural 256 b blue.toNat →
      Denoted (.array [r, g, b] none) ⟨red, green, blue⟩
  | name {q : Quoted} {s lower : String} {c : Colour} : DenotesText (.string q) s →
      lower.toList = s.toList.map Char.toLower → (lower, c) ∈ names → Denoted (.string q) c

theorem channel?_of_denotes {n : Node} {b : UInt8} (h : DenotesNatural 256 n b.toNat) :
    channel? n = some b ∧ ∀ depth, n.probe depth = none := by
  obtain ⟨hb, t, rfl, hvalue⟩ := h.value (by decide)
  have hbyte : 0 ≤ (b.toNat : Int) ∧ (b.toNat : Int) < 256 := by omega
  constructor
  · simp only [channel?, hvalue, if_pos hbyte]
    simp
  · intro depth
    simp only [Node.probe, hvalue]

theorem reads_shape {depth : Nat} (hdepth : depth ≠ 0) : (shape depth).Reads Denoted := by
  intro n c _ h
  cases h with
  | channels hr hg hb =>
    obtain ⟨hr, hr'⟩ := channel?_of_denotes hr
    obtain ⟨hg, hg'⟩ := channel?_of_denotes hg
    obtain ⟨hb, hb'⟩ := channel?_of_denotes hb
    simp only [shape, Node.probe, Node.probeItems, if_neg hdepth, hr', hg', hb', Option.or_none, hr, hg, hb]
  | @name q s lower c hs hlower hmem =>
    have hnamed : named? s = some c := by
      have hfind : ∀ p ∈ names, names.find? (·.1 == p.1) = some p := by decide
      have hlower' : String.ofList (s.toList.map Char.toLower) = lower := by rw [← hlower, String.ofList_toList]
      rw [named?, hlower', hfind _ hmem]
      rfl
    simp only [shape, Node.probe, text_of_denotesText hs, asked, ok_bind, hnamed]
    rfl

end Colour

namespace Marker

def spellings : List (String × Marker) :=
  [("diamond", diamond), ("square", square), ("triangle", triangle), ("circle", circle)]

theorem reads_shape : shape.Reads (DenotesCase spellings) :=
  reads_case (by simp [spellings, findCase, all, name])

end Marker

namespace Metric

def spellings : List (String × Metric) :=
  [("latency", latency), ("throughput", throughput), ("nic_saturation", saturation), ("nic-saturation", saturation)]

theorem reads_shape : shape.Reads (DenotesCase spellings) :=
  reads_case (by simp [spellings, findCase])

end Metric

namespace Level

/-- What is given of a level agrees with it. -/
structure Agrees (given : String → Option Node) (l : Level) : Prop where
  load : Given (DenotesNatural UInt32.size) none (given "load") l.load.toNat
  label : Given (DenotesOptional DenotesText) (some none) (given "label") l.given
  colour : Given (DenotesOptional Colour.Denoted) (some none) (given "color") l.colour
  marker : Given (DenotesOptional (DenotesCase Marker.spellings)) (some none) (given "marker") l.marker

theorem apart_fields : fields.Apart := by
  simp only [Fields.Apart, fields, List.pairwise_cons, List.forall_mem_cons, List.not_mem_nil, false_imp_iff,
    implies_true, List.Pairwise.nil, and_true]
  and_intros <;> exact Field.apart_field (by decide) fun _ _ _ => rfl

theorem reads_shape : fields.shape.Reads (fields.Denotes Agrees) := by
  refine reads_record apart_fields fun given l hskim h => ?_
  have hload : l = { l with load := l.load.toNat.toUInt32 } := by simp
  rw [hload]
  exact .cons (Field.puts_required (reads_natural _ (by decide)) (hskim _) h.load) <|
    .cons (Field.puts_optional (reads_optional (reads_text _) nofun) (hskim _) h.label rfl) <|
    .cons (Field.puts_optional (reads_optional (Colour.reads_shape (by decide)) nofun) (hskim _) h.colour rfl) <|
    .cons (Field.puts_optional (reads_optional Marker.reads_shape nofun) (hskim _) h.marker rfl) .nil

end Level

namespace Reduction

/-- The column of the keys is given. -/
def GroupsBy (given : String → Option Node) (r : Reduction) : Prop :=
  ∃ column, Given (DenotesNatural UInt64.size) none (given "key_column") column ∧ r = grouped column

/-- A reduction is a case without content, or one that holds the column of the keys. -/
inductive Denoted : Node → Reduction → Prop
  | flat {n : Node} : DenotesCase [("flat", flat)] n flat → Denoted n flat
  | grouped {key : Quoted} {n : Node} {column : Nat} : DenotesText (.string key) "mean_of_group_means" →
      groupedFields.Denotes GroupsBy n (grouped column) → Denoted (.object [(key, n)] .closed) (grouped column)

theorem reads_grouped : groupedFields.shape.Reads (groupedFields.Denotes GroupsBy) := by
  have apart_fields : groupedFields.Apart := List.pairwise_singleton _ _
  refine reads_record apart_fields fun given r hskim h => ?_
  obtain ⟨column, hcolumn, rfl⟩ := h
  exact .cons (Field.puts_required (reads_natural _ le_rfl) (hskim _) hcolumn) .nil

theorem reads_shape : shape.Reads Denoted := by
  intro n r hskim h
  cases h with
  | flat h =>
    have hflat : shape.Reads (DenotesCase [("flat", flat)]) := reads_case (by simp [findCase])
    exact hflat n _ hskim h
  | @grouped key n column hkey h =>
    have hn : n.skim = none := by
      simp only [Node.skim, Node.skimMembers, Option.or_eq_none_iff] at hskim
      exact hskim.1.2.1
    have hfind : findCase [("flat", .bare flat), ("mean_of_group_means", .fields groupedFields)]
        "mean_of_group_means" = .ok (.fields groupedFields) := rfl
    have hshape : groupedFields.shape n = .ok (grouped column) := reads_grouped n _ hn h
    rw [shape, oneOf, text_of_denotesText hkey]
    simp only [asked, ok_bind, hfind, Case.shape, hshape]
    rfl

end Reduction

namespace Bounds

/-- What is given of a range agrees with it. -/
structure Agrees (given : String → Option Node) (b : Bounds) : Prop where
  metric : Given (DenotesCase Metric.spellings) none (given "metric") b.metric
  low : Given DenotesReal none (given "min") b.low
  high : Given DenotesReal none (given "max") b.high

theorem apart_fields : fields.Apart := by
  simp only [Fields.Apart, fields, List.pairwise_cons, List.forall_mem_cons, List.not_mem_nil, false_imp_iff,
    implies_true, List.Pairwise.nil, and_true]
  and_intros <;> exact Field.apart_field (by decide) fun _ _ _ => rfl

theorem reads_shape : fields.shape.Reads (fields.Denotes Agrees) :=
  reads_record apart_fields fun _ _ hskim h =>
    .cons (Field.puts_required Metric.reads_shape (hskim _) h.metric) <|
    .cons (Field.puts_required reads_real (hskim _) h.low) <|
    .cons (Field.puts_required reads_real (hskim _) h.high) .nil

end Bounds

namespace Settings

/-- What is given agrees with settings. What is not given is as in the standard settings. -/
structure Agrees (given : String → Option Node) (s : Settings) : Prop where
  directory : Given DenotesText (some standard.directory) (given "data_dir") s.directory
  sweptVariant : Given DenotesText (some standard.sweptVariant) (given "swept_variant") s.sweptVariant
  baselineVariant : Given DenotesText (some standard.baselineVariant) (given "baseline_variant") s.baselineVariant
  sweptName : Given DenotesText (some standard.sweptName) (given "swept_name") s.sweptName
  baselineName : Given DenotesText (some standard.baselineName) (given "baseline_name") s.baselineName
  ending : Given DenotesText (some standard.ending) (given "extension") s.ending
  window : Given DenotesReal (some standard.window) (given "window_secs") s.window
  axisLabel : Given DenotesText (some standard.axisLabel) (given "x_label") s.axisLabel
  levels : Given (DenotesList (Level.fields.Denotes Level.Agrees)) (some standard.levels) (given "levels") s.levels
  metrics : Given (DenotesList (DenotesCase Metric.spellings)) (some standard.metrics) (given "metrics") s.metrics
  reduction : Given Reduction.Denoted (some standard.reduction) (given "baseline_reduction") s.reduction
  bounds : Given (DenotesList (Bounds.fields.Denotes Bounds.Agrees)) (some standard.bounds) (given "y_bounds") s.bounds

theorem apart_fields : fields.Apart := by
  simp only [Fields.Apart, fields, List.pairwise_cons, List.forall_mem_cons, List.not_mem_nil, false_imp_iff,
    implies_true, List.Pairwise.nil, and_true]
  and_intros <;> exact Field.apart_field (by decide) fun _ _ _ => rfl

theorem reads_shape : fields.shape.Reads (fields.Denotes Agrees) :=
  reads_record apart_fields fun _ _ hskim h =>
    .cons (Field.puts_optional (reads_text _) (hskim _) h.directory rfl) <|
    .cons (Field.puts_optional (reads_text _) (hskim _) h.sweptVariant rfl) <|
    .cons (Field.puts_optional (reads_text _) (hskim _) h.baselineVariant rfl) <|
    .cons (Field.puts_optional (reads_text _) (hskim _) h.sweptName rfl) <|
    .cons (Field.puts_optional (reads_text _) (hskim _) h.baselineName rfl) <|
    .cons (Field.puts_optional (reads_text _) (hskim _) h.ending rfl) <|
    .cons (Field.puts_optional reads_real (hskim _) h.window rfl) <|
    .cons (Field.puts_optional (reads_text _) (hskim _) h.axisLabel rfl) <|
    .cons (Field.puts_optional (reads_list Level.reads_shape) (hskim _) h.levels rfl) <|
    .cons (Field.puts_optional (reads_list Metric.reads_shape) (hskim _) h.metrics rfl) <|
    .cons (Field.puts_optional Reduction.reads_shape (hskim _) h.reduction rfl) <|
    .cons (Field.puts_optional (reads_list Bounds.reads_shape) (hskim _) h.bounds rfl) .nil

/-- Two values of one field that say the same: levels and bounds may be written differently. -/
inductive SaysSame : String → Node → Node → Prop
  | refl (name : String) (n : Node) : SaysSame name n n
  | levels {n n' : Node} : Itemwise (Level.fields.Alike fun _ => Eq) n n' → SaysSame "levels" n n'
  | bounds {n n' : Node} : Itemwise (Bounds.fields.Alike fun _ => Eq) n n' → SaysSame "y_bounds" n n'

theorem respects_saysSame {f : Json.Field Settings} (hf : f ∈ fields.fields) : f.Respects SaysSame := by
  obtain ⟨g, hg, hname, hset⟩ : ∃ g ∈ fields.fields, g.name = "levels" ∧
      ∀ n, g.set n = (list Level.fields.shape n).map fun x s => { s with levels := x } :=
    ⟨_, List.mem_of_getElem? (show fields.fields[8]? = some _ from rfl), rfl, fun _ => rfl⟩
  obtain ⟨g', hg', hname', hset'⟩ : ∃ g ∈ fields.fields, g.name = "y_bounds" ∧
      ∀ n, g.set n = (list Bounds.fields.shape n).map fun x s => { s with bounds := x } :=
    ⟨_, List.mem_of_getElem? (show fields.fields[11]? = some _ from rfl), rfl, fun _ => rfl⟩
  intro v v' hsame hv hv'
  generalize hfield : f.name = name at hsame
  cases hsame with
  | refl => rfl
  | levels h =>
    obtain rfl := eq_of_name apart_fields hf hg (hfield.trans hname.symm)
    have hlist : list Level.fields.shape v = list Level.fields.shape v' :=
      list_itemwise h hv hv' fun _ _ => shape_alike Level.apart_fields fun f _ => f.respects_eq
    rw [hset, hset, hlist]
  | bounds h =>
    obtain rfl := eq_of_name apart_fields hf hg' (hfield.trans hname'.symm)
    have hlist : list Bounds.fields.shape v = list Bounds.fields.shape v' :=
      list_itemwise h hv hv' fun _ _ => shape_alike Bounds.apart_fields fun f _ => f.respects_eq
    rw [hset', hset', hlist]

theorem ofJson_of_spells {text : List UInt8} {n : Node} (h : SpellsText text n) : ofJson text = fields.shape n := by
  rw [ofJson, ofBytes_of_spells h, Document.get]
  cases fields.shape n <;> rfl

/-- Settings depend on which of their fields a text gives and by which values, and on nothing else. If a text gives no
field twice and each by a value that denotes something of its kind, it is read: what it gives is as denoted, and what
it does not give is as in the standard settings. An array gives its items to as many fields from the first. Fields in
another order or other members among them make no difference, also in the levels and the bounds. -/
theorem determined_by_fields :
    fields.names = ["data_dir", "swept_variant", "baseline_variant", "swept_name", "baseline_name", "extension",
      "window_secs", "x_label", "levels", "metrics", "baseline_reduction", "y_bounds"] ∧
    Level.fields.names = ["load", "label", "color", "marker"] ∧ Bounds.fields.names = ["metric", "min", "max"] ∧
    (∀ text members s, SpellsObject text members → fields.Once members → Agrees (members.lookup ·) s →
      ofJson text = .ok s) ∧
    (∀ text items s, SpellsText text (.array items none) → items.length ≤ fields.names.length →
      Agrees ((fields.labelled items).lookup ·) s →
      ofJson text = .ok s ∧ ∀ text', SpellsObject text' (fields.labelled items) → ofJson text' = .ok s) ∧
    ∀ text text' n n', SpellsText text n → SpellsText text' n' → fields.Alike SaysSame n n' →
      ofJson text = ofJson text' := by
  have hread {text : List UInt8} {n : Node} {s : Settings} (h : SpellsText text n) (hs : fields.Denotes Agrees n s) :
      ofJson text = .ok s := (ofJson_of_spells h).trans (reads_shape n s h.skim hs)
  refine ⟨rfl, rfl, rfl, ?_, ?_, ?_⟩
  · rintro text members s ⟨ms, htext, named⟩ once hs
    exact hread htext ⟨members, .object named, once, hs⟩
  · intro text items s htext hlength hs
    have once := once_labelled apart_fields items
    refine ⟨hread htext ⟨_, .array (by simpa [names] using hlength), once, hs⟩, ?_⟩
    rintro text' ⟨ms, htext', named⟩
    exact hread htext' ⟨_, .object named, once, hs⟩
  · intro text text' n n' htext htext' halike
    rw [ofJson_of_spells htext, ofJson_of_spells htext']
    exact shape_alike apart_fields (fun f hf => respects_saysSame hf) halike htext.skim htext'.skim

/-- A number, a case that holds a record, and a list of a record that holds an array. -/
theorem ofJson_three_fields :
    ofJson (Text.Utf8.bytesOf ("\x7b\"window_secs\":1.5,\"baseline_reduction\":\x7b\"mean_of_group_means\":" ++
      "\x7b\"key_column\":3\x7d\x7d,\"levels\":[\x7b\"load\":2500,\"color\":[1,2,3]\x7d]\x7d")) =
    .ok { standard with
      window := 1.5, reduction := .grouped 3, levels := [{ load := 2500, colour := some ⟨1, 2, 3⟩ }] } := by
  let key (s : String) : Quoted := ⟨(Text.Utf8.bytesOf s).map .byte, none⟩
  let whole (ds : List Nat) : Node := .number ⟨false, ds, none, none⟩
  let colour : Node := .array [whole [1], whole [2], whole [3]] none
  let level : Node := .object [(key "load", whole [2, 5, 0, 0]), (key "color", colour)] .closed
  let groups : Node := .object [(key "key_column", whole [3])] .closed
  let members : List (String × Node) := [("window_secs", .number ⟨false, [1], some [5], none⟩),
    ("baseline_reduction", .object [(key "mean_of_group_means", groups)] .closed), ("levels", .array [level] none)]
  let settings : Settings := { standard with
    window := 1.5, reduction := .grouped 3, levels := [{ load := 2500, colour := some ⟨1, 2, 3⟩ }] }
  -- the text spells the members
  have hblank : Blank [] := by simp [Blank]
  have hlast (s : String) {bs : List UInt8} {n : Node} (hn : Spells bs (.value n))
      (h : (Text.Utf8.bytesOf s).all isPlain = true) :=
    Spells.lastMember (spellsPieces_bytes h) hblank hblank hn hblank
  have hmember (s : String) {bs rest : List UInt8} {n : Node} {ms : List (Quoted × Node)}
      (hn : Spells bs (.value n)) (hrest : Spells rest (.members ms)) (h : (Text.Utf8.bytesOf s).all isPlain = true) :=
    Spells.member (spellsPieces_bytes h) hblank hblank hn hblank hblank hrest
  have hdigits (bs : List UInt8) (h : bs.all isDigit = true) (hsome : bs ≠ []) := spellsDigits_bytes h hsome
  have hwhole (bs : List UInt8) (h : bs.all isDigit = true) (hsome : bs ≠ []) := spells_whole h hsome
  have hone := hwhole [49] (by decide) (by decide) (by decide)
  have htwo := hwhole [50] (by decide) (by decide) (by decide)
  have hthree := hwhole [51] (by decide) (by decide) (by decide)
  have hload := hwhole [50, 53, 48, 48] (by decide) (by decide) (by decide)
  have hcolour := Spells.array hblank (.item hone hblank hblank (.item htwo hblank hblank (.lastItem hthree hblank)))
  have hlevel := Spells.object hblank (hmember "load" hload (hlast "color" hcolour (by decide)) (by decide))
  have hgroups := Spells.object hblank (hlast "key_column" hthree (by decide))
  have hreduction := Spells.object hblank (hlast "mean_of_group_means" hgroups (by decide))
  have hwindow := Spells.positive (.mk (hdigits [49] (by decide) (by decide)) (by decide)
    (.point (hdigits [53] (by decide) (by decide))) .none)
  have hlevels := hlast "levels" (.array hblank (.lastItem hlevel hblank)) (by decide)
  have hobject := Spells.object hblank
    (hmember "window_secs" hwindow (hmember "baseline_reduction" hreduction hlevels (by decide)) (by decide))
  -- the members agree with the settings
  have hnatural (bound : Nat) (ds : List Nat) (h : decimal ds < bound) : DenotesNatural bound (whole ds) (decimal ds) :=
    .digits h
  have hreal : DenotesReal (.number ⟨false, [1], some [5], none⟩) settings.window := by
    have hkept : Keeps [] [1] [] := ⟨by decide, by simp⟩
    have hkept' : Keeps [1] [5] [] := ⟨by decide, by simp⟩
    have hdown : Scaled 15 (-(308 * 0 + 1 : Nat)) _ := .down (by decide) (by decide)
    exact .scaled hkept rfl hkept' (.inr (.inl (Option.some_ne_none _))) (.near (by decide) hdown)
  have hgrouped : Reduction.Denoted (.object [(key "mean_of_group_means", groups)] .closed) settings.reduction := by
    have hgives : Reduction.groupedFields.Gives groups [("key_column", whole [3])] :=
      .object (.cons ⟨denotesText_bytes _, rfl⟩ .nil)
    have hcolumn : Reduction.GroupsBy ([("key_column", whole [3])].lookup ·) settings.reduction :=
      ⟨3, .present (hnatural _ _ (by decide)), rfl⟩
    exact .grouped (denotesText_bytes _) ⟨_, hgives, by decide, hcolumn⟩
  have hlevels : DenotesList (Level.fields.Denotes Level.Agrees) (.array [level] none) settings.levels := by
    have hgives : Level.fields.Gives level [("load", whole [2, 5, 0, 0]), ("color", colour)] :=
      .object (.cons ⟨denotesText_bytes _, rfl⟩ <| .cons ⟨denotesText_bytes _, rfl⟩ .nil)
    have hchannels : Colour.Denoted colour ⟨1, 2, 3⟩ :=
      .channels (hnatural _ _ (by decide)) (hnatural _ _ (by decide)) (hnatural _ _ (by decide))
    exact .array (.cons ⟨_, hgives, by decide, .present (hnatural _ _ (by decide)), .absent, .present (.some hchannels),
      .absent⟩ .nil)
  have honce : fields.Once members := by decide
  have hagrees : Agrees (members.lookup ·) settings := ⟨.absent, .absent, .absent, .absent, .absent, .absent,
    .present hreal, .absent, .present hlevels, .absent, .present hgrouped, .absent⟩
  refine determined_by_fields.2.2.2.1 _ members settings
    ⟨_, ⟨[], _, [], hblank, hobject, hblank, by decide +kernel⟩, ?_⟩ honce hagrees
  exact .cons ⟨denotesText_bytes _, rfl⟩ <| .cons ⟨denotesText_bytes _, rfl⟩ <| .cons ⟨denotesText_bytes _, rfl⟩ .nil

end Settings
end LoadSweep
