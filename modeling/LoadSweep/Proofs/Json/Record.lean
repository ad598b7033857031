import LoadSweep.Proofs.Json.Value
import Mathlib.Data.List.Nodup
import Mathlib.Data.List.Pairwise
import Mathlib.Data.List.Perm.Basic

/-! What an object or an array says of a record is which of its fields are given and by which values. Fields can be
set in any order, so the record is the one that is made by going through its fields in their own order. -/
namespace LoadSweep.Json

variable {σ : Type}

/-- The members of an object with their keys as texts. -/
def Named (ms : List (Quoted × Node)) (members : List (String × Node)) : Prop :=
  List.Forall₂ (fun m member => DenotesText (.string m.1) member.1 ∧ m.2 = member.2) ms members

/-- A text that spells an object of these members. -/
def SpellsObject (text : List UInt8) (members : List (String × Node)) : Prop :=
  ∃ ms, SpellsText text (.object ms .closed) ∧ Named ms members

theorem skim_named {ms : List (Quoted × Node)} {members : List (String × Node)} (named : Named ms members)
    (h : Node.skimMembers ms = none) : ∀ m ∈ members, m.2.skim = none := by
  induction named with
  | nil => simp
  | cons hm _ ih =>
    simp only [Node.skimMembers, Option.or_eq_none_iff] at h
    exact List.forall_mem_cons.2 ⟨hm.2 ▸ h.2.1, ih h.2.2⟩

/-- What is given of a field that holds `a`: a value that denotes it, or nothing if it is the default. A required field
has no default. -/
inductive Given {α : Type} (denotes : Node → α → Prop) : (default : Option α) → Option Node → α → Prop
  | absent {a : α} : Given denotes (some a) none a
  | present {default : Option α} {n : Node} {a : α} : denotes n a → Given denotes default (some n) a

namespace Field

/-- Sets a field to a value. A value of another shape leaves the record as it is. -/
def apply (f : Field σ) (n : Node) (s : σ) : σ :=
  match f.set n with
  | .ok set => set s
  | .error _ => s

/-- Two fields that have different names and can be set in either order. -/
structure Apart (f g : Field σ) : Prop where
  name : f.name ≠ g.name
  comm : ∀ m n s, f.apply m (g.apply n s) = g.apply n (f.apply m s)

instance : Std.Symm (@Apart σ) := ⟨fun _ _ h => ⟨h.name.symm, fun m n s => (h.comm n m s).symm⟩⟩

section

variable {α β : Type} {a b : String} {ra rb : Bool} {sa : Shape α} {sb : Shape β} {pa : α → σ → σ} {pb : β → σ → σ}

theorem apply_field (n : Node) (s : σ) : (field a ra sa pa).apply n s = (sa n).toOption.elim s (pa · s) := by
  rw [apply, field]
  cases h : sa n <;> simp [h, Except.map, Except.toOption]

theorem apart_field (hname : a ≠ b) (hput : ∀ x y s, pa x (pb y s) = pb y (pa x s)) :
    (field a ra sa pa).Apart (field b rb sb pb) := by
  refine ⟨hname, fun m n s => ?_⟩
  simp only [apply_field]
  cases (sa m).toOption <;> cases (sb n).toOption <;> simp [hput]

end

/-- What is given of a field can be set, and makes one record of another. -/
structure Puts (f : Field σ) (o : Option Node) (s s' : σ) : Prop where
  required : f.required = true → o.isSome = true
  shaped : ∀ n, o = some n → ∃ set, f.set n = .ok set
  result : o.elim s (f.apply · s) = s'

section

variable {α : Type} {name : String} {required : Bool} {shape : Shape α} {put : α → σ → σ} {denotes : Node → α → Prop}
  {a d : α} {n : Node} {o : Option Node} {s : σ}

theorem puts_value (reads : shape.Reads denotes) (hskim : n.skim = none) (h : denotes n a) :
    (field name required shape put).Puts (some n) s (put a s) := by
  have hread : shape n = .ok a := reads n a hskim h
  refine ⟨fun _ => rfl, ?_, ?_⟩
  · rintro _ ⟨⟩
    exact ⟨put a, congrArg (Except.map put) hread⟩
  · rw [Option.elim_some, apply_field, hread]
    rfl

theorem puts_required (reads : shape.Reads denotes) (hskim : ∀ n, o = some n → n.skim = none)
    (h : Given denotes none o a) : (field name required shape put).Puts o s (put a s) := by
  cases h with
  | present h => exact puts_value reads (hskim _ rfl) h

/-- What is not given leaves the default in the record. -/
theorem puts_optional (reads : shape.Reads denotes) (hskim : ∀ n, o = some n → n.skim = none)
    (h : Given denotes (some d) o a) (hput : put d s = s) : (field name false shape put).Puts o s (put a s) := by
  cases h with
  | absent => exact ⟨nofun, nofun, hput.symm⟩
  | present h => exact puts_value reads (hskim _ rfl) h

end

/-- The field does not tell values apart that say the same. -/
def Respects (f : Field σ) (same : String → Node → Node → Prop) : Prop :=
  ∀ v v', same f.name v v' → v.skim = none → v'.skim = none → f.set v = f.set v'

theorem respects_eq (f : Field σ) : f.Respects fun _ => Eq := by
  rintro v _ rfl - -
  rfl

end Field

namespace Fields

variable {r : Fields σ}

def names (r : Fields σ) : List String := r.fields.map (·.name)

/-- No two fields have the same name or interfere. -/
def Apart (r : Fields σ) : Prop := r.fields.Pairwise Field.Apart

/-- The record whose fields are given by `given`, as far as they are. -/
def result (r : Fields σ) (given : String → Option Node) : σ :=
  r.fields.foldl (fun s f => (given f.name).elim s (f.apply · s)) r.start

/-- Every required field is given, and every given value has the shape of its field. -/
structure Fits (r : Fields σ) (given : String → Option Node) : Prop where
  required : ∀ f ∈ r.fields, f.required = true → (given f.name).isSome = true
  shaped : ∀ f ∈ r.fields, ∀ n, given f.name = some n → ∃ set, f.set n = .ok set

/-- The fields make one record of another, one after the other. -/
inductive Passes (given : String → Option Node) : List (Field σ) → σ → σ → Prop
  | nil {s : σ} : Passes given [] s s
  | cons {f : Field σ} {fs : List (Field σ)} {s s' s'' : σ} : f.Puts (given f.name) s s' → Passes given fs s' s'' →
      Passes given (f :: fs) s s''

theorem fits_of_passes {given : String → Option Node} {s : σ} (h : Passes given r.fields r.start s) :
    r.Fits given ∧ r.result given = s := by
  suffices hall : ∀ fs s s', Passes given fs s s' → (∀ f ∈ fs, f.required = true → (given f.name).isSome = true) ∧
      (∀ f ∈ fs, ∀ n, given f.name = some n → ∃ set, f.set n = .ok set) ∧
      fs.foldl (fun s f => (given f.name).elim s (f.apply · s)) s = s' by
    obtain ⟨required, shaped, hresult⟩ := hall _ _ _ h
    exact ⟨⟨required, shaped⟩, hresult⟩
  intro fs s s' h
  induction h with
  | nil => simp
  | cons hf _ ih =>
    obtain ⟨required, shaped, hresult⟩ := ih
    refine ⟨List.forall_mem_cons.2 ⟨hf.required, required⟩, List.forall_mem_cons.2 ⟨hf.shaped, shaped⟩, ?_⟩
    rw [List.foldl_cons, hf.result, hresult]

/-- The members that are fields. -/
def known (r : Fields σ) (members : List (String × Node)) : List (String × Node) := members.filter (·.1 ∈ r.names)

/-- No field is a member twice. -/
def Once (r : Fields σ) (members : List (String × Node)) : Prop := ((r.known members).map (·.1)).Nodup

instance (members : List (String × Node)) : Decidable (r.Once members) := inferInstanceAs (Decidable (List.Nodup _))

theorem lookup_known {name : String} (hname : name ∈ r.names) (members : List (String × Node)) :
    (r.known members).lookup name = members.lookup name := by
  induction members with
  | nil => rfl
  | cons m members ih =>
    obtain ⟨key, n⟩ := m
    by_cases hkey : name = key
    · subst hkey
      simp [known, hname]
    · have hne : (name == key) = false := by simpa using hkey
      rw [List.lookup_cons, hne, ← ih]
      by_cases hknown : key ∈ r.names <;> simp [known, hknown, List.lookup_cons, hne]

theorem lookup_eq_some_iff {given : List (String × Node)} (once : (given.map (·.1)).Nodup) {name : String} {n : Node} :
    given.lookup name = some n ↔ (name, n) ∈ given := by
  induction given with
  | nil => simp
  | cons m given ih =>
    obtain ⟨key, value⟩ := m
    obtain ⟨habsent, hrest⟩ := List.nodup_cons.1 once
    by_cases hkey : name = key
    · subst hkey
      have hnone : (name, n) ∉ given := fun hmem => habsent (List.mem_map.2 ⟨_, hmem, rfl⟩)
      simp [hnone, eq_comm]
    · have hne : (name == key) = false := by simpa using hkey
      rw [List.lookup_cons, hne]
      simp [ih hrest, hkey]

theorem lookup_perm {given given' : List (String × Node)} (once : (given.map (·.1)).Nodup) (h : given.Perm given')
    (name : String) : given.lookup name = given'.lookup name := by
  have once' : (given'.map (·.1)).Nodup := (h.map _).nodup_iff.1 once
  refine Option.ext fun n => ?_
  rw [lookup_eq_some_iff once, lookup_eq_some_iff once', h.mem_iff]

theorem mem_known_iff {members : List (String × Node)} {m : String × Node} :
    m ∈ r.known members ↔ m ∈ members ∧ m.1 ∈ r.names := by simp [known]

theorem lookup_member_iff {members : List (String × Node)} (once : r.Once members) {name : String}
    (hname : name ∈ r.names) {n : Node} : members.lookup name = some n ↔ (name, n) ∈ members := by
  rw [← lookup_known hname, lookup_eq_some_iff once, mem_known_iff]
  exact and_iff_left hname

/-- A record depends on how its fields are set, and on nothing else that is given. -/
theorem result_congr {given given' : String → Option Node}
    (h : ∀ f ∈ r.fields, (given f.name).map f.set = (given' f.name).map f.set) : r.result given = r.result given' := by
  have happly (o : Option Node) (f : Field σ) (s : σ) : o.elim s (f.apply · s) =
      (o.map f.set).elim s fun set => set.toOption.elim s (· s) := by
    cases o with
    | none => rfl
    | some n =>
      simp only [Option.elim_some, Option.map_some, Field.apply]
      cases f.set n <;> rfl
  refine List.foldl_ext _ _ _ fun s f hf => ?_
  rw [happly, happly, h f hf]

theorem Fits.congr {given given' : String → Option Node} (fits : r.Fits given)
    (h : ∀ f ∈ r.fields, (given f.name).map f.set = (given' f.name).map f.set) : r.Fits given' := by
  refine ⟨fun f hf hrequired => ?_, fun f hf n hn => ?_⟩
  · have hsome := congrArg Option.isSome (h f hf)
    simp only [Option.isSome_map] at hsome
    rw [← hsome]
    exact fits.required f hf hrequired
  · have hset := h f hf
    rw [hn, Option.map_some, Option.map_eq_some_iff] at hset
    obtain ⟨n', hn', heq⟩ := hset
    exact heq ▸ fits.shaped f hf n' hn'

/-- The fields that members set, in the order of the members. -/
def setters (r : Fields σ) (members : List (String × Node)) : List (Field σ × Node) :=
  members.filterMap fun m => (r.fields.find? (·.name == m.1)).map (·, m.2)

theorem find?_eq_none_iff {name : String} : r.fields.find? (·.name == name) = none ↔ name ∉ r.names := by
  simp [names]

theorem exists_find? {name : String} (h : name ∈ r.names) :
    ∃ f ∈ r.fields, r.fields.find? (·.name == name) = some f ∧ f.name = name := by
  cases hf : r.fields.find? (·.name == name) with
  | none => exact absurd h (find?_eq_none_iff.1 hf)
  | some f => exact ⟨f, List.mem_of_find?_eq_some hf, rfl, by simpa using List.find?_some hf⟩

section

variable {m : String × Node} (members : List (String × Node))

theorem known_cons_of_mem (h : m.1 ∈ r.names) : r.known (m :: members) = m :: r.known members := by simp [known, h]

theorem known_cons_of_notMem (h : m.1 ∉ r.names) : r.known (m :: members) = r.known members := by simp [known, h]

theorem setters_cons_of_find? {f : Field σ} (h : r.fields.find? (·.name == m.1) = some f) :
    r.setters (m :: members) = (f, m.2) :: r.setters members := by simp [setters, h]

theorem setters_cons_of_notMem (h : m.1 ∉ r.names) : r.setters (m :: members) = r.setters members := by
  simp [setters, find?_eq_none_iff.2 h]

end

theorem map_name_setters (members : List (String × Node)) :
    (r.setters members).map (·.1.name) = (r.known members).map (·.1) := by
  induction members with
  | nil => rfl
  | cons m members ih =>
    by_cases hm : m.1 ∈ r.names
    · obtain ⟨f, -, hf, hname⟩ := exists_find? hm
      rw [known_cons_of_mem members hm, setters_cons_of_find? members hf, List.map_cons, List.map_cons, ih, hname]
    · rw [known_cons_of_notMem members hm, setters_cons_of_notMem members hm, ih]

/-- Members are read one by one: those that are fields are set, in the order of the members, and the others passed
over. -/
theorem ofMembers_eq {ms : List (Quoted × Node)} {members : List (String × Node)} (named : Named ms members)
    (once : r.Once members) {seen : List String} (unseen : ∀ m ∈ r.known members, m.1 ∉ seen)
    (shaped : ∀ p ∈ r.setters members, ∃ set, p.1.set p.2 = .ok set)
    (passed : ∀ m ∈ members, m.1 ∉ r.names → m.2.skim = none) (s : σ) :
    r.ofMembers seen s ms = .ok (((r.known members).map (·.1)).reverse ++ seen,
      (r.setters members).foldl (fun s p => p.1.apply p.2 s) s) := by
  -- `seen` holds the keys that were set so far, and `unseen` carries along that none of them comes again
  induction named generalizing seen s with
  | nil => rfl
  | @cons m' m ms members hm hrest ih =>
    obtain ⟨key, n⟩ := m'
    obtain ⟨hkey, rfl⟩ := hm
    have hasked : asked key.text = .ok m.1 := by rw [text_of_denotesText hkey]; rfl
    obtain ⟨hpassed, passed⟩ := List.forall_mem_cons.1 passed
    rw [ofMembers, hasked, ok_bind]
    by_cases hknown : m.1 ∈ r.names
    · obtain ⟨f, -, hf, hname⟩ := exists_find? hknown
      rw [known_cons_of_mem members hknown] at unseen ⊢
      rw [setters_cons_of_find? members hf] at shaped ⊢
      rw [Once, known_cons_of_mem members hknown, List.map_cons, List.nodup_cons] at once
      obtain ⟨hunseen, unseen⟩ := List.forall_mem_cons.1 unseen
      obtain ⟨⟨set, hset⟩, shaped⟩ := List.forall_mem_cons.1 shaped
      have hunseen' : ∀ m' ∈ r.known members, m'.1 ∉ m.1 :: seen := by
        intro m' hm' hmem
        rcases List.mem_cons.1 hmem with heq | hseen
        · exact once.1 (List.mem_map.2 ⟨m', hm', heq⟩)
        · exact unseen m' hm' hseen
      have hset : f.set m.2 = .ok set := hset
      have happly : f.apply m.2 s = set s := by rw [Field.apply, hset]
      simp only [hf, List.contains_eq_mem, hunseen, decide_false, Bool.false_eq_true, if_false, hset, ok_bind,
        ih once.2 hunseen' shaped passed, List.map_cons, List.reverse_cons, List.append_assoc, List.cons_append,
        List.nil_append, List.foldl_cons, happly]
    · rw [known_cons_of_notMem members hknown] at unseen ⊢
      rw [setters_cons_of_notMem members hknown] at shaped ⊢
      rw [Once, known_cons_of_notMem members hknown] at once
      simp only [find?_eq_none_iff.2 hknown, hpassed hknown]
      exact ih once unseen shaped passed s

/-- The given fields, in the order of the record. -/
def inOrder (r : Fields σ) (given : String → Option Node) : List (Field σ × Node) :=
  r.fields.filterMap fun f => (given f.name).map (f, ·)

theorem result_eq (r : Fields σ) (given : String → Option Node) :
    r.result given = (r.inOrder given).foldl (fun s p => p.1.apply p.2 s) r.start := by
  rw [inOrder, List.foldl_filterMap, result]
  congr 1
  funext s f
  cases given f.name <;> rfl

theorem mem_inOrder {given : String → Option Node} {p : Field σ × Node} :
    p ∈ r.inOrder given ↔ p.1 ∈ r.fields ∧ given p.1.name = some p.2 := by
  obtain ⟨f, n⟩ := p
  simp only [inOrder, List.mem_filterMap, Option.map_eq_some_iff, Prod.mk.injEq]
  constructor
  · rintro ⟨f, hf, n, hn, rfl, rfl⟩
    exact ⟨hf, hn⟩
  · rintro ⟨hf, hn⟩
    exact ⟨f, hf, n, hn, rfl, rfl⟩

theorem nodup_fields (apart : r.Apart) : r.fields.Nodup := apart.imp fun h heq => h.name (congrArg Field.name heq)

theorem eq_of_name (apart : r.Apart) {f g : Field σ} (hf : f ∈ r.fields) (hg : g ∈ r.fields) (h : f.name = g.name) :
    f = g := by
  by_contra hne
  have hapart := apart.forall hf hg hne
  exact hapart.name h

theorem mem_setters (apart : r.Apart) {members : List (String × Node)} {p : Field σ × Node} :
    p ∈ r.setters members ↔ p.1 ∈ r.fields ∧ (p.1.name, p.2) ∈ members := by
  obtain ⟨f, n⟩ := p
  simp only [setters, List.mem_filterMap, Option.map_eq_some_iff, Prod.mk.injEq]
  constructor
  · rintro ⟨m, hm, f, hf, rfl, rfl⟩
    have hname : f.name = m.1 := by simpa using List.find?_some hf
    exact ⟨List.mem_of_find?_eq_some hf, hname ▸ hm⟩
  · rintro ⟨hf, hm⟩
    obtain ⟨g, hg, hfind, hname⟩ := exists_find? (List.mem_map_of_mem hf : f.name ∈ r.names)
    exact ⟨_, hm, f, eq_of_name apart hg hf hname ▸ hfind, rfl, rfl⟩

theorem setters_perm (apart : r.Apart) {members : List (String × Node)} (once : r.Once members) :
    (r.setters members).Perm (r.inOrder (members.lookup ·)) := by
  have hsetters : (r.setters members).Nodup := by
    have hnames : ((r.setters members).map (·.1.name)).Nodup := map_name_setters (r := r) members ▸ once
    exact hnames.of_map _
  have hinOrder : (r.inOrder (members.lookup ·)).Nodup := by
    refine (nodup_fields apart).filterMap fun f g p hf hg => ?_
    obtain ⟨n, -, rfl⟩ := Option.map_eq_some_iff.1 hf
    obtain ⟨n', -, heq⟩ := Option.map_eq_some_iff.1 hg
    exact (Prod.mk.inj heq).1.symm
  -- neither list has an entry twice, so it is enough that they have the same entries
  refine (List.perm_ext_iff_of_nodup hsetters hinOrder).2 fun p => ?_
  rw [mem_setters apart, mem_inOrder]
  refine and_congr_right fun hp => ?_
  exact (lookup_member_iff once (List.mem_map_of_mem hp)).symm

theorem foldl_setters (apart : r.Apart) {members : List (String × Node)} (once : r.Once members) :
    (r.setters members).foldl (fun s p => p.1.apply p.2 s) r.start = r.result (members.lookup ·) := by
  rw [result_eq]
  refine (setters_perm apart once).foldl_eq' (fun p hp q hq s => ?_) r.start
  rw [mem_setters apart] at hp hq
  -- two entries of one field are the same entry; those of different fields may change places
  by_cases hfield : p.1 = q.1
  · have hp' := (lookup_member_iff once (List.mem_map_of_mem hp.1)).2 hp.2
    have hq' := (lookup_member_iff once (List.mem_map_of_mem hq.1)).2 hq.2
    rw [hfield] at hp'
    have hpq : p = q := Prod.ext hfield (Option.some.inj (hp'.symm.trans hq'))
    rw [hpq]
  · exact (apart.forall hp.1 hq.1 hfield).comm _ _ _ |>.symm

/-- An object is read as the record of the values that its members give, in whatever order they stand and whatever
other members it has. -/
theorem shape_object (apart : r.Apart) {ms : List (Quoted × Node)} {members : List (String × Node)}
    (named : Named ms members) (once : r.Once members) (fits : r.Fits (members.lookup ·))
    (passed : ∀ m ∈ members, m.1 ∉ r.names → m.2.skim = none) :
    r.shape (.object ms .closed) = .ok (r.result (members.lookup ·)) := by
  have hshaped : ∀ p ∈ r.setters members, ∃ set, p.1.set p.2 = .ok set := by
    intro p hp
    obtain ⟨hf, hm⟩ := (mem_setters apart).1 hp
    exact fits.shaped p.1 hf p.2 ((lookup_member_iff once (List.mem_map_of_mem hf)).2 hm)
  have hmissing : r.missing? (((r.known members).map (·.1)).reverse ++ []) = none := by
    rw [missing?, Option.map_eq_none_iff, List.find?_eq_none]
    intro f hf
    by_cases hrequired : f.required = true
    · obtain ⟨n, hn⟩ := Option.isSome_iff_exists.1 (fits.required f hf hrequired)
      have hname : f.name ∈ r.names := List.mem_map_of_mem hf
      have hmem := (lookup_member_iff once hname).1 hn
      have hknown : f.name ∈ (r.known members).map (·.1) :=
        List.mem_map.2 ⟨(f.name, n), List.mem_filter.2 ⟨hmem, by simpa using hname⟩, rfl⟩
      simp [hknown]
    · simp [hrequired]
  rw [shape, ofMembers_eq named once (by simp) hshaped passed, ok_bind]
  simp only [Ending.fault, hmissing, foldl_setters apart once]
  rfl

theorem ofItems_nil {fs : List (Field σ)} (h : ∀ f ∈ fs, f.required = false) (i : Nat) (s : σ) :
    r.ofItems none fs i s [] = .ok s := by
  induction fs generalizing i with
  | nil => rfl
  | cons f fs ih =>
    obtain ⟨hf, hfs⟩ := List.forall_mem_cons.1 h
    simp [ofItems, hf, ih hfs]

theorem ofItems_eq {fs : List (Field σ)} {items : List Node} (hlength : items.length ≤ fs.length)
    (required : ∀ f ∈ fs.drop items.length, f.required = false)
    (shaped : ∀ p ∈ fs.zip items, ∃ set, p.1.set p.2 = .ok set) (i : Nat) (s : σ) :
    r.ofItems none fs i s items = .ok ((fs.zip items).foldl (fun s p => p.1.apply p.2 s) s) := by
  induction items generalizing fs i s with
  | nil => simpa using ofItems_nil required i s
  | cons n items ih =>
    cases fs with
    | nil => simp at hlength
    | cons f fs =>
      obtain ⟨⟨set, hset⟩, shaped⟩ := List.forall_mem_cons.1 shaped
      have hset : f.set n = .ok set := hset
      have happly : f.apply n s = set s := by rw [Field.apply, hset]
      rw [ofItems, hset, ok_bind, ih (by simpa using hlength) (by simpa using required) shaped, List.zip_cons_cons,
        List.foldl_cons, happly]

/-- The items of an array as the members of an object. -/
def labelled (r : Fields σ) (items : List Node) : List (String × Node) := r.names.zip items

theorem map_fst_zip_eq_take {α β : Type} (xs : List α) (ys : List β) :
    (xs.zip ys).map (·.1) = xs.take ys.length := by
  induction xs generalizing ys with
  | nil => simp
  | cons x xs ih => cases ys <;> simp [ih]

theorem setters_labelled (apart : r.Apart) (items : List Node) :
    r.setters (r.labelled items) = r.fields.zip items := by
  have hfind {p : Field σ × Node} (hp : p ∈ r.fields.zip items) :
      (r.fields.find? (·.name == p.1.name)).map (·, p.2) = some p := by
    have hmem : p.1 ∈ r.fields := (List.of_mem_zip hp).1
    obtain ⟨f, hf, hfind, hname⟩ := exists_find? (List.mem_map_of_mem hmem : p.1.name ∈ r.names)
    rw [hfind, eq_of_name apart hf hmem hname]
    rfl
  rw [setters, labelled, names, List.zip_map_left, List.filterMap_map]
  refine (List.filterMap_congr fun p hp => ?_).trans (List.filterMap_some)
  exact hfind hp

theorem once_labelled (apart : r.Apart) (items : List Node) : r.Once (r.labelled items) := by
  have hnames : r.names.Nodup := List.pairwise_map.2 (apart.imp Field.Apart.name)
  have hall : ((r.labelled items).map (·.1)).Nodup := by
    rw [labelled, map_fst_zip_eq_take]
    exact hnames.sublist (List.take_sublist _ _)
  exact hall.sublist (List.filter_sublist.map _)

/-- An array is read as the object that gives its items to as many fields from the first. -/
theorem shape_array (apart : r.Apart) {items : List Node} (hlength : items.length ≤ r.fields.length)
    (fits : r.Fits ((r.labelled items).lookup ·)) :
    r.shape (.array items none) = .ok (r.result ((r.labelled items).lookup ·)) := by
  have hgiven {f : Field σ} {n : Node} (hf : f ∈ r.fields) :
      (r.labelled items).lookup f.name = some n ↔ (f, n) ∈ r.fields.zip items := by
    rw [lookup_member_iff (once_labelled apart items) (List.mem_map_of_mem hf), ← setters_labelled apart,
      mem_setters apart]
    exact (and_iff_right hf).symm
  have hshaped : ∀ p ∈ r.fields.zip items, ∃ set, p.1.set p.2 = .ok set := by
    intro p hp
    have hf : p.1 ∈ r.fields := (List.of_mem_zip hp).1
    exact fits.shaped p.1 hf p.2 ((hgiven hf).2 hp)
  have hrequired : ∀ f ∈ r.fields.drop items.length, f.required = false := by
    intro f hdrop
    have hf : f ∈ r.fields := List.mem_of_mem_drop hdrop
    rw [← Bool.not_eq_true]
    intro hreq
    -- a required field is given, so it is one of those that have an item
    obtain ⟨n, hn⟩ := Option.isSome_iff_exists.1 (fits.required f hf hreq)
    have htake : f ∈ r.fields.take items.length := by
      rw [← map_fst_zip_eq_take]
      exact List.mem_map_of_mem ((hgiven hf).1 hn)
    exact List.disjoint_take_drop (nodup_fields apart) (Nat.le_refl _) htake hdrop
  rw [shape, ofItems_eq hlength hrequired hshaped, ← setters_labelled apart,
    foldl_setters apart (once_labelled apart items)]

/-- What a value says of a record: the members of an object, or the items of an array for as many fields from the
first. -/
inductive Gives (r : Fields σ) : Node → List (String × Node) → Prop
  | object {ms : List (Quoted × Node)} {members : List (String × Node)} : Named ms members →
      r.Gives (.object ms .closed) members
  | array {items : List Node} : items.length ≤ r.fields.length → r.Gives (.array items none) (r.labelled items)

/-- A value that gives a record: no field twice, every required one, and each by a value of its shape. -/
structure Sets (r : Fields σ) (n : Node) (given : List (String × Node)) : Prop where
  gives : r.Gives n given
  once : r.Once given
  fits : r.Fits (given.lookup ·)

variable {n n' : Node} {given given' : List (String × Node)}

theorem Gives.skim (h : r.Gives n given) (hskim : n.skim = none) : ∀ m ∈ given, m.2.skim = none := by
  cases h with
  | object named =>
    simp only [Node.skim, Option.or_eq_none_iff] at hskim
    exact skim_named named hskim.1
  | array =>
    simp only [Node.skim, Option.or_eq_none_iff] at hskim
    exact fun m hm => skim_items hskim.1 m.2 (List.of_mem_zip hm).2

theorem shape_of_sets (apart : r.Apart) (h : r.Sets n given) (hskim : n.skim = none) :
    r.shape n = .ok (r.result (given.lookup ·)) := by
  have hpassed := h.gives.skim hskim
  obtain ⟨hgives, once, fits⟩ := h
  cases hgives with
  | object named => exact shape_object apart named once fits fun m hm _ => hpassed m hm
  | array hlength => exact shape_array apart hlength fits

theorem Gives.skim_lookup (h : r.Gives n given) (hskim : n.skim = none) {name : String} {v : Node}
    (hv : given.lookup name = some v) : v.skim = none := by
  obtain ⟨before, after, rfl, -⟩ := List.lookup_eq_some_iff.1 hv
  exact h.skim hskim (name, v) (by simp)

/-- A value denotes a record if it gives no field twice and what it gives agrees with the record. -/
def Denotes (r : Fields σ) (agrees : (String → Option Node) → σ → Prop) (n : Node) (s : σ) : Prop :=
  ∃ given, r.Gives n given ∧ r.Once given ∧ agrees (given.lookup ·) s

theorem reads_record (apart : r.Apart) {agrees : (String → Option Node) → σ → Prop}
    (hpasses : ∀ given s, (∀ name n, given name = some n → n.skim = none) → agrees given s →
      Passes given r.fields r.start s) : r.shape.Reads (r.Denotes agrees) := by
  rintro n s hskim ⟨given, hgives, once, hagrees⟩
  have hlookup : ∀ name n, given.lookup name = some n → n.skim = none := fun _ _ => hgives.skim_lookup hskim
  obtain ⟨fits, hresult⟩ := fits_of_passes (hpasses _ s hlookup hagrees)
  rw [shape_of_sets apart ⟨hgives, once, fits⟩ hskim, hresult]

/-- The same fields given in another order, among other members or in the other form, each by a value that says the
same as before. -/
inductive Alike (r : Fields σ) (same : String → Node → Node → Prop) : Node → Node → Prop
  | refl (n : Node) : r.Alike same n n
  | fields {n n' : Node} {given given' between : List (String × Node)} : r.Sets n given → r.Gives n' given' →
      List.Forall₂ (fun m m' => m.1 = m'.1 ∧ same m.1 m.2 m'.2) (r.known given) between →
      between.Perm (r.known given') → r.Alike same n n'

section

variable {same : String → Node → Node → Prop}

theorem map_name_alike (h : List.Forall₂ (fun m m' => m.1 = m'.1 ∧ same m.1 m.2 m'.2) given given') :
    given.map (·.1) = given'.map (·.1) := by
  induction h with
  | nil => rfl
  | cons hm _ ih => rw [List.map_cons, List.map_cons, hm.1, ih]

theorem lookup_alike {f : Field σ} (respects : f.Respects same)
    (h : List.Forall₂ (fun m m' => m.1 = m'.1 ∧ same m.1 m.2 m'.2) given given')
    (hskim : ∀ m ∈ given, m.2.skim = none) (hskim' : ∀ m ∈ given', m.2.skim = none) :
    (given.lookup f.name).map f.set = (given'.lookup f.name).map f.set := by
  induction h with
  | nil => rfl
  | @cons m m' given given' hm _ ih =>
    obtain ⟨hm₁, hrest₁⟩ := List.forall_mem_cons.1 hskim
    obtain ⟨hm₂, hrest₂⟩ := List.forall_mem_cons.1 hskim'
    rw [List.lookup_cons, List.lookup_cons, ← hm.1]
    by_cases hname : f.name = m.1
    · have hset : f.set m.2 = f.set m'.2 := respects _ _ (hname ▸ hm.2) hm₁ hm₂
      simp [hname, hset]
    · have hne : (f.name == m.1) = false := by simpa using hname
      simp only [hne]
      exact ih hrest₁ hrest₂

/-- Values that say the same are read as the same record. -/
theorem shape_alike (apart : r.Apart) (respects : ∀ f ∈ r.fields, f.Respects same) (h : r.Alike same n n')
    (hskim : n.skim = none) (hskim' : n'.skim = none) : r.shape n = r.shape n' := by
  cases h with
  | refl => rfl
  | @fields _ given given' between hsets hgives hsame hperm =>
    have hbetween : (between.map (·.1)).Nodup := map_name_alike hsame ▸ hsets.once
    have hpassed : ∀ m ∈ r.known given, m.2.skim = none :=
      fun m hm => hsets.gives.skim hskim m (mem_known_iff.1 hm).1
    have hpassed' : ∀ m ∈ between, m.2.skim = none :=
      fun m hm => hgives.skim hskim' m (mem_known_iff.1 (hperm.mem_iff.1 hm)).1
    have hlookup : ∀ f ∈ r.fields, (given.lookup f.name).map f.set = (given'.lookup f.name).map f.set := by
      intro f hf
      have hname : f.name ∈ r.names := List.mem_map_of_mem hf
      rw [← lookup_known hname given, ← lookup_known hname given', ← lookup_perm hbetween hperm]
      exact lookup_alike (respects f hf) hsame hpassed hpassed'
    have hsets' : r.Sets n' given' :=
      ⟨hgives, (hperm.map _).nodup_iff.1 hbetween, hsets.fits.congr hlookup⟩
    have hresult : r.result (given.lookup ·) = r.result (given'.lookup ·) := result_congr hlookup
    rw [shape_of_sets apart hsets hskim, shape_of_sets apart hsets' hskim', hresult]

end

end Fields

/-- Two arrays whose items are related one by one. -/
inductive Itemwise (related : Node → Node → Prop) : Node → Node → Prop
  | array {ns ns' : List Node} : List.Forall₂ related ns ns' → Itemwise related (.array ns none) (.array ns' none)

theorem list_itemwise {α : Type} {shape : Shape α} {related : Node → Node → Prop} {n n' : Node}
    (h : Itemwise related n n') (hskim : n.skim = none) (hskim' : n'.skim = none)
    (hshape : ∀ v v', related v v' → v.skim = none → v'.skim = none → shape v = shape v') :
    list shape n = list shape n' := by
  obtain ⟨hitems⟩ := h
  simp only [Node.skim, Option.or_eq_none_iff] at hskim hskim'
  replace hskim := skim_items hskim.1
  replace hskim' := skim_items hskim'.1
  rw [list, list]
  induction hitems with
  | nil => rfl
  | cons hv _ ih =>
    obtain ⟨hv₁, hrest₁⟩ := List.forall_mem_cons.1 hskim
    obtain ⟨hv₂, hrest₂⟩ := List.forall_mem_cons.1 hskim'
    rw [items, items, hshape _ _ hv hv₁ hv₂, ih hrest₁ hrest₂]

end LoadSweep.Json
