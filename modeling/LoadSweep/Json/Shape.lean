import LoadSweep.Json.Mismatch
import LoadSweep.Json.Node

/-! A shape turns a value into data of the program. Of several problems the one furthest to the left is reported. -/
namespace LoadSweep.Json

abbrev Shape (α : Type) := Node → Except Refusal α

def refuse {α : Type} (f : Fault) : Except Refusal α := .error (.fault f)

def mismatch {α : Type} (m : Mismatch) : Except Refusal α := .error (.mismatch m)

/-- A result of reading a number or a string. -/
def asked {α : Type} : Except Fault α → Except Refusal α
  | .ok a => .ok a
  | .error f => refuse f

/-- Refuses a value of the wrong type. A scalar is asked for first, since it may hold a fault. -/
def wrongType {α : Type} (expected : String) : Head → Except Refusal α
  | .absent => refuse .cutShort
  | .broken _ f => refuse f
  | .null => mismatch (.wrongType .null expected)
  | .bool b => mismatch (.wrongType (.bool b) expected)
  | .number n => do
    match ← asked n.value with
    | .integer i => mismatch (.wrongType (.integer i) expected)
    | .real x => mismatch (.wrongType (.real x) expected)
  | .string q => do mismatch (.wrongType (.text (← asked q.text)) expected)
  | .array => mismatch (.wrongType .array expected)
  | .object => mismatch (.wrongType .object expected)

def real : Shape Float
  | .number n => do
    match ← asked n.value with
    | .integer i => return if i < 0 then -Float.ofNat i.natAbs else Float.ofNat i.natAbs
    | .real x => return x
  | n => wrongType "f64" n.head

/-- A whole number below `bound`. -/
def natural (expected : String) (bound : Nat) : Shape Nat
  | .number n => do
    match ← asked n.value with
    | .integer i =>
      if 0 ≤ i ∧ i < bound then return i.toNat else mismatch (.outOfRange i expected)
    | .real x => mismatch (.wrongType (.real x) expected)
  | n => wrongType expected n.head

def text (expected : String) : Shape String
  | .string q => asked q.text
  | n => wrongType expected n.head

def optional {α : Type} (shape : Shape α) : Shape (Option α)
  | .null none => .ok none
  | .null (some f) => refuse f
  | n => (shape n).map some

def items {α : Type} (shape : Shape α) (cut : Option Fault) : List Node → Except Refusal (List α)
  | [] => match cut with
    | none => .ok []
    | some f => refuse f
  | n :: ns => do
    let a ← shape n
    return a :: (← items shape cut ns)

def list {α : Type} (shape : Shape α) : Shape (List α)
  | .array ns cut => items shape cut ns
  | n => wrongType "a sequence" n.head

/-- A field of a record of type `σ`: how a value of it changes the record. -/
structure Field (σ : Type) where
  name : String
  required : Bool
  set : Shape (σ → σ)

/-- A field that a shape reads and `put` stores. -/
def field {σ α : Type} (name : String) (required : Bool) (shape : Shape α) (put : α → σ → σ) : Field σ :=
  ⟨name, required, fun n => (shape n).map put⟩

/-- Records are objects of named fields, or arrays of the fields in their order. -/
structure Fields (σ : Type) where
  title : String
  fields : List (Field σ)
  start : σ

namespace Fields

variable {σ : Type}

/-- What an array for the record should be. -/
def elements (r : Fields σ) : String :=
  let noun := if r.fields.length = 1 then "element" else "elements"
  s!"{r.title} with {r.fields.length} {noun}"

/-- Sets fields from the items of an array. Items beyond the last field are no part of the record. -/
def ofItems (r : Fields σ) (cut : Option Fault) :
    List (Field σ) → (index : Nat) → σ → List Node → Except Refusal σ
  | [], _, s, [] => match cut with
    | none => .ok s
    | some f => refuse f
  | [], _, _, _ :: _ => refuse .malformed
  | f :: fs, i, s, [] => match cut with
    | some fault => refuse fault
    | none => if f.required then mismatch (.wrongLength i r.elements) else ofItems r cut fs (i + 1) s []
  | f :: fs, i, s, n :: ns => do
    let set ← f.set n
    ofItems r cut fs (i + 1) (set s) ns

/-- Sets fields from the members of an object, each field once. Members that are no field are passed over. -/
def ofMembers (r : Fields σ) :
    (seen : List String) → σ → List (Quoted × Node) → Except Refusal (List String × σ)
  | seen, s, [] => .ok (seen, s)
  | seen, s, (key, n) :: ms => do
    let name ← asked key.text
    match r.fields.find? (·.name == name) with
    | none => match n.skim with
      | some f => refuse f
      | none => ofMembers r seen s ms
    | some f =>
      if seen.contains name then mismatch (.duplicateField name)
      else
        let set ← f.set n
        ofMembers r (name :: seen) (set s) ms

/-- The first required field that was not set. -/
def missing? (r : Fields σ) (seen : List String) : Option String :=
  (r.fields.find? fun f => f.required && !seen.contains f.name).map (·.name)

def shape (r : Fields σ) : Shape σ
  | .array ns cut => r.ofItems cut r.fields 0 r.start ns
  | .object ms ending => do
    let (seen, s) ← r.ofMembers [] r.start ms
    match ending.fault with
    | some f => refuse f
    | none => match r.missing? seen with
      | some name => mismatch (.missingField name)
      | none => return s
  | n => wrongType r.title n.head

end Fields

/-- What a case holds: nothing, or the fields of a record. -/
inductive Case (α : Type) where
  | bare (a : α)
  | fields (r : Fields α)

/-- The value of a bare case, written out. -/
def nothing : Shape Unit
  | .null none => .ok ()
  | n => wrongType "unit" n.head

def Case.shape {α : Type} : Case α → Shape α
  | bare a => fun n => (nothing n).map fun _ => a
  | fields r => r.shape

def findCase {α : Type} (cases : List (String × Case α)) (name : String) : Except Refusal (Case α) :=
  match cases.find? (·.1 == name) with
  | some c => .ok c.2
  | none => mismatch (.unknownCase name (cases.map (·.1)))

/-- One of several cases: the name of a bare one, or an object whose only member names it. -/
def oneOf {α : Type} (cases : List (String × Case α)) : Shape α
  | .string q => do
    match ← findCase cases (← asked q.text) with
    | .bare a => return a
    | .fields _ => mismatch (.wrongType .bareCase "struct variant")
  | .object [] (.noKey f) => refuse f
  | .object ((key, n) :: ms) ending => do
    let c ← findCase cases (← asked key.text)
    let a ← c.shape n
    match ms, ending with
    | [], .closed => return a
    | [], .cut f => refuse f
    | _, _ => refuse .malformed
  | .absent => refuse .cutShort
  | _ => refuse .malformed

def Document.get {α : Type} (d : Document) (shape : Shape α) : Except Refusal α := do
  let a ← shape d.root
  if d.trailing then refuse .malformed else return a

end LoadSweep.Json
