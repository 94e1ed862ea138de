import Coursework.Json.Codec

/-!
# Records

A record is written as an object of its fields.  It is read from an object with its fields in any order among
others that are ignored, or from an array of its fields in their own order.
-/

namespace Coursework.Json

/-- The fields of a record.  A field without a fallback must be there; one that is not shown is left out when
written. -/
inductive Fields : Type → Type 1
  | nil : Fields Unit
  | field {α β : Type} (name : String) (codec : Codec α) (fallback : Option α) (shown : α → Bool)
      (rest : Fields β) : Fields (α × β)

namespace Fields

/-- A field that must be there. -/
def required {α β : Type} (name : String) (codec : Codec α) (rest : Fields β) : Fields (α × β) :=
  field name codec none (fun _ => true) rest

/-- A field that may be missing. -/
def withDefault {α β : Type} (name : String) (codec : Codec α) (fallback : α) (rest : Fields β) : Fields (α × β) :=
  field name codec (some fallback) (fun _ => true) rest

/-- A field that may be missing or null. -/
def optional {α β : Type} (name : String) (codec : Codec α) (rest : Fields β) : Fields (Option α × β) :=
  field name codec.optional (some none) (fun _ => true) rest

/-- A field that is left out where it has no value. -/
def omissible {α β : Type} (name : String) (codec : Codec α) (rest : Fields β) : Fields (Option α × β) :=
  field name codec.optional (some none) Option.isSome rest

def names : {α : Type} → Fields α → List String
  | _, nil => []
  | _, field name _ _ _ rest => name :: rest.names

def size {α : Type} (fs : Fields α) : Nat := fs.names.length

def defectOf {α : Type} : Except Defect α → Option Defect
  | .ok _ => none
  | .error d => some d

/-- What is wrong with the value of a named field. -/
def defectIn (name : String) (n : Node) : {α : Type} → Fields α → Option Defect
  | _, nil => none
  | _, field name' c _ _ rest => if name' = name then defectOf (c.decode n) else defectIn name n rest

/-- The first defect among the members of an object, in the order of the text. -/
def memberDefect? {α : Type} (fs : Fields α) : List String → List (StringToken × Node) → Option Defect
  | _, [] => none
  | seen, (k, n) :: ms =>
    match k.text with
    | .error f => some (.fault f)
    | .ok name =>
      if name ∈ fs.names then
        if name ∈ seen then some (.duplicateField name)
        else fs.defectIn name n <|> fs.memberDefect? (name :: seen) ms
      else n.skipFault?.map .fault <|> fs.memberDefect? seen ms

def hasName (name : String) (k : StringToken) : Bool :=
  match k.text with
  | .ok s => s = name
  | .error _ => false

def find? (name : String) (members : List (StringToken × Node)) : Option Node :=
  (members.find? fun (k, _) => hasName name k).map Prod.snd

/-- The fields in their order, each from its member or its fallback. -/
def collect (members : List (StringToken × Node)) : {α : Type} → Fields α → Except Defect α
  | _, nil => .ok ()
  | _, field name c fallback _ rest => do
    let v ← match find? name members, fallback with
      | some n, _ => c.decode n
      | none, some v => .ok v
      | none, none => .error (.missingField name)
    let vs ← rest.collect members
    .ok (v, vs)

def decodeObject {α : Type} (fs : Fields α) (members : List (StringToken × Node)) (stop : ObjectEnd) :
    Except Defect α :=
  match fs.memberDefect? [] members <|> (Node.ObjectEnd.fault? stop).map .fault with
  | some d => .error d
  | none => fs.collect members

/-- The fields from the items of an array, and the items that are left. -/
def takeItems (expected : String) (stop : ListEnd) :
    {α : Type} → Fields α → Nat → List Node → Except Defect (α × List Node)
  | _, nil, _, items => .ok ((), items)
  | _, field _ c _ _ rest, i, n :: items => do
    let v ← c.decode n
    let (vs, left) ← rest.takeItems expected stop (i + 1) items
    .ok ((v, vs), left)
  | _, field _ _ fallback _ rest, i, [] =>
    match Node.ListEnd.fault? stop, fallback with
    | some f, _ => .error (.fault f)
    | none, some v => do
      let (vs, left) ← rest.takeItems expected stop (i + 1) []
      .ok ((v, vs), left)
    | none, none => .error (.invalidLength i expected)

def decodeArray {α : Type} (expected : String) (fs : Fields α) (items : List Node) (stop : ListEnd) :
    Except Defect α := do
  let (vs, left) ← fs.takeItems expected stop 0 items
  Codec.settle vs (if left = [] then Node.ListEnd.closingFault? stop else some .trailingCharacters)

def encode : {α : Type} → Fields α → α → List (String × Json)
  | _, nil, _ => []
  | _, field name c _ shown rest, (v, vs) =>
    if shown v then (name, c.encode v) :: rest.encode vs else rest.encode vs

/-- How an array of all fields is announced. -/
def countText {α : Type} (name : String) (fs : Fields α) : String :=
  name ++ " with " ++ toString fs.size ++ (if fs.size = 1 then " element" else " elements")

/-- The codec of a record that is made of these fields. -/
def codec {α β : Type} (name : String) (fs : Fields α) (make : α → β) (parts : β → α) : Codec β where
  decode
    | .object members stop => (fs.decodeObject members stop).map make
    | .array items stop => (fs.decodeArray (fs.countText name) items stop).map make
    | n => .error (n.mismatch name)
  encode v := .obj (fs.encode (parts v))

/-- The first defect among members of which only the own one is understood at once; all others are read in
whole and kept. -/
def ownDefect? {γ : Type} (own : String) (c : Codec γ) : Bool → List (StringToken × Node) → Option Defect
  | _, [] => none
  | seen, (k, n) :: ms =>
    match k.text with
    | .error f => some (.fault f)
    | .ok name =>
      if name = own then
        if seen then some (.duplicateField name)
        else defectOf (c.decode n) <|> ownDefect? own c true ms
      else n.wholeFault?.map .fault <|> ownDefect? own c seen ms

/-- The codec of a record that has the fields of another and one of its own after them. -/
def extended {α β γ : Type} (name : String) (fs : Fields α) (own : String) (c : Codec γ) (make : α × γ → β)
    (parts : β → α × γ) : Codec β where
  decode
    | .object members stop =>
      match ownDefect? own c false members <|> (Node.ObjectEnd.fault? stop).map .fault with
      | some d => .error d
      | none => do
        let v ← match find? own members with
          | some n => c.decode n
          | none => .error (.missingField own)
        let vs ← fs.decodeObject (members.filter fun (k, _) => !hasName own k) .closed
        .ok (make (vs, v))
    | n => .error (n.mismatch name)
  encode v := let (vs, w) := parts v; .obj (fs.encode vs ++ [(own, c.encode w)])

end Fields

end Coursework.Json
