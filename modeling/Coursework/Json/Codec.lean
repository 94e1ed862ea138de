import Coursework.Json.Defect
import Coursework.Json.Value
import Coursework.Timestamp
import Coursework.Uuid

/-!
# Codecs

A codec reads a value of one type from the tree of a JSON text and writes it as a JSON value.
-/

namespace Coursework.Json

structure Codec (α : Type) where
  decode : Node → Except Defect α
  encode : α → Json

namespace Codec

def settle {α : Type} (value : α) : Option Fault → Except Defect α
  | none => .ok value
  | some f => .error (.fault f)

/-- Reads a whole text. -/
def read {α : Type} (c : Codec α) (bs : Bytes) : Except Defect α := do
  let (n, rest) := Node.read bs
  let v ← c.decode n
  settle v (if Node.skipSpace rest = [] then none else some .trailingCharacters)

def write {α : Type} (c : Codec α) (v : α) : Bytes := (c.encode v).render

/-- Reads a string that is then understood in some further way. -/
def decodeString {α : Type} (expected : String) (f : String → Except Defect α) : Node → Except Defect α
  | .string t =>
    match t.text with
    | .ok s => f s
    | .error e => .error (.fault e)
  | n => .error (n.mismatch expected)

def text : Codec String where
  decode := decodeString "a string" .ok
  encode := .str

def timestamp : Codec Timestamp where
  decode := decodeString "an RFC 3339 formatted date and time string" fun s =>
    match Timestamp.parse s with
    | .ok t => .ok t
    | .error e => .error (.refused e.message)
  encode t := .str t.text

def uuid : Codec Uuid where
  decode := decodeString "a formatted UUID string" fun s =>
    match Uuid.parse s with
    | .ok u => .ok u
    | .error e => .error (.refused e.message)
  encode u := .str u.text

/-- Reads an integer between two bounds. -/
def decodeInteger (name : String) (lo hi : Int) : Node → Except Defect Int
  | .number t =>
    match t.value with
    | .error f => .error (.fault f)
    | .ok v =>
      match Found.ofNumber v with
      | .integer n => if lo ≤ n ∧ n ≤ hi then .ok n else .error (.invalidValue (.integer n) name)
      | found => .error (.invalidType found name)
  | n => .error (n.mismatch name)

def int32 : Codec Int32 where
  decode n := (decodeInteger "i32" Int32.minValue.toInt Int32.maxValue.toInt n).map Int32.ofInt
  encode n := .int n.toInt

def int64 : Codec Int64 where
  decode n := (decodeInteger "i64" Int64.minValue.toInt Int64.maxValue.toInt n).map Int64.ofInt
  encode n := .int n.toInt

def uint64 : Codec UInt64 where
  decode n := (decodeInteger "usize" 0 (UInt64.size - 1 : Nat) n).map fun i => UInt64.ofNat i.toNat
  encode n := .int n.toNat

def optional {α : Type} (c : Codec α) : Codec (Option α) where
  decode
    | .null => .ok none
    | n => (c.decode n).map some
  encode
    | none => .null
    | some v => c.encode v

def list {α : Type} (c : Codec α) : Codec (List α) where
  decode
    | .array items stop => do
      let vs ← items.mapM c.decode
      settle vs (Node.ListEnd.fault? stop)
    | n => .error (n.mismatch "a sequence")
  encode vs := .arr (vs.map c.encode)

end Codec

namespace Dictionary

/-- Enters a value under a name, in the place of an earlier one. -/
def put {α : Type} (name : String) (value : α) : List (String × α) → List (String × α)
  | [] => [(name, value)]
  | (k, v) :: rest => if k = name then (name, value) :: rest else (k, v) :: put name value rest

def get? {α : Type} (name : String) (d : List (String × α)) : Option α :=
  (d.find? fun (k, _) => k = name).map Prod.snd

end Dictionary

namespace Codec

def decodeMember {α : Type} (c : Codec α) (member : StringToken × Node) : Except Defect (String × α) :=
  match member.1.text with
  | .error f => .error (.fault f)
  | .ok name => (c.decode member.2).map fun v => (name, v)

/-- An object with any names; the last value of a repeated name counts. -/
def dictionary {α : Type} (c : Codec α) : Codec (List (String × α)) where
  decode
    | .object members stop => do
      let entries ← members.mapM c.decodeMember
      settle (entries.foldl (fun d (k, v) => Dictionary.put k v d) []) (Node.ObjectEnd.fault? stop)
    | n => .error (n.mismatch "a map")
  encode d := .obj (d.map fun (k, v) => (k, c.encode v))

end Codec

end Coursework.Json
