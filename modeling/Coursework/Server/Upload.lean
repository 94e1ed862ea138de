import Coursework.Failure
import Coursework.Http.Message
import Coursework.Http.Multipart
import Coursework.Uuid

/-!
# Uploads

An upload is a form in parts with the identifier of a lesson and a file.  The first part of either name counts, and
all others are passed over.
-/

namespace Coursework

structure Upload where
  lesson : Uuid
  fileName : String
  bytes : Bytes
  deriving DecidableEq

namespace Upload

/-- Why a form is not read at all. -/
inductive TypeFault
  | missing
  | unreadable
  | incompatible
  | boundary
  deriving DecidableEq, Repr

def TypeFault.message : TypeFault → String
  | missing => "Could not find Content-Type header"
  | unreadable => "Could not parse Content-Type header"
  | incompatible => "ContentTypeIncompatible"
  | boundary => Multipart.Fault.boundary.message

def TypeFault.status : TypeFault → Nat
  | incompatible => 415
  | _ => 400

/-- Why a form is no upload. -/
inductive Defect
  | fault (f : Multipart.Fault)
  | field (name : String)
  | missing (name : String)
  deriving DecidableEq, Repr

def Defect.message : Defect → String
  | fault f => f.message
  | field name => "An error occurred processing field: " ++ name
  | missing name => "Required field is missing: " ++ name

def lessonField : String := "lesson_id"
def fileField : String := "file"

/-- The boundary that a request announces. -/
def boundary (r : Request) : Except TypeFault Bytes := do
  let some value := r.header? "content-type" | throw .missing
  let some m := Header.mediaType? value | throw .unreadable
  if m.top ≠ "multipart" then throw .incompatible
  let some b := m.parameter? "boundary" | throw .boundary
  if m.sub ≠ "form-data" then throw .incompatible
  return Bytes.ofText b

/-- What was gathered from the parts so far, and how many more bytes may be. -/
structure Draft where
  lesson : Option Uuid
  file : Option (String × Bytes)
  budget : Nat
  deriving DecidableEq

/-- Takes the content of a part on the budget. -/
def Draft.spend (d : Draft) (p : Multipart.Part) : Except Defect Draft :=
  if d.budget < p.content.length then .error (.fault .size)
  else if p.isWhole then .ok { d with budget := d.budget - p.content.length }
  else .error (.fault .incomplete)

/-- A lesson's identifier is plain text, or of no declared type. -/
def Draft.takeLesson (d : Draft) (p : Multipart.Part) : Except Defect Draft := do
  if p.mediaType.any fun m => !m.isKind "plain" then throw (.field lessonField)
  let d ← d.spend p
  match p.content.text?.map Uuid.parse with
  | some (.ok id) => return { d with lesson := some id }
  | _ => throw (.field lessonField)

def Draft.takeFile (d : Draft) (p : Multipart.Part) : Except Defect Draft := do
  let d ← d.spend p
  return { d with file := some (p.fileName.getD "", p.content) }

def Draft.take (d : Draft) (p : Multipart.Part) : Except Defect Draft :=
  if p.name = lessonField ∧ d.lesson.isNone then d.takeLesson p
  else if p.name = fileField ∧ d.file.isNone then d.takeFile p
  else .ok d

def Draft.finish (d : Draft) : Except Defect Upload :=
  match d.lesson, d.file with
  | none, _ => .error (.missing lessonField)
  | _, none => .error (.missing fileField)
  | some lesson, some (fileName, bytes) => .ok { lesson, fileName, bytes }

/-- The upload made of these parts, of which at most `limit` bytes are taken. -/
def ofParts (limit : Nat) (parts : Multipart.Parts) : Except Defect Upload := do
  let d ← parts.parts.foldlM Draft.take { lesson := none, file := none, budget := limit }
  match parts.fault with
  | some f => throw (.fault f)
  | none => d.finish

end Upload

end Coursework
