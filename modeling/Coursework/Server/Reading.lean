import Coursework.Catalog.Request
import Coursework.Http.Form
import Coursework.Server.Upload

/-!
# Reading requests

What an endpoint takes from a request: an identifier from its path, one from its query, a record from its body, or an
upload.
-/

namespace Coursework

/-- Why a request is turned down: for a failure, or for a body that is no form in parts. -/
inductive Refusal
  | failure (f : Failure)
  | noForm (f : Upload.TypeFault)
  deriving DecidableEq, Repr

instance : MonadLift (Except Failure) (Except Refusal) := ⟨fun x => x.mapError .failure⟩

namespace Request

def badPath (reason : String) : Failure :=
  .invalidInput ("Invalid path parameter: Path deserialize error: " ++ reason)

def badQuery (reason : String) : Failure :=
  .invalidInput ("Invalid query parameter: Query deserialize error: " ++ reason)

def badBody (reason : String) : Failure := .invalidInput ("Invalid JSON body: " ++ reason)

def badForm (reason : String) : Failure := .invalidInput ("Invalid multipart body: " ++ reason)

/-- The identifier that a segment of the path spells. -/
def pathId (segment : String) : Except Failure Uuid :=
  (Uuid.parse (Target.unescape segment)).mapError fun e => badPath e.message

/-- The identifier under a name among the fields of a query, which must have it once. -/
def queryField (name : String) : Option Uuid → List (String × String) → Except Json.Defect Uuid
  | none, [] => .error (.missingField name)
  | some id, [] => .ok id
  | found, (k, v) :: fields =>
    if k = name then
      match found, Uuid.parse v with
      | some _, _ => .error (.duplicateField name)
      | none, .ok id => queryField name (some id) fields
      | none, .error e => .error (.refused e.message)
    else queryField name found fields

def queryId (r : Request) (name : String) : Except Failure Uuid :=
  (queryField name none (Form.read r.target.query)).mapError fun d => badQuery d.message

def mostJsonBytes : Nat := 2 * 1024 * 1024

def tooLarge (n : Nat) : String :=
  "JSON payload (" ++ toString n ++ " bytes) is larger than allowed (limit: " ++ toString mostJsonBytes ++ " bytes)."

/-- Whether the body is announced as JSON. -/
def isJson (r : Request) : Bool := ((r.header? "content-type").bind Header.mediaType?).any fun m => m.isKind "json"

/-- The record in the body.  The body is what the client encoded: whatever the request's content encoding did to it has
been undone. -/
def jsonBody {α : Type} (r : Request) (codec : Json.Codec α) : Except Failure α :=
  if !r.isJson then .error (badBody "Content type error")
  else if mostJsonBytes < r.body.length then .error (badBody (tooLarge r.body.length))
  else (codec.read r.body).mapError fun d => badBody ("Json deserialize error: " ++ d.message)

/-- The upload in the body. -/
def upload (r : Request) (limit : Nat) : Except Refusal Upload := do
  let boundary ← (Upload.boundary r).mapError .noForm
  (Upload.ofParts limit (Multipart.parts boundary r.body)).mapError fun d => .failure (badForm d.message)

end Request

end Coursework
