import Coursework.Http.Header
import Coursework.Http.Target
import Coursework.Json.Value
import Coursework.Uuid

/-!
# Requests and answers

A request asks for a target by a method, with headers and a body; an answer has a status and at most one body.
-/

namespace Coursework

structure Request where
  method : String
  target : Target
  headers : List Header
  body : Bytes
  deriving DecidableEq, Repr, Inhabited

namespace Request

def header? (r : Request) (name : String) : Option Bytes := Header.find? name r.headers

end Request

inductive Body
  | empty
  | json (v : Json)
  | octets (bs : Bytes)
  | text (s : String)
  deriving Inhabited

/-- The media type under which a body is sent. -/
def Body.mediaType? : Body → Option String
  | empty => none
  | json _ => some "application/json"
  | octets _ => some "application/octet-stream"
  | text _ => some "text/plain; charset=utf-8"

structure Response where
  status : Nat
  disposition : Option String
  body : Body
  /-- The identifier of the request that is answered, where requests have one. -/
  requestId : Option Uuid
  deriving Inhabited

namespace Response

def bare (status : Nat) : Response := ⟨status, none, .empty, none⟩

def json (status : Nat) (v : Json) : Response := ⟨status, none, .json v, none⟩

def text (status : Nat) (s : String) : Response := ⟨status, none, .text s, none⟩

/-- A file to be saved under a name. -/
def file (disposition : String) (bs : Bytes) : Response := ⟨200, some disposition, .octets bs, none⟩

end Response

end Coursework
