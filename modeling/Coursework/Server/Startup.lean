import Coursework.Settings
import Coursework.Store.Fault

/-!
# Starting up

Before it serves, the server finds its database, pings it, and creates the indexes of every table in turn.  The first
command that fails ends the attempt and leaves the indexes that were created before it.
-/

namespace Coursework

structure Index where
  name : String
  keys : List String
  isUnique : Bool
  deriving DecidableEq, Repr

namespace Index

def unique (name : String) (keys : List String) : Index := ⟨name, keys, true⟩

def plain (name : String) (keys : List String) : Index := ⟨name, keys, false⟩

/-- The indexes of every table, in the order in which they are created. -/
def all : List (Resource × Index) := [
  (.courses, unique "id_unique" ["id"]),
  (.chapters, unique "id_unique" ["id"]),
  (.chapters, plain "course_order" ["course_id", "order"]),
  (.lessons, unique "id_unique" ["id"]),
  (.lessons, plain "chapter_order" ["chapter_id", "order"]),
  (.attachments, unique "id_unique" ["id"]),
  (.attachments, unique "storage_key_unique" ["storage_key"]),
  (.attachments, plain "lesson_id" ["lesson_id"]),
  (.grants, unique "user_lesson_unique" ["user_id", "lesson_id"]),
  (.grants, plain "lesson_id" ["lesson_id"])]

end Index

namespace Startup

def addressHeading : List Char := "mongodb://".toList

def isHostChar (c : Char) : Bool := c.isAlphanum || c = '-' || c = '.'

/-- Whether a text is the number of a socket, from 1 to 65535. -/
def isSocket (cs : List Char) : Bool := (Text.numeral? 65536 (String.ofList cs)).any (1 ≤ ·)

/-- Whether a text is an address of the plain sort: the heading, a host, and possibly a socket's number. -/
def isAddress (url : String) : Bool :=
  let cs := url.toList
  let rest := cs.drop addressHeading.length
  addressHeading.isPrefixOf cs && rest.takeWhile isHostChar ≠ [] &&
    match rest.dropWhile isHostChar with
    | [] => true
    | ':' :: number => isSocket number
    | _ => false

/-- Creates indexes, unless a command fails. -/
def create (fault : Option CommandFault) : List (Resource × Index) → Except Failure Unit × List (Resource × Index)
  | [] => (.ok (), [])
  | (t, i) :: rest =>
    match fault.filter fun f => f.hits ⟨.index, t⟩ with
    | some f => (.error f.error.failure, [])
    | none => let (r, made) := create fault rest; (r, (t, i) :: made)

/-- Starts up against a database in which the first command that a fault hits will fail. -/
def run (s : Settings) (fault : Option CommandFault) : Except Failure Unit × List (Resource × Index) :=
  if !isAddress s.databaseUrl then (.error (.database "invalid connection string"), [])
  else match fault.filter fun f => f.hits ⟨.ping, .server⟩ with
    | some f => (.error f.error.failure, [])
    | none => create fault Index.all

end Startup

end Coursework
