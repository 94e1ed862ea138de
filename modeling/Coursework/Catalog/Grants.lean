import Coursework.Catalog.Row
import Coursework.Program
import Coursework.Text.Blank

/-!
# Grants

A grant is looked for and then added, in two steps of one command; a user who has it already, or gets it in between,
simply keeps it.
-/

namespace Coursework.Grants

open Program

def noUser : Failure := .invalidInput "user_id must not be empty"

/-- Adds a row unless its pair has one, and answers whether it is new, or how the database refused. -/
def upsert (row : Grant) : Program (Except DatabaseError Bool) := do
  let found ← ask (.seekGrant row.userId row.lessonId)
  match found with
  | .ok false =>
    let added ← ask (.addGrant row)
    ok (added.map fun _ => true)
  | .ok true => ok (.ok false)
  | .error e => ok (.error e)

/-- Refused for a duplicate key, a row has lost to another one of its pair, which is no failure. -/
def settle : Except DatabaseError Bool → Except Failure Bool
  | .ok isNew => .ok isNew
  | .error e => if e.isDuplicateKey then .ok false else .error e.failure

/-- Adds a grant unless there is one, and answers whether it is new. -/
def ensure (now : Timestamp) (user lessonId : String) : Program Bool := do
  let result ← upsert ⟨user, lessonId, now⟩
  ofExcept (settle result)

def grant (now : Timestamp) (rawUser lessonId : String) : Program Bool := do
  let user := Text.trimmed rawUser
  require (user ≠ "") noUser
  let _ ← ask (.findLesson lessonId)
  ensure now user lessonId

def list (lessonId : String) : Program (List Grant) := do
  let known ← ask (.hasLesson lessonId)
  require known (Store.noLesson lessonId)
  ask (.grantsOf lessonId)

end Coursework.Grants
