import Coursework.Catalog.Request
import Coursework.Program

/-!
# Lessons

A lesson is added to the chapter that the caller names.  Reordering gives every listed lesson of the chapter its
place in the list, one write after the other; other lessons keep their order.  A lesson that still has attachments
is not deleted.
-/

namespace Coursework.Lessons

open Program

def list : Program (List Lesson) := ask .listLessons

def get (id : String) : Program Lesson := ask (.findLesson id)

def noParent (chapterId : String) : Failure := .parentNotFound (missingRow "Chapter" chapterId)

def add (now : Timestamp) (chapterId : String) (r : NewLesson) : Program Lesson := do
  ofExcept r.validate
  let known ← ask (.hasChapter chapterId)
  require known (noParent chapterId)
  let id ← freshId
  ask (.addLesson ⟨id.text, r.name, r.description, r.content, r.order, chapterId, now, now⟩)

def setContent (now : Timestamp) (id content : String) : Program Lesson := ask (.fillLesson id content now)

def tooMany : Failure := .invalidInput "Too many lesson ids"

/-- Writes the places of the listed lessons from the given place on, skipping those not of the chapter. -/
def place (now : Timestamp) (known : List String) : Nat → List String → Program Unit
  | _, [] => ok ()
  | n, id :: ids =>
    if id ∈ known then
      if n < 0x80000000 then do
        ask (.orderLesson id (Int32.ofNat n) now)
        place now known (n + 1) ids
      else fail tooMany
    else place now known (n + 1) ids

def reorder (now : Timestamp) (chapterId : String) (ids : List String) : Program Unit := do
  let lessons ← ask (.lessonsOf chapterId)
  place now (lessons.map Lesson.id) 1 ids

def notEmpty (id : String) (attachments : Nat) : Failure :=
  .conflict ("Lesson '" ++ id ++ "' still has " ++ toString attachments ++ " attachment(s)")

def delete (id : String) : Program Unit := do
  let known ← ask (.hasLesson id)
  require known (Store.noLesson id)
  let attachments : Nat ← ask (.countAttachments id)
  require (attachments = 0) (notEmpty id attachments)
  ask (.removeLesson id)

end Coursework.Lessons
