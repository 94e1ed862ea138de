import Coursework.Catalog.Request
import Coursework.Catalog.View
import Coursework.Program

/-!
# Chapters

A chapter is added to the course that the caller names, whatever course its body names.  A chapter that still has
lessons is not deleted.
-/

namespace Coursework.Chapters

open Program

def list : Program (List Chapter) := ask .listChapters

def get (id : String) : Program ChapterDetail := do
  let chapter ← ask (.findChapter id)
  let lessons ← ask (.lessonsOf id)
  ok ⟨chapter, lessons⟩

def noParent (courseId : String) : Failure := .parentNotFound (missingRow "Course" courseId)

def add (now : Timestamp) (courseId : String) (r : NewChapter) : Program Chapter := do
  ofExcept r.validate
  let known ← ask (.hasCourse courseId)
  require known (noParent courseId)
  let id ← freshId
  ask (.addChapter ⟨id.text, r.name, r.description, r.order, courseId, now, now⟩)

/-- Any order is accepted, also one that another chapter has. -/
def setOrder (now : Timestamp) (id : String) (order : Int32) : Program Chapter := ask (.orderChapter id order now)

def notEmpty (id : String) (lessons : Nat) : Failure :=
  .conflict ("Chapter '" ++ id ++ "' still has " ++ toString lessons ++ " lesson(s)")

def delete (id : String) : Program Unit := do
  let known ← ask (.hasChapter id)
  require known (Store.noChapter id)
  let lessons : Nat ← ask (.countLessons id)
  require (lessons = 0) (notEmpty id lessons)
  ask (.removeChapter id)

end Coursework.Chapters
