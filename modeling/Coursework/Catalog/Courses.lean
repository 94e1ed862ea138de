import Coursework.Catalog.Request
import Coursework.Catalog.View
import Coursework.Program

/-!
# Courses

Listing, showing, creating, changing and deleting courses.  A course that still has chapters is not deleted.
-/

namespace Coursework.Courses

open Program

def list : Program (List Course) := ask .listCourses

/-- Each chapter with its lessons. -/
def details : List Chapter → Program (List ChapterDetail)
  | [] => ok []
  | c :: cs => do
    let lessons ← ask (.lessonsOf c.id)
    let rest ← details cs
    ok (⟨c, lessons⟩ :: rest)

def get (id : String) : Program CourseDetail := do
  let course ← ask (.findCourse id)
  let chapters ← ask (.chaptersOf id)
  let shown ← details chapters
  ok ⟨course, shown⟩

def create (now : Timestamp) (r : NewCourse) : Program Course := do
  ofExcept r.validate
  let id ← freshId
  ask (.addCourse ⟨id.text, r.name, r.description, now, now⟩)

def mismatch (bodyId id : String) : Failure :=
  .invalidInput ("Body id '" ++ bodyId ++ "' does not match path id '" ++ id ++ "'")

def update (now : Timestamp) (id : String) (r : CourseUpdate) : Program Course := do
  ofExcept r.validate
  if let some bodyId := r.id then
    require (bodyId = id) (mismatch bodyId id)
  let course ← ask (.findCourse id)
  ask (.replaceCourse { course with name := r.name, description := r.description, updatedAt := now })

def notEmpty (id : String) (chapters : Nat) : Failure :=
  .conflict ("Course '" ++ id ++ "' still has " ++ toString chapters ++ " chapter(s)")

def delete (id : String) : Program Unit := do
  let known ← ask (.hasCourse id)
  require known (Store.noCourse id)
  let chapters : Nat ← ask (.countChapters id)
  require (chapters = 0) (notEmpty id chapters)
  ask (.removeCourse id)

end Coursework.Courses
