import Coursework.Role

/-!
# Endpoints

What can be asked of the server, each by one method at one path, and the roles that some of it takes.  An endpoint
keeps the segment of its path that names a row, as it was written.
-/

namespace Coursework

inductive Endpoint
  | health
  | ready
  | login
  | refresh
  | me
  | listCourses
  | createCourse
  | getCourse (id : String)
  | updateCourse (id : String)
  | deleteCourse (id : String)
  | listChapters
  | createChapter
  | reorderLessons (chapter : String)
  | getChapter (id : String)
  | setChapterOrder (id : String)
  | deleteChapter (id : String)
  | listLessons
  | createLesson
  | listAttachments (lesson : String)
  | grantAccess (lesson : String)
  | listAccess (lesson : String)
  | getLesson (id : String)
  | setLessonContent (id : String)
  | deleteLesson (id : String)
  | upload
  | download (id : String)
  | deleteAttachment (id : String)
  deriving DecidableEq, Repr, Inhabited

namespace Endpoint

def get : List String → Option Endpoint
  | ["health"] => some health
  | ["health", "ready"] => some ready
  | ["auth", "me"] => some me
  | ["courses"] => some listCourses
  | ["courses", id] => some (getCourse id)
  | ["chapters"] => some listChapters
  | ["chapters", id] => some (getChapter id)
  | ["lessons"] => some listLessons
  | ["lessons", id] => some (getLesson id)
  | ["lessons", id, "attachments"] => some (listAttachments id)
  | ["lessons", id, "access"] => some (listAccess id)
  | ["attachments", "download", id] => some (download id)
  | _ => none

def post : List String → Option Endpoint
  | ["auth", "login"] => some login
  | ["auth", "refresh"] => some refresh
  | ["courses"] => some createCourse
  | ["chapters"] => some createChapter
  | ["lessons"] => some createLesson
  | ["lessons", id, "access"] => some (grantAccess id)
  | ["attachments", "upload"] => some upload
  | _ => none

def put : List String → Option Endpoint
  | ["courses", id] => some (updateCourse id)
  | ["chapters", id] => some (setChapterOrder id)
  | ["chapters", id, "lessons", "reorder"] => some (reorderLessons id)
  | ["lessons", id] => some (setLessonContent id)
  | _ => none

def delete : List String → Option Endpoint
  | ["courses", id] => some (deleteCourse id)
  | ["chapters", id] => some (deleteChapter id)
  | ["lessons", id] => some (deleteLesson id)
  | ["attachments", id] => some (deleteAttachment id)
  | _ => none

def ofMethod? : String → Option (List String → Option Endpoint)
  | "GET" => some get
  | "POST" => some post
  | "PUT" => some put
  | "DELETE" => some delete
  | _ => none

/-- The endpoint at a path, none of whose segments is empty. -/
def route (method : String) (segments : List String) : Option Endpoint :=
  if "" ∈ segments then none else (ofMethod? method).bind fun find => find segments

/-- The roles of which a caller must hold one; an endpoint without any is open to all. -/
def gate? : Endpoint → Option (List String)
  | createCourse => some Gate.admin
  | updateCourse _ => some Gate.staff
  | deleteCourse _ => some Gate.admin
  | createChapter => some Gate.staff
  | setChapterOrder _ => some Gate.staff
  | reorderLessons _ => some Gate.staff
  | deleteChapter _ => some Gate.admin
  | createLesson => some Gate.staff
  | setLessonContent _ => some Gate.staff
  | deleteLesson _ => some Gate.admin
  | grantAccess _ => some Gate.staff
  | listAccess _ => some Gate.staff
  | upload => some Gate.staff
  | deleteAttachment _ => some Gate.admin
  | _ => none

/-- Lets a caller pass to an endpoint. -/
def allow (e : Endpoint) (caller : Option Caller) : Except Failure Unit :=
  match e.gate? with
  | none => .ok ()
  | some roles => Gate.check roles caller

theorem allow_ok_iff {e : Endpoint} {caller : Option Caller} :
    e.allow caller = .ok () ↔
      ∀ roles, e.gate? = some roles → ∃ c, caller = some c ∧ ∃ r ∈ c.roles, r ∈ roles := by
  unfold allow
  split
  · simp_all
  · rename_i roles h
    simp [h, Gate.check_ok_iff]

end Endpoint

end Coursework
