import Coursework.Catalog.Operation
import Coursework.Server.Endpoint
import Coursework.Server.Reading

/-!
# Actions

What a request comes to once it is read: an operation on the catalogue, or one of the few things that have nothing to
do with it.
-/

namespace Coursework

inductive Action
  | perform (op : Operation)
  | login (r : Login)
  | refresh (r : Refresh)
  | me (c : Caller)
  | health
  | ready
  deriving DecidableEq, Inhabited

namespace Endpoint

def notAuthenticated : Failure := .unauthorized "Not authenticated"

def needCaller (caller : Option Caller) : Except Failure Caller :=
  match caller with
  | some c => .ok c
  | none => .error notAuthenticated

/-- The action that a request asks for at an endpoint; at most `limit` bytes are uploaded at once. -/
def action (r : Request) (caller : Option Caller) (limit : Nat) : Endpoint → Except Refusal Action
  | health => return .health
  | ready => return .ready
  | login => do
    let body ← r.jsonBody Login.codec
    body.validate
    return .login body
  | refresh => do
    let body ← r.jsonBody Refresh.codec
    body.validate
    return .refresh body
  | me => return .me (← needCaller caller)
  | listCourses => return .perform .listCourses
  | createCourse => return .perform (.createCourse (← r.jsonBody NewCourse.codec))
  | getCourse id => return .perform (.getCourse (← Request.pathId id).text)
  | updateCourse id => do
    let id ← Request.pathId id
    return .perform (.updateCourse id.text (← r.jsonBody CourseUpdate.codec))
  | deleteCourse id => return .perform (.deleteCourse (← Request.pathId id).text)
  | listChapters => return .perform .listChapters
  | createChapter => do
    let course ← r.queryId "course_id"
    return .perform (.addChapter course.text (← r.jsonBody NewChapter.codec))
  | reorderLessons chapter => do
    let chapter ← Request.pathId chapter
    return .perform (.reorderLessons chapter.text (← r.jsonBody Json.Codec.text.list))
  | getChapter id => return .perform (.getChapter (← Request.pathId id).text)
  | setChapterOrder id => do
    let id ← Request.pathId id
    return .perform (.setChapterOrder id.text (← r.jsonBody ChapterOrder.codec).order)
  | deleteChapter id => return .perform (.deleteChapter (← Request.pathId id).text)
  | listLessons => return .perform .listLessons
  | createLesson => do
    let chapter ← r.queryId "chapter_id"
    return .perform (.addLesson chapter.text (← r.jsonBody NewLesson.codec))
  | listAttachments lesson => return .perform (.listAttachments (← Request.pathId lesson).text)
  | grantAccess lesson => do
    let lesson ← Request.pathId lesson
    let body ← r.jsonBody GrantRequest.codec
    body.validate
    return .perform (.grant body.userId lesson.text)
  | listAccess lesson => return .perform (.listGrants (← Request.pathId lesson).text)
  | getLesson id => return .perform (.getLesson (← Request.pathId id).text)
  | setLessonContent id => do
    let id ← Request.pathId id
    return .perform (.setLessonContent id.text (← r.jsonBody LessonContent.codec).content)
  | deleteLesson id => return .perform (.deleteLesson (← Request.pathId id).text)
  | upload => do
    let u ← r.upload limit
    return .perform (.upload u.lesson.text u.fileName u.bytes)
  | download id => do
    let id ← Request.pathId id
    let c ← needCaller caller
    return .perform (.download c.subject id.text)
  | deleteAttachment id => return .perform (.deleteAttachment (← Request.pathId id).text)

end Endpoint

end Coursework
