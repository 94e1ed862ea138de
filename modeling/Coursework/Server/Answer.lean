import Coursework.Http.Disposition
import Coursework.Provider.TokenReply
import Coursework.Server.Action

/-!
# Answers

How the outcome of an action is told: with which status, and in which body.
-/

namespace Coursework

namespace Response

def encoded {α : Type} (status : Nat) (codec : Json.Codec α) (v : α) : Response := .json status (codec.encode v)

def refused (f : Failure) : Response := encoded f.status Failure.codec ⟨f.publicMessage⟩

def message (status : Nat) (text : String) : Response := encoded status Message.codec ⟨text⟩

def done : Response := .bare 204

/-- A download, unless no header can carry its name. -/
def download (d : Download) : Response :=
  match Disposition.attachment? d.name with
  | some disposition => .file disposition d.bytes
  | none => .text 500 "failed to parse header value"

end Response

def Refusal.response : Refusal → Response
  | failure f => .refused f
  | noForm f => .text f.status f.message

/-- How the result of an operation is told. -/
def Operation.respond : (op : Operation) → op.Result → Response
  | listCourses, rows => .encoded 200 Course.codec.list rows
  | getCourse _, row => .encoded 200 CourseDetail.codec row
  | createCourse _, row => .encoded 201 Course.codec row
  | updateCourse _ _, row => .encoded 200 Course.codec row
  | deleteCourse _, _ => .done
  | listChapters, rows => .encoded 200 Chapter.codec.list rows
  | getChapter _, row => .encoded 200 ChapterDetail.codec row
  | addChapter _ _, row => .encoded 201 Chapter.codec row
  | setChapterOrder _ _, row => .encoded 200 Chapter.codec row
  | deleteChapter _, _ => .done
  | listLessons, rows => .encoded 200 Lesson.codec.list rows
  | getLesson _, row => .encoded 200 Lesson.codec row
  | addLesson _ _, row => .encoded 201 Lesson.codec row
  | setLessonContent _ _, row => .encoded 200 Lesson.codec row
  | reorderLessons _ _, _ => .done
  | deleteLesson _, _ => .done
  | upload _ _ _, row => .encoded 201 AttachmentView.codec row.view
  | download _ _, d => .download d
  | listAttachments _, rows => .encoded 200 AttachmentView.codec.list rows
  | deleteAttachment _, _ => .done
  | grant _ _, true => .message 201 "Access granted"
  | grant _ _, false => .message 200 "Access already granted"
  | listGrants _, rows => .encoded 200 Grant.viewCodec.list rows

namespace Caller

def encode (c : Caller) : Json :=
  .obj [("subject", .str c.subject), ("username", (c.username.map Json.str).getD .null),
    ("roles", .arr (c.roles.map .str))]

end Caller

inductive DatabaseStatus
  | absent
  | reachable
  | failing
  deriving DecidableEq, Repr, Inhabited

namespace Health

def version : String := "0.1.0"

def alive : Response := .json 200 (.obj [("status", .str "healthy"), ("version", .str version)])

def databaseText : DatabaseStatus → String
  | .absent => "not_configured"
  | .reachable => "ok"
  | .failing => "error"

/-- A server is ready unless it has a database that does not answer. -/
def isReady (d : DatabaseStatus) : Bool := d ≠ .failing

def readiness (d : DatabaseStatus) : Response :=
  .json (if isReady d then 200 else 503)
    (.obj [("status", .str (if isReady d then "ready" else "not_ready")), ("version", .str version),
      ("dependencies", .obj [("mongodb", .str (databaseText d))])])

end Health

end Coursework
