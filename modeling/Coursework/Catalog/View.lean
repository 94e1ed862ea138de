import Coursework.Catalog.Row

/-!
# What clients are shown

A course with its chapters, a chapter with its lessons, an attachment without its storage key, a grant, and plain
messages.
-/

namespace Coursework

open Json

structure ChapterDetail where
  chapter : Chapter
  lessons : List Lesson
  deriving DecidableEq, Inhabited

structure CourseDetail where
  course : Course
  chapters : List ChapterDetail
  deriving DecidableEq, Inhabited

/-- An attachment as clients see it. -/
structure AttachmentView where
  id : String
  name : String
  lessonId : String
  createdAt : Timestamp
  deriving DecidableEq, Inhabited

def Attachment.view (a : Attachment) : AttachmentView := ⟨a.id, a.name, a.lessonId, a.createdAt⟩

structure Message where
  message : String
  deriving DecidableEq, Inhabited

def ChapterDetail.codec : Codec ChapterDetail :=
  Chapter.fields.extended "struct ChapterDetailDto" "lessons" Lesson.codec.list
    (fun (chapter, lessons) => ⟨Chapter.ofParts chapter, lessons⟩)
    (fun d => (d.chapter.parts, d.lessons))

def CourseDetail.codec : Codec CourseDetail :=
  Course.fields.extended "struct CourseDetailDto" "chapters" ChapterDetail.codec.list
    (fun ((id, name, description, createdAt, updatedAt, _), chapters) =>
      ⟨⟨id, name, description, createdAt, updatedAt⟩, chapters⟩)
    (fun d => ((d.course.id, d.course.name, d.course.description, d.course.createdAt, d.course.updatedAt, ()),
      d.chapters))

def AttachmentView.fields : Fields (String × String × String × Timestamp × Unit) :=
  .required "id" .text <| .required "name" .text <| .required "lesson_id" .text <|
  .required "created_at" .timestamp .nil

def AttachmentView.codec : Codec AttachmentView :=
  AttachmentView.fields.codec "struct AttachmentDto"
    (fun (id, name, lessonId, createdAt, _) => ⟨id, name, lessonId, createdAt⟩)
    (fun a => (a.id, a.name, a.lessonId, a.createdAt, ()))

/-- A grant as clients see it, which is all of it. -/
def Grant.viewCodec : Codec Grant := Grant.codecAs "struct LessonAccessDto"

/-- A message under the given name of its record. -/
def Message.codecAs (name : String) : Codec Message :=
  (Fields.required "message" .text .nil).codec name (fun (m, _) => ⟨m⟩) (fun m => (m.message, ()))

def Message.codec : Codec Message := Message.codecAs "struct MessageResponse"

/-- The body of a refusal. -/
def Failure.codec : Codec Message := Message.codecAs "struct ErrorResponse"

end Coursework
