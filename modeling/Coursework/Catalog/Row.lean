import Coursework.Json.Record

/-!
# Courses and what belongs to them

A course has chapters, a chapter has lessons, a lesson has attachments, and a grant opens the attachments of one
lesson to one user.  Each row names its parent by its id.
-/

namespace Coursework

open Json

structure Course where
  id : String
  name : String
  description : String
  createdAt : Timestamp
  updatedAt : Timestamp
  deriving DecidableEq, Inhabited

structure Chapter where
  id : String
  name : String
  description : String
  order : Int32
  courseId : String
  createdAt : Timestamp
  updatedAt : Timestamp
  deriving DecidableEq, Inhabited

structure Lesson where
  id : String
  name : String
  description : String
  content : String
  order : Int32
  chapterId : String
  createdAt : Timestamp
  updatedAt : Timestamp
  deriving DecidableEq, Inhabited

structure Attachment where
  id : String
  name : String
  storageKey : String
  lessonId : String
  createdAt : Timestamp
  deriving DecidableEq, Inhabited

/-- A user's access to the attachments of a lesson. -/
structure Grant where
  userId : String
  lessonId : String
  grantedAt : Timestamp
  deriving DecidableEq, Inhabited

def Course.fields : Fields (String × String × String × Timestamp × Timestamp × Unit) :=
  .required "id" .text <| .required "name" .text <| .required "description" .text <|
  .required "created_at" .timestamp <| .required "updated_at" .timestamp .nil

def Course.codec : Codec Course :=
  Course.fields.codec "struct Course"
    (fun (id, name, description, createdAt, updatedAt, _) => ⟨id, name, description, createdAt, updatedAt⟩)
    (fun c => (c.id, c.name, c.description, c.createdAt, c.updatedAt, ()))

def Chapter.fields : Fields (String × String × String × Int32 × String × Timestamp × Timestamp × Unit) :=
  .required "id" .text <| .required "name" .text <| .required "description" .text <|
  .required "order" .int32 <| .required "course_id" .text <|
  .required "created_at" .timestamp <| .required "updated_at" .timestamp .nil

def Chapter.ofParts : String × String × String × Int32 × String × Timestamp × Timestamp × Unit → Chapter
  | (id, name, description, order, courseId, createdAt, updatedAt, _) =>
    ⟨id, name, description, order, courseId, createdAt, updatedAt⟩

def Chapter.parts (c : Chapter) : String × String × String × Int32 × String × Timestamp × Timestamp × Unit :=
  (c.id, c.name, c.description, c.order, c.courseId, c.createdAt, c.updatedAt, ())

def Chapter.codec : Codec Chapter := Chapter.fields.codec "struct Chapter" Chapter.ofParts Chapter.parts

def Lesson.fields :
    Fields (String × String × String × String × Int32 × String × Timestamp × Timestamp × Unit) :=
  .required "id" .text <| .required "name" .text <| .required "description" .text <|
  .required "content" .text <| .required "order" .int32 <| .required "chapter_id" .text <|
  .required "created_at" .timestamp <| .required "updated_at" .timestamp .nil

def Lesson.codec : Codec Lesson :=
  Lesson.fields.codec "struct Lesson"
    (fun (id, name, description, content, order, chapterId, createdAt, updatedAt, _) =>
      ⟨id, name, description, content, order, chapterId, createdAt, updatedAt⟩)
    (fun l => (l.id, l.name, l.description, l.content, l.order, l.chapterId, l.createdAt, l.updatedAt, ()))

def Attachment.fields : Fields (String × String × String × String × Timestamp × Unit) :=
  .required "id" .text <| .required "name" .text <| .required "storage_key" .text <|
  .required "lesson_id" .text <| .required "created_at" .timestamp .nil

def Attachment.codec : Codec Attachment :=
  Attachment.fields.codec "struct Attachment"
    (fun (id, name, storageKey, lessonId, createdAt, _) => ⟨id, name, storageKey, lessonId, createdAt⟩)
    (fun a => (a.id, a.name, a.storageKey, a.lessonId, a.createdAt, ()))

def Grant.fields : Fields (String × String × Timestamp × Unit) :=
  .required "user_id" .text <| .required "lesson_id" .text <| .required "granted_at" .timestamp .nil

/-- A grant under the given name of its record. -/
def Grant.codecAs (name : String) : Codec Grant :=
  Grant.fields.codec name
    (fun (userId, lessonId, grantedAt, _) => ⟨userId, lessonId, grantedAt⟩)
    (fun g => (g.userId, g.lessonId, g.grantedAt, ()))

def Grant.codec : Codec Grant := Grant.codecAs "struct LessonAccess"

end Coursework
