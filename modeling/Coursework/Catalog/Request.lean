import Coursework.Json.Record
import Coursework.Validation

/-!
# Requests

What clients send to create and change the catalogue, to grant access and to log in, and the texts in it that are
checked.
-/

namespace Coursework

open Json

namespace LengthRule

def name : LengthRule := between 1 255
def description : LengthRule := atMost 10000

end LengthRule

structure NewCourse where
  name : String
  description : String
  deriving DecidableEq, Repr, Inhabited

structure CourseUpdate where
  id : Option String
  name : String
  description : String
  deriving DecidableEq, Repr, Inhabited

structure NewChapter where
  name : String
  description : String
  order : Int32
  courseId : Option String
  deriving DecidableEq, Inhabited

structure ChapterOrder where
  order : Int32
  deriving DecidableEq, Inhabited

structure NewLesson where
  name : String
  description : String
  content : String
  order : Int32
  chapterId : Option String
  deriving DecidableEq, Inhabited

structure LessonContent where
  content : String
  deriving DecidableEq, Repr, Inhabited

structure GrantRequest where
  userId : String
  deriving DecidableEq, Repr, Inhabited

structure Login where
  username : String
  password : String
  deriving DecidableEq, Repr, Inhabited

structure Refresh where
  refreshToken : String
  deriving DecidableEq, Repr, Inhabited

def NewCourse.codec : Codec NewCourse :=
  (Fields.required "name" .text <| .withDefault "description" .text "" .nil).codec "struct CreateCourseRequest"
    (fun (name, description, _) => ⟨name, description⟩)
    (fun r => (r.name, r.description, ()))

def CourseUpdate.codec : Codec CourseUpdate :=
  (Fields.optional "id" .text <| .required "name" .text <| .withDefault "description" .text "" .nil).codec
    "struct UpdateCourseRequest"
    (fun (id, name, description, _) => ⟨id, name, description⟩)
    (fun r => (r.id, r.name, r.description, ()))

def NewChapter.codec : Codec NewChapter :=
  (Fields.required "name" .text <| .withDefault "description" .text "" <| .withDefault "order" .int32 0 <|
    .optional "course_id" .text .nil).codec "struct CreateChapterRequest"
    (fun (name, description, order, courseId, _) => ⟨name, description, order, courseId⟩)
    (fun r => (r.name, r.description, r.order, r.courseId, ()))

def ChapterOrder.codec : Codec ChapterOrder :=
  (Fields.required "order" .int32 .nil).codec "struct UpdateChapterOrderRequest"
    (fun (order, _) => ⟨order⟩) (fun r => (r.order, ()))

def NewLesson.codec : Codec NewLesson :=
  (Fields.required "name" .text <| .withDefault "description" .text "" <| .withDefault "content" .text "" <|
    .withDefault "order" .int32 0 <| .optional "chapter_id" .text .nil).codec "struct CreateLessonRequest"
    (fun (name, description, content, order, chapterId, _) => ⟨name, description, content, order, chapterId⟩)
    (fun r => (r.name, r.description, r.content, r.order, r.chapterId, ()))

def LessonContent.codec : Codec LessonContent :=
  (Fields.required "content" .text .nil).codec "struct UpdateLessonContentRequest"
    (fun (content, _) => ⟨content⟩) (fun r => (r.content, ()))

def GrantRequest.codec : Codec GrantRequest :=
  (Fields.required "user_id" .text .nil).codec "struct GrantAccessRequest"
    (fun (userId, _) => ⟨userId⟩) (fun r => (r.userId, ()))

def Login.codec : Codec Login :=
  (Fields.required "username" .text <| .required "password" .text .nil).codec "struct LoginRequest"
    (fun (username, password, _) => ⟨username, password⟩)
    (fun r => (r.username, r.password, ()))

def Refresh.codec : Codec Refresh :=
  (Fields.required "refresh_token" .text .nil).codec "struct RefreshTokenRequest"
    (fun (refreshToken, _) => ⟨refreshToken⟩) (fun r => (r.refreshToken, ()))

/-- A query that names a parent by its identifier. -/
def ParentQuery.codec (name field : String) : Codec Uuid :=
  (Fields.required field .uuid .nil).codec name (fun (id, _) => id) (fun id => (id, ()))

def CourseQuery.codec : Codec Uuid := ParentQuery.codec "struct CourseIdQuery" "course_id"

def ChapterQuery.codec : Codec Uuid := ParentQuery.codec "struct ChapterIdQuery" "chapter_id"

def NewCourse.validate (r : NewCourse) : Except Failure Unit :=
  Validation.check [⟨"name", .name, r.name⟩, ⟨"description", .description, r.description⟩]

def CourseUpdate.validate (r : CourseUpdate) : Except Failure Unit :=
  Validation.check [⟨"name", .name, r.name⟩, ⟨"description", .description, r.description⟩]

def NewChapter.validate (r : NewChapter) : Except Failure Unit :=
  Validation.check [⟨"name", .name, r.name⟩, ⟨"description", .description, r.description⟩]

def NewLesson.validate (r : NewLesson) : Except Failure Unit :=
  Validation.check [⟨"name", .name, r.name⟩, ⟨"description", .description, r.description⟩]

def GrantRequest.validate (r : GrantRequest) : Except Failure Unit :=
  Validation.check [⟨"user_id", .name, r.userId⟩]

def Login.validate (r : Login) : Except Failure Unit :=
  Validation.check [⟨"username", .name, r.username⟩, ⟨"password", .atLeast 1, r.password⟩]

def Refresh.validate (r : Refresh) : Except Failure Unit :=
  Validation.check [⟨"refresh_token", .atLeast 1, r.refreshToken⟩]

end Coursework
