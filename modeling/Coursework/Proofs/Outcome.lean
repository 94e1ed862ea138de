import Coursework.Catalog.Operation
import Coursework.Proofs.Answers

/-!
# Outcomes of operations

What an operation can come to, whichever of its calls fail: what it answers, and which store it leaves.  Only three
operations can leave a trace when they fail or a remainder when they succeed: a reordering that stops half-way, an
upload whose row is refused, and a deletion whose blob stays behind.
-/
namespace Coursework

def NewCourse.row (r : NewCourse) (id : Uuid) (now : Timestamp) : Course := ⟨id.text, r.name, r.description, now, now⟩

def CourseUpdate.revise (r : CourseUpdate) (now : Timestamp) (c : Course) : Course :=
  { c with name := r.name, description := r.description, updatedAt := now }

def NewChapter.row (r : NewChapter) (id : Uuid) (courseId : String) (now : Timestamp) : Chapter :=
  ⟨id.text, r.name, r.description, r.order, courseId, now, now⟩

def NewLesson.row (r : NewLesson) (id : Uuid) (chapterId : String) (now : Timestamp) : Lesson :=
  ⟨id.text, r.name, r.description, r.content, r.order, chapterId, now, now⟩

/-- The row of an upload. -/
def Attachments.row (id key : Uuid) (name lessonId : String) (now : Timestamp) : Attachment :=
  ⟨id.text, name, storageKey key name, lessonId, now⟩

/-- The blob of an upload. -/
def Attachments.blob (key : Uuid) (name : String) (bytes : Bytes) (now : Timestamp) : Blob :=
  ⟨storageKey key name, bytes, now.wholeMillis⟩

/-- The lesson with an id gets a place. -/
def Lessons.assign (now : Timestamp) (id : String) (place : Nat) (rows : List Lesson) : List Lesson :=
  ((Table.modify? (fun l => l.id = id) (fun l => { l with order := Int32.ofNat place, updatedAt := now }) rows).map
    Prod.snd).getD rows

/-- The lessons after the listed ones that are known have got their places, from the given place on. -/
def Lessons.assignAll (now : Timestamp) (known : List String) : Nat → List String → List Lesson → List Lesson
  | _, [], rows => rows
  | n, id :: ids, rows => assignAll now known (n + 1) ids (if id ∈ known then assign now id n rows else rows)

namespace Operation

/-- What an operation can come to at a time, with the identifiers that are drawn next. -/
inductive Outcome (m : Mishaps) (now : Timestamp) (id key : Uuid) (s : Store) :
    (op : Operation) → Except Failure op.Result → Store → Prop
  | failed (op : Operation) (f : Failure) : Outcome m now id key s op (.error f) s
  | listCourses : Outcome m now id key s .listCourses (.ok s.sortedCourses) s
  | getCourse {courseId : String} {course : Course} (found : s.course? courseId = some course) :
      Outcome m now id key s (.getCourse courseId)
        (.ok ⟨course, (s.chaptersOf courseId).map fun c => ⟨c, s.lessonsOf c.id⟩⟩) s
  | createCourse {r : NewCourse} (valid : r.validate = .ok ()) (fresh : ∀ c ∈ s.courses, c.id ≠ id.text) :
      Outcome m now id key s (.createCourse r) (.ok (r.row id now)) { s with courses := s.courses ++ [r.row id now] }
  | updateCourse {courseId : String} {r : CourseUpdate} {course row : Course} {rows : List Course}
      (valid : r.validate = .ok ()) (named : ∀ i, r.id = some i → i = courseId)
      (found : s.course? courseId = some course)
      (replaced : Table.modify? (fun c => c.id = course.id) (fun _ => r.revise now course) s.courses =
        some (row, rows)) :
      Outcome m now id key s (.updateCourse courseId r) (.ok (r.revise now course)) { s with courses := rows }
  | deleteCourse {courseId : String} {rows : List Course} (childless : ∀ c ∈ s.chapters, c.courseId ≠ courseId)
      (removed : Table.remove? (fun c => c.id = courseId) s.courses = some rows) :
      Outcome m now id key s (.deleteCourse courseId) (.ok ()) { s with courses := rows }
  | listChapters : Outcome m now id key s .listChapters (.ok s.sortedChapters) s
  | getChapter {chapterId : String} {chapter : Chapter} (found : s.chapter? chapterId = some chapter) :
      Outcome m now id key s (.getChapter chapterId) (.ok ⟨chapter, s.lessonsOf chapterId⟩) s
  | addChapter {courseId : String} {r : NewChapter} (valid : r.validate = .ok ())
      (parent : (s.course? courseId).isSome = true) (fresh : ∀ c ∈ s.chapters, c.id ≠ id.text) :
      Outcome m now id key s (.addChapter courseId r) (.ok (r.row id courseId now))
        { s with chapters := s.chapters ++ [r.row id courseId now] }
  | setChapterOrder {chapterId : String} {order : Int32} {row : Chapter} {rows : List Chapter}
      (changed : Table.modify? (fun c => c.id = chapterId) (fun c => { c with order, updatedAt := now }) s.chapters =
        some (row, rows)) :
      Outcome m now id key s (.setChapterOrder chapterId order) (.ok row) { s with chapters := rows }
  | deleteChapter {chapterId : String} {rows : List Chapter} (childless : ∀ l ∈ s.lessons, l.chapterId ≠ chapterId)
      (removed : Table.remove? (fun c => c.id = chapterId) s.chapters = some rows) :
      Outcome m now id key s (.deleteChapter chapterId) (.ok ()) { s with chapters := rows }
  | listLessons : Outcome m now id key s .listLessons (.ok s.sortedLessons) s
  | getLesson {lessonId : String} {lesson : Lesson} (found : s.lesson? lessonId = some lesson) :
      Outcome m now id key s (.getLesson lessonId) (.ok lesson) s
  | addLesson {chapterId : String} {r : NewLesson} (valid : r.validate = .ok ())
      (parent : (s.chapter? chapterId).isSome = true) (fresh : ∀ l ∈ s.lessons, l.id ≠ id.text) :
      Outcome m now id key s (.addLesson chapterId r) (.ok (r.row id chapterId now))
        { s with lessons := s.lessons ++ [r.row id chapterId now] }
  | setLessonContent {lessonId content : String} {row : Lesson} {rows : List Lesson}
      (changed : Table.modify? (fun l => l.id = lessonId) (fun l => { l with content, updatedAt := now }) s.lessons =
        some (row, rows)) :
      Outcome m now id key s (.setLessonContent lessonId content) (.ok row) { s with lessons := rows }
  /-- A reordering has given out the places up to some point, and all of them when it succeeds. -/
  | reorderLessons {chapterId : String} {ids : List String} (n : Nat) (r : Except Failure Unit)
      (complete : r = .ok () → n = ids.length) :
      Outcome m now id key s (.reorderLessons chapterId ids) r
        { s with
          lessons := Lessons.assignAll now ((s.lessonsOf chapterId).map Lesson.id) 1 (ids.take n) s.lessons }
  | deleteLesson {lessonId : String} {rows : List Lesson} (childless : ∀ a ∈ s.attachments, a.lessonId ≠ lessonId)
      (removed : Table.remove? (fun l => l.id = lessonId) s.lessons = some rows) :
      Outcome m now id key s (.deleteLesson lessonId) (.ok ()) { s with lessons := rows }
  | upload {lessonId rawName name : String} {bytes : Bytes} (parent : (s.lesson? lessonId).isSome = true)
      (named : FileName.sanitize rawName = .ok name)
      (fresh : ∀ a ∈ s.attachments, a.id ≠ id.text ∧ a.storageKey ≠ Attachments.storageKey key name) :
      Outcome m now id key s (.upload lessonId rawName bytes) (.ok (Attachments.row id key name lessonId now))
        { s with
          attachments := s.attachments ++ [Attachments.row id key name lessonId now]
          blobs := s.blobs ++ [Attachments.blob key name bytes now] }
  /-- The row was refused, and the blob was removed again. -/
  | uploadUndone {lessonId rawName name : String} {bytes : Bytes} {rest : List Blob} (f : Failure)
      (removed : Table.remove? (fun b => b.key = Attachments.storageKey key name)
        (s.blobs ++ [Attachments.blob key name bytes now]) = some rest) :
      Outcome m now id key s (.upload lessonId rawName bytes) (.error f) { s with blobs := rest }
  /-- The row was refused, and the blob stayed behind because it could not be removed. -/
  | uploadStranded {lessonId rawName name : String} {bytes : Bytes} (f g : Failure) (stuck : m.failure g) :
      Outcome m now id key s (.upload lessonId rawName bytes) (.error f)
        { s with blobs := s.blobs ++ [Attachments.blob key name bytes now] }
  | download {user attachmentId : String} {row : Attachment} {blob : Blob}
      (found : s.attachment? attachmentId = some row) (admitted : s.hasGrant user row.lessonId = true)
      (stored : s.blob? row.storageKey = some blob) :
      Outcome m now id key s (.download user attachmentId) (.ok ⟨row.name, blob.bytes⟩) s
  | listAttachments {lessonId : String} (parent : (s.lesson? lessonId).isSome = true) :
      Outcome m now id key s (.listAttachments lessonId) (.ok ((s.attachmentsOf lessonId).map Attachment.view)) s
  /-- The row is gone, and so is the blob, unless there was none or it could not be removed. -/
  | deleteAttachment {attachmentId : String} {row : Attachment} {rows : List Attachment} {rest : List Blob}
      (found : s.attachment? attachmentId = some row)
      (removed : Table.remove? (fun a => a.id = attachmentId) s.attachments = some rows)
      (cleared : Table.remove? (fun b => b.key = row.storageKey) s.blobs = some rest ∨
        rest = s.blobs ∧ ((∃ f, m.failure f) ∨ ∀ b ∈ s.blobs, b.key ≠ row.storageKey)) :
      Outcome m now id key s (.deleteAttachment attachmentId) (.ok ()) { s with attachments := rows, blobs := rest }
  | granted {rawUser lessonId : String} (known : Text.trimmed rawUser ≠ "")
      (parent : (s.lesson? lessonId).isSome = true) (fresh : s.hasGrant (Text.trimmed rawUser) lessonId = false) :
      Outcome m now id key s (.grant rawUser lessonId) (.ok true)
        { s with grants := s.grants ++ [⟨Text.trimmed rawUser, lessonId, now⟩] }
  | grantedBefore {rawUser lessonId : String} (known : Text.trimmed rawUser ≠ "")
      (parent : (s.lesson? lessonId).isSome = true)
      (present : s.hasGrant (Text.trimmed rawUser) lessonId = true ∨ m.falseDuplicate) :
      Outcome m now id key s (.grant rawUser lessonId) (.ok false) s
  | listGrants {lessonId : String} (parent : (s.lesson? lessonId).isSome = true) :
      Outcome m now id key s (.listGrants lessonId) (.ok (s.grantsOf lessonId)) s

end Operation

end Coursework
