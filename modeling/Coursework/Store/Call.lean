import Coursework.Store.Basic

/-!
# Calls to the store

What the server asks of its store, one call at a time, and what the store does when nothing goes wrong.
-/

namespace Coursework

/-- The code with which the database refuses: a whole command, or a row that it was to write. -/
inductive DatabaseError
  | command (code : Int)
  | write (code : Int)
  deriving DecidableEq, Repr

namespace DatabaseError

def duplicateCode : Int := 11000

/-- Whether a row was refused because a unique index has its key already. -/
def isDuplicateKey : DatabaseError → Bool
  | command code => code = duplicateCode
  | write code => code = duplicateCode

def failure : DatabaseError → Failure
  | command code => .database ("command failed with code " ++ toString code)
  | write code => .database ("write failed with code " ++ toString code)

end DatabaseError

inductive Call
  | listCourses
  | findCourse (id : String)
  | hasCourse (id : String)
  | addCourse (row : Course)
  | replaceCourse (row : Course)
  | removeCourse (id : String)
  | listChapters
  | findChapter (id : String)
  | chaptersOf (courseId : String)
  | countChapters (courseId : String)
  | hasChapter (id : String)
  | addChapter (row : Chapter)
  | orderChapter (id : String) (order : Int32) (now : Timestamp)
  | removeChapter (id : String)
  | listLessons
  | findLesson (id : String)
  | lessonsOf (chapterId : String)
  | countLessons (chapterId : String)
  | hasLesson (id : String)
  | addLesson (row : Lesson)
  | fillLesson (id content : String) (now : Timestamp)
  | orderLesson (id : String) (order : Int32) (now : Timestamp)
  | removeLesson (id : String)
  | addAttachment (row : Attachment)
  | findAttachment (id : String)
  | attachmentsOf (lessonId : String)
  | countAttachments (lessonId : String)
  | removeAttachment (id : String)
  | seekGrant (user lesson : String)
  | addGrant (row : Grant)
  | hasGrant (user lesson : String)
  | grantsOf (lessonId : String)
  | putBlob (key : String) (bytes : Bytes) (now : Timestamp)
  | getBlob (key : String)
  | removeBlob (key : String)

namespace Call

/-- What a call is answered with when it succeeds.  The two halves of a grant are told what the database said. -/
@[reducible] def Answer : Call → Type
  | listCourses => List Course
  | findCourse _ => Course
  | hasCourse _ => Bool
  | addCourse _ => Course
  | replaceCourse _ => Course
  | removeCourse _ => Unit
  | listChapters => List Chapter
  | findChapter _ => Chapter
  | chaptersOf _ => List Chapter
  | countChapters _ => Nat
  | hasChapter _ => Bool
  | addChapter _ => Chapter
  | orderChapter _ _ _ => Chapter
  | removeChapter _ => Unit
  | listLessons => List Lesson
  | findLesson _ => Lesson
  | lessonsOf _ => List Lesson
  | countLessons _ => Nat
  | hasLesson _ => Bool
  | addLesson _ => Lesson
  | fillLesson _ _ _ => Lesson
  | orderLesson _ _ _ => Unit
  | removeLesson _ => Unit
  | addAttachment _ => Attachment
  | findAttachment _ => Attachment
  | attachmentsOf _ => List Attachment
  | countAttachments _ => Nat
  | removeAttachment _ => Unit
  | seekGrant _ _ => Except DatabaseError Bool
  | addGrant _ => Except DatabaseError Unit
  | hasGrant _ _ => Bool
  | grantsOf _ => List Grant
  | putBlob _ _ _ => Unit
  | getBlob _ => Bytes
  | removeBlob _ => Bool

end Call

def missingRow (kind id : String) : String := kind ++ " with id '" ++ id ++ "' not found"

namespace Store

def duplicate : DatabaseError := .write DatabaseError.duplicateCode

def noCourse (id : String) : Failure := .notFound (missingRow "Course" id)
def noChapter (id : String) : Failure := .notFound (missingRow "Chapter" id)
def noLesson (id : String) : Failure := .notFound (missingRow "Lesson" id)
def noAttachment (id : String) : Failure := .notFound (missingRow "Attachment" id)
def noBlob (key : String) : Failure := .storage ("Failed to open blob '" ++ key ++ "': not found")

/-- The value of a look-up, or a failure; the store stays as it is. -/
def lookUp {α : Type} (s : Store) (found : Option α) (missing : Failure) : Except Failure α × Store :=
  match found with
  | some x => (.ok x, s)
  | none => (.error missing, s)

/-- The outcome of a change, or a failure that leaves the store as it is. -/
def change {α : Type} (s : Store) (changed : Option (α × Store)) (refused : Failure) : Except Failure α × Store :=
  match changed with
  | some (x, t) => (.ok x, t)
  | none => (.error refused, s)

def addCourse? (s : Store) (row : Course) : Option Store :=
  (Table.add? (fun a b => a.id = b.id) row s.courses).map fun rows => { s with courses := rows }

def replaceCourse? (s : Store) (row : Course) : Option Store :=
  (Table.modify? (fun c => c.id = row.id) (fun _ => row) s.courses).map fun (_, rows) => { s with courses := rows }

def removeCourse? (s : Store) (id : String) : Option Store :=
  (Table.remove? (fun c => c.id = id) s.courses).map fun rows => { s with courses := rows }

def addChapter? (s : Store) (row : Chapter) : Option Store :=
  (Table.add? (fun a b => a.id = b.id) row s.chapters).map fun rows => { s with chapters := rows }

def orderChapter? (s : Store) (id : String) (order : Int32) (now : Timestamp) : Option (Chapter × Store) :=
  (Table.modify? (fun c => c.id = id) (fun c => { c with order := order, updatedAt := now }) s.chapters).map
    fun (c, rows) => (c, { s with chapters := rows })

def removeChapter? (s : Store) (id : String) : Option Store :=
  (Table.remove? (fun c => c.id = id) s.chapters).map fun rows => { s with chapters := rows }

def addLesson? (s : Store) (row : Lesson) : Option Store :=
  (Table.add? (fun a b => a.id = b.id) row s.lessons).map fun rows => { s with lessons := rows }

def fillLesson? (s : Store) (id content : String) (now : Timestamp) : Option (Lesson × Store) :=
  (Table.modify? (fun l => l.id = id) (fun l => { l with content := content, updatedAt := now }) s.lessons).map
    fun (l, rows) => (l, { s with lessons := rows })

def orderLesson? (s : Store) (id : String) (order : Int32) (now : Timestamp) : Option Store :=
  (Table.modify? (fun l => l.id = id) (fun l => { l with order := order, updatedAt := now }) s.lessons).map
    fun (_, rows) => { s with lessons := rows }

def removeLesson? (s : Store) (id : String) : Option Store :=
  (Table.remove? (fun l => l.id = id) s.lessons).map fun rows => { s with lessons := rows }

def addAttachment? (s : Store) (row : Attachment) : Option Store :=
  (Table.add? (fun a b => a.id = b.id || a.storageKey = b.storageKey) row s.attachments).map
    fun rows => { s with attachments := rows }

def removeAttachment? (s : Store) (id : String) : Option Store :=
  (Table.remove? (fun a => a.id = id) s.attachments).map fun rows => { s with attachments := rows }

def addGrant? (s : Store) (row : Grant) : Option Store :=
  (Table.add? (fun a b => isGrantFor a.userId a.lessonId b) row s.grants).map fun rows => { s with grants := rows }

def putBlob (s : Store) (b : Blob) : Store := { s with blobs := s.blobs ++ [b] }

def removeBlob? (s : Store) (key : String) : Option Store :=
  (Table.remove? (fun b => b.key = key) s.blobs).map fun rows => { s with blobs := rows }

/-- Carries out a call. -/
def apply (s : Store) : (c : Call) → Except Failure c.Answer × Store
  | .listCourses => (.ok s.sortedCourses, s)
  | .findCourse id => s.lookUp (s.course? id) (noCourse id)
  | .hasCourse id => (.ok (s.course? id).isSome, s)
  | .addCourse row => s.change ((s.addCourse? row).map fun t => (row, t)) duplicate.failure
  | .replaceCourse row => s.change ((s.replaceCourse? row).map fun t => (row, t)) (noCourse row.id)
  | .removeCourse id => s.change ((s.removeCourse? id).map fun t => ((), t)) (noCourse id)
  | .listChapters => (.ok s.sortedChapters, s)
  | .findChapter id => s.lookUp (s.chapter? id) (noChapter id)
  | .chaptersOf id => (.ok (s.chaptersOf id), s)
  | .countChapters id => (.ok (s.chapters.countP fun c => c.courseId = id), s)
  | .hasChapter id => (.ok (s.chapter? id).isSome, s)
  | .addChapter row => s.change ((s.addChapter? row).map fun t => (row, t)) duplicate.failure
  | .orderChapter id order now => s.change (s.orderChapter? id order now) (noChapter id)
  | .removeChapter id => s.change ((s.removeChapter? id).map fun t => ((), t)) (noChapter id)
  | .listLessons => (.ok s.sortedLessons, s)
  | .findLesson id => s.lookUp (s.lesson? id) (noLesson id)
  | .lessonsOf id => (.ok (s.lessonsOf id), s)
  | .countLessons id => (.ok (s.lessons.countP fun l => l.chapterId = id), s)
  | .hasLesson id => (.ok (s.lesson? id).isSome, s)
  | .addLesson row => s.change ((s.addLesson? row).map fun t => (row, t)) duplicate.failure
  | .fillLesson id content now => s.change (s.fillLesson? id content now) (noLesson id)
  | .orderLesson id order now => s.change ((s.orderLesson? id order now).map fun t => ((), t)) (noLesson id)
  | .removeLesson id => s.change ((s.removeLesson? id).map fun t => ((), t)) (noLesson id)
  | .addAttachment row => s.change ((s.addAttachment? row).map fun t => (row, t)) duplicate.failure
  | .findAttachment id => s.lookUp (s.attachment? id) (noAttachment id)
  | .attachmentsOf id => (.ok (s.attachmentsOf id), s)
  | .countAttachments id => (.ok (s.attachments.countP fun a => a.lessonId = id), s)
  | .removeAttachment id => s.change ((s.removeAttachment? id).map fun t => ((), t)) (noAttachment id)
  | .seekGrant user lesson => (.ok (.ok (s.hasGrant user lesson)), s)
  | .addGrant row =>
    match s.addGrant? row with
    | some t => (.ok (.ok ()), t)
    | none => (.ok (.error duplicate), s)
  | .hasGrant user lesson => (.ok (s.hasGrant user lesson), s)
  | .grantsOf id => (.ok (s.grantsOf id), s)
  | .putBlob key bytes now => (.ok (), s.putBlob ⟨key, bytes, now.wholeMillis⟩)
  | .getBlob key => s.lookUp ((s.blob? key).map Blob.bytes) (noBlob key)
  | .removeBlob key =>
    match s.removeBlob? key with
    | some t => (.ok true, t)
    | none => (.ok false, s)

end Store

end Coursework
