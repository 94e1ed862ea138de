import Coursework.Catalog.Row
import Coursework.Failure
import Coursework.Store.Table

/-!
# The store

Rows of five kinds, and blobs under their keys.  Lists come in an order that compares instants by their text.
-/

namespace Coursework

/-- The bytes of an attachment. -/
structure Blob where
  key : String
  bytes : Bytes
  /-- When it was put, in whole milliseconds. -/
  storedAt : Timestamp
  deriving DecidableEq, Inhabited

structure Store where
  courses : List Course
  chapters : List Chapter
  lessons : List Lesson
  attachments : List Attachment
  grants : List Grant
  blobs : List Blob
  deriving DecidableEq, Inhabited

namespace Store

def empty : Store := ⟨[], [], [], [], [], []⟩

/-- Compares by a first key, and by a second one where the first are equal. -/
def lexLe (firstLt firstEq : Bool) (second : Bool) : Bool := firstLt || (firstEq && second)

def timeLe (a b : Timestamp) : Bool := decide (a.text ≤ b.text)

/-- By order, then by time of creation. -/
def siblingLe (orderA orderB : Int32) (timeA timeB : Timestamp) : Bool :=
  lexLe (decide (orderA < orderB)) (decide (orderA = orderB)) (timeLe timeA timeB)

/-- By parent, then by order. -/
def familyLe (parentA parentB : String) (orderA orderB : Int32) : Bool :=
  lexLe (decide (parentA < parentB)) (decide (parentA = parentB)) (decide (orderA ≤ orderB))

def sortedCourses (s : Store) : List Course := Table.sorted (fun a b => timeLe a.createdAt b.createdAt) s.courses

def sortedChapters (s : Store) : List Chapter :=
  Table.sorted (fun a b => familyLe a.courseId b.courseId a.order b.order) s.chapters

def chaptersOf (s : Store) (courseId : String) : List Chapter :=
  Table.sorted (fun a b => siblingLe a.order b.order a.createdAt b.createdAt)
    (s.chapters.filter fun c => c.courseId = courseId)

def sortedLessons (s : Store) : List Lesson :=
  Table.sorted (fun a b => familyLe a.chapterId b.chapterId a.order b.order) s.lessons

def lessonsOf (s : Store) (chapterId : String) : List Lesson :=
  Table.sorted (fun a b => siblingLe a.order b.order a.createdAt b.createdAt)
    (s.lessons.filter fun l => l.chapterId = chapterId)

def attachmentsOf (s : Store) (lessonId : String) : List Attachment :=
  Table.sorted (fun a b => timeLe a.createdAt b.createdAt) (s.attachments.filter fun a => a.lessonId = lessonId)

def grantsOf (s : Store) (lessonId : String) : List Grant :=
  Table.sorted (fun a b => timeLe a.grantedAt b.grantedAt) (s.grants.filter fun g => g.lessonId = lessonId)

def course? (s : Store) (id : String) : Option Course := s.courses.find? fun c => c.id = id

def chapter? (s : Store) (id : String) : Option Chapter := s.chapters.find? fun c => c.id = id

def lesson? (s : Store) (id : String) : Option Lesson := s.lessons.find? fun l => l.id = id

def attachment? (s : Store) (id : String) : Option Attachment := s.attachments.find? fun a => a.id = id

def isGrantFor (user lesson : String) (g : Grant) : Bool := g.userId = user && g.lessonId = lesson

def hasGrant (s : Store) (user lesson : String) : Bool := s.grants.any (isGrantFor user lesson)

/-- Of several blobs under a key the one stored last, the first of those stored at one time. -/
def latest : List Blob → Option Blob
  | [] => none
  | b :: bs =>
    match latest bs with
    | none => some b
    | some c => if b.storedAt.lt c.storedAt then some c else some b

def blob? (s : Store) (key : String) : Option Blob := latest (s.blobs.filter fun b => b.key = key)

end Store

end Coursework
