import Coursework.Catalog.Attachments
import Coursework.Catalog.Chapters
import Coursework.Catalog.Courses
import Coursework.Catalog.Grants
import Coursework.Catalog.Lessons

/-!
# Operations

Everything that can be asked about the catalogue, with the program that does it.
-/

namespace Coursework

inductive Operation
  | listCourses
  | getCourse (id : String)
  | createCourse (r : NewCourse)
  | updateCourse (id : String) (r : CourseUpdate)
  | deleteCourse (id : String)
  | listChapters
  | getChapter (id : String)
  | addChapter (courseId : String) (r : NewChapter)
  | setChapterOrder (id : String) (order : Int32)
  | deleteChapter (id : String)
  | listLessons
  | getLesson (id : String)
  | addLesson (chapterId : String) (r : NewLesson)
  | setLessonContent (id content : String)
  | reorderLessons (chapterId : String) (ids : List String)
  | deleteLesson (id : String)
  | upload (lessonId name : String) (bytes : Bytes)
  | download (user id : String)
  | listAttachments (lessonId : String)
  | deleteAttachment (id : String)
  | grant (user lessonId : String)
  | listGrants (lessonId : String)
  deriving DecidableEq, Inhabited

namespace Operation

/-- What an operation gives when it succeeds. -/
@[reducible] def Result : Operation → Type
  | listCourses => List Course
  | getCourse _ => CourseDetail
  | createCourse _ => Course
  | updateCourse _ _ => Course
  | deleteCourse _ => Unit
  | listChapters => List Chapter
  | getChapter _ => ChapterDetail
  | addChapter _ _ => Chapter
  | setChapterOrder _ _ => Chapter
  | deleteChapter _ => Unit
  | listLessons => List Lesson
  | getLesson _ => Lesson
  | addLesson _ _ => Lesson
  | setLessonContent _ _ => Lesson
  | reorderLessons _ _ => Unit
  | deleteLesson _ => Unit
  | upload _ _ _ => Attachment
  | download _ _ => Download
  | listAttachments _ => List AttachmentView
  | deleteAttachment _ => Unit
  | grant _ _ => Bool
  | listGrants _ => List Grant

/-- The program of an operation at a time. -/
def program (now : Timestamp) : (op : Operation) → Program op.Result
  | listCourses => Courses.list
  | getCourse id => Courses.get id
  | createCourse r => Courses.create now r
  | updateCourse id r => Courses.update now id r
  | deleteCourse id => Courses.delete id
  | listChapters => Chapters.list
  | getChapter id => Chapters.get id
  | addChapter courseId r => Chapters.add now courseId r
  | setChapterOrder id order => Chapters.setOrder now id order
  | deleteChapter id => Chapters.delete id
  | listLessons => Lessons.list
  | getLesson id => Lessons.get id
  | addLesson chapterId r => Lessons.add now chapterId r
  | setLessonContent id content => Lessons.setContent now id content
  | reorderLessons chapterId ids => Lessons.reorder now chapterId ids
  | deleteLesson id => Lessons.delete id
  | upload lessonId name bytes => Attachments.upload now lessonId name bytes
  | download user id => Attachments.download user id
  | listAttachments lessonId => Attachments.list lessonId
  | deleteAttachment id => Attachments.delete id
  | grant user lessonId => Grants.grant now user lessonId
  | listGrants lessonId => Grants.list lessonId

end Operation

end Coursework
