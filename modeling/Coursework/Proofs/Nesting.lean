import Coursework.Proofs.Integrity
import Coursework.Proofs.Reads
import Mathlib.Data.List.Perm.Basic

/-!
# Nested listings

A course is shown with its chapters and these with their lessons, out of one query for each parent.  As ids are unique
and every row names a parent that is there, the nested rows of all courses are the rows of the flat lists, each in one
place.
-/
namespace Coursework

namespace Table

/-- Rows that are picked out parent by parent are all the rows. -/
theorem perm_flatMap_filter {α κ : Type} [DecidableEq κ] {key : α → κ} {parents : List κ} {rows : List α}
    (unique : parents.Nodup) (covered : ∀ x ∈ rows, key x ∈ parents) :
    (parents.flatMap fun k => rows.filter fun x => key x = k).Perm rows := by
  induction parents generalizing rows with
  | nil =>
    have hnone : rows = [] := List.eq_nil_iff_forall_not_mem.mpr fun x hx => by simpa using covered x hx
    rw [hnone]
    exact List.Perm.refl _
  | cons k ks ih =>
    obtain ⟨hk, hks⟩ := List.nodup_cons.mp unique
    -- the later parents find their rows among those that the first one leaves over
    have hrest : (ks.flatMap fun j => rows.filter fun x => key x = j) =
        ks.flatMap fun j => (rows.filter fun x => !decide (key x = k)).filter fun x => key x = j := by
      refine List.flatMap_congr fun j hj => ?_
      rw [List.filter_filter]
      refine List.filter_congr fun x _ => ?_
      by_cases hx : key x = j
      · have hne : j ≠ k := fun he => hk (he ▸ hj)
        simp [hx, hne]
      · simp [hx]
    have hcovered : ∀ x ∈ rows.filter fun x => !decide (key x = k), key x ∈ ks := by
      intro x hx
      obtain ⟨hmem, hne⟩ := List.mem_filter.mp hx
      exact (List.mem_cons.mp (covered x hmem)).resolve_left (by simpa using hne)
    rw [List.flatMap_cons, hrest]
    exact ((ih hks hcovered).append_left _).trans (List.filter_append_perm _ rows)

end Table

namespace Store

variable {s : Store}

/-- A course as it is shown: with exactly its chapters and these with exactly their lessons, each once and in ascending
order, and each chapter as it is shown by itself. -/
structure Nests (s : Store) (d : CourseDetail) : Prop where
  chapters : (d.chapters.map ChapterDetail.chapter).Perm (s.chapters.filter fun c => c.courseId = d.course.id)
  chaptersOnce : (d.chapters.map fun e => e.chapter.id).Nodup
  chaptersAscend : (d.chapters.map fun e => e.chapter.order).Pairwise (· ≤ ·)
  lessons : ∀ e ∈ d.chapters, e.lessons.Perm (s.lessons.filter fun l => l.chapterId = e.chapter.id)
  lessonsOnce : ∀ e ∈ d.chapters, (e.lessons.map Lesson.id).Nodup
  lessonsAscend : ∀ e ∈ d.chapters, (e.lessons.map Lesson.order).Pairwise (· ≤ ·)
  alone : ∀ e ∈ d.chapters, s.Shows (.getChapter e.chapter.id) e

theorem courseDetail_chapters (s : Store) (course : Course) :
    (s.courseDetail course).chapters.map ChapterDetail.chapter = s.chaptersOf course.id := by
  simp [courseDetail, chapterDetail, Function.comp_def]

theorem courseDetail_lessons (s : Store) (course : Course) :
    (s.courseDetail course).chapters.flatMap ChapterDetail.lessons =
      (s.chaptersOf course.id).flatMap fun c => s.lessonsOf c.id := by
  simp [courseDetail, chapterDetail, List.flatMap_map]

namespace Intact

variable (hi : s.Intact)
include hi

theorem courseDetail_nests (course : Course) : s.Nests (s.courseDetail course) := by
  have entries : ∀ e ∈ (s.courseDetail course).chapters, ∃ c ∈ s.chapters, e = s.chapterDetail c := by
    intro e he
    obtain ⟨c, hc, rfl⟩ := List.mem_map.mp he
    exact ⟨c, (List.mem_filter.mp ((s.chaptersOf_perm course.id).subset hc)).1, rfl⟩
  have hchapters := s.courseDetail_chapters course
  constructor
  · rw [hchapters]
    exact s.chaptersOf_perm course.id
  · have honce := nodup_of_perm_filter hi.chapterIds (s.chaptersOf_perm course.id)
    rwa [← hchapters, List.map_map] at honce
  · have hascend := s.chaptersOf_ascend course.id
    rwa [← hchapters, List.map_map] at hascend
  · intro e he
    obtain ⟨c, -, rfl⟩ := entries e he
    exact s.lessonsOf_perm c.id
  · intro e he
    obtain ⟨c, -, rfl⟩ := entries e he
    exact nodup_of_perm_filter hi.lessonIds (s.lessonsOf_perm c.id)
  · intro e he
    obtain ⟨c, -, rfl⟩ := entries e he
    exact s.lessonsOf_ascend c.id
  · intro e he
    obtain ⟨c, hc, rfl⟩ := entries e he
    exact shows_getChapter (Table.find?_eq_some_of_mem hi.chapterIds hc)

theorem nested_chapters {courses : List Course} (h : courses.Perm s.courses) :
    (courses.flatMap fun c => (s.courseDetail c).chapters.map ChapterDetail.chapter).Perm s.chapters := by
  have hgrouped : (courses.flatMap fun c => s.chaptersOf c.id).Perm
      ((courses.map Course.id).flatMap fun k => s.chapters.filter fun c => c.courseId = k) := by
    rw [List.flatMap_map]
    exact List.Perm.flatMap_left _ fun c _ => s.chaptersOf_perm c.id
  simp only [courseDetail_chapters]
  refine hgrouped.trans (Table.perm_flatMap_filter ?_ fun c hc => ?_)
  · exact (h.map Course.id).nodup_iff.mpr hi.courseIds
  · exact (h.map Course.id).symm.subset (hi.chapterParents (List.mem_map_of_mem hc))

theorem nested_lessons {courses : List Course} (h : courses.Perm s.courses) :
    (courses.flatMap fun c => (s.courseDetail c).chapters.flatMap ChapterDetail.lessons).Perm s.lessons := by
  have hchapters := hi.nested_chapters h
  simp only [courseDetail_chapters] at hchapters
  have hgrouped : ((courses.flatMap fun c => s.chaptersOf c.id).flatMap fun c => s.lessonsOf c.id).Perm
      ((s.chapters.map Chapter.id).flatMap fun k => s.lessons.filter fun l => l.chapterId = k) := by
    rw [List.flatMap_map]
    exact hchapters.flatMap fun c _ => s.lessonsOf_perm c.id
  simp only [courseDetail_lessons]
  rw [← List.flatMap_assoc]
  refine hgrouped.trans (Table.perm_flatMap_filter hi.chapterIds fun l hl => ?_)
  exact hi.lessonParents (List.mem_map_of_mem hl)

end Intact

end Store

namespace History

/-- Whatever has happened and whatever failed, as long as nothing fails while they are read: every course is shown with
exactly its chapters and their lessons, and what all courses show together is what the flat lists hold, each row in one
place. -/
theorem nested_reads_partition (ids keys : Nat → Uuid) (plan : List PlannedFault)
    (steps : List (Timestamp × Operation)) :
    let s := ((start ids keys plan).serveAll steps).store
    ∃ (courses : List Course) (chapters : List Chapter) (lessons : List Lesson) (detail : Course → CourseDetail),
      s.Shows .listCourses courses ∧ s.Shows .listChapters chapters ∧ s.Shows .listLessons lessons ∧
      courses.Perm s.courses ∧ chapters.Perm s.chapters ∧ lessons.Perm s.lessons ∧
      (∀ course ∈ s.courses, s.Shows (.getCourse course.id) (detail course) ∧ (detail course).course = course ∧
        s.Nests (detail course)) ∧
      (courses.flatMap fun c => (detail c).chapters.map ChapterDetail.chapter).Perm chapters ∧
      (courses.flatMap fun c => (detail c).chapters.flatMap ChapterDetail.lessons).Perm lessons := by
  intro s
  have hi : s.Intact := serveAll_intact Store.intact_empty steps
  have hcourses : s.sortedCourses.Perm s.courses := Table.sorted_perm ..
  have hchapters : s.sortedChapters.Perm s.chapters := Table.sorted_perm ..
  have hlessons : s.sortedLessons.Perm s.lessons := Table.sorted_perm ..
  refine ⟨s.sortedCourses, s.sortedChapters, s.sortedLessons, s.courseDetail, s.shows_listCourses,
    s.shows_listChapters, s.shows_listLessons, hcourses, hchapters, hlessons, fun course hcourse => ?_, ?_, ?_⟩
  · have found : s.course? course.id = some course := Table.find?_eq_some_of_mem hi.courseIds hcourse
    exact ⟨Store.shows_getCourse found, rfl, hi.courseDetail_nests course⟩
  · exact (hi.nested_chapters hcourses).trans hchapters.symm
  · exact (hi.nested_lessons hcourses).trans hlessons.symm

/-- The sample course is shown with its chapter and its lesson. -/
theorem nested_reads_partition_sample :
    ∃ d, sample.result sampleTime (.getCourse (Uuid.numbered 0).text) = .ok d ∧
      (d.chapters.map ChapterDetail.chapter).map Chapter.name = ["Sets"] ∧
      (d.chapters.flatMap ChapterDetail.lessons).map Lesson.name = ["Unions"] := by
  obtain ⟨courses, chapters, lessons, detail, -, -, -, hcourses, hchapters, hlessons, hdetail, hnested, hleaves⟩ :=
    nested_reads_partition .numbered .numbered [] (sampleOperations.map fun op => (sampleTime, op))
  have hids : sample.store.courses.map Course.id = [(Uuid.numbered 0).text] := by decide +kernel
  obtain ⟨course, hstored, hid⟩ := List.map_eq_singleton_iff.mp hids
  have honly : courses = [course] := List.perm_singleton.mp (hstored ▸ hcourses)
  have hnames : sample.store.chapters.map Chapter.name = ["Sets"] := by decide +kernel
  have hlessonNames : sample.store.lessons.map Lesson.name = ["Unions"] := by decide +kernel
  obtain ⟨hshows, -, -⟩ := hdetail course (hstored ▸ List.mem_singleton_self course)
  rw [honly, List.flatMap_singleton] at hnested hleaves
  have hread := hshows sample sampleTime rfl (serve_allows (sample_allows .nothing) sampleTime _).1
  refine ⟨detail course, hid ▸ hread.1, ?_, ?_⟩
  · exact List.perm_singleton.mp (hnames ▸ (hnested.trans hchapters).map Chapter.name)
  · exact List.perm_singleton.mp (hlessonNames ▸ (hleaves.trans hlessons).map Lesson.name)

end History

end Coursework
