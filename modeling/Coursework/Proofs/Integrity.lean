import Coursework.Proofs.History

/-!
# Integrity

Ids are unique, and every row names a parent that is there.  The store demands only the former, so the latter rests
on the order in which each operation looks and writes: a parent is looked up before a child is added, and children
are counted before a parent is removed.
-/
namespace Coursework

open Operation

namespace Lessons

/-- Places and times of change are all that a reordering touches. -/
theorem map_assignAll {β : Type} {g : Lesson → β} {now : Timestamp}
    (hg : ∀ (l : Lesson) place, g { l with order := place, updatedAt := now } = g l) (known : List String) (n : Nat)
    (ids : List String) (rows : List Lesson) : (assignAll now known n ids rows).map g = rows.map g := by
  have hassign : ∀ id place rows, (assign now id place rows).map g = rows.map g := by
    intro id place rows
    unfold assign
    cases hm : Table.modify? (fun l : Lesson => l.id = id)
        (fun l => { l with order := Int32.ofNat place, updatedAt := now }) rows with
    | none => rfl
    | some changed => exact Table.map_modify? hm fun l _ => hg l _
  induction ids generalizing n rows with
  | nil => rfl
  | cons id ids ih =>
    rw [assignAll, ih]
    split
    · exact hassign id n rows
    · rfl

end Lessons

namespace Store

variable {m : Mishaps} {now : Timestamp} {id key : Uuid} {s t : Store}

/-- Ids and storage keys are unique, so are the pairs of the grants, and every row names a parent that is there. -/
structure Intact (s : Store) : Prop where
  courseIds : (s.courses.map Course.id).Nodup
  chapterIds : (s.chapters.map Chapter.id).Nodup
  lessonIds : (s.lessons.map Lesson.id).Nodup
  attachmentIds : (s.attachments.map Attachment.id).Nodup
  storageKeys : (s.attachments.map Attachment.storageKey).Nodup
  grantPairs : (s.grants.map fun g => (g.userId, g.lessonId)).Nodup
  chapterParents : s.chapters.map Chapter.courseId ⊆ s.courses.map Course.id
  lessonParents : s.lessons.map Lesson.chapterId ⊆ s.chapters.map Chapter.id
  attachmentParents : s.attachments.map Attachment.lessonId ⊆ s.lessons.map Lesson.id

theorem intact_empty : empty.Intact := by
  constructor <;> simp [empty]

theorem mem_ids_of_find? {α : Type} {rows : List α} {key : α → String} {k : String}
    (h : (rows.find? fun x => key x = k).isSome = true) : k ∈ rows.map key := by
  obtain ⟨x, hx, he⟩ := List.find?_isSome.mp h
  exact List.mem_map.mpr ⟨x, hx, of_decide_eq_true he⟩

theorem map_append_subset {α β : Type} {rows : List α} {row : α} {parent : α → β} {parents : List β}
    (h : rows.map parent ⊆ parents) (hrow : parent row ∈ parents) : (rows ++ [row]).map parent ⊆ parents := by
  rw [List.map_append]
  exact List.append_subset.mpr ⟨h, by simpa using hrow⟩

/-- A parent without children can go. -/
theorem map_subset_remove? {α β : Type} {rows : List α} {parents parents' : List β} {parent : α → String}
    {key : β → String} {k : String} (h : rows.map parent ⊆ parents.map key) (childless : ∀ x ∈ rows, parent x ≠ k)
    (removed : Table.remove? (fun y => key y = k) parents = some parents') :
    rows.map parent ⊆ parents'.map key := by
  intro i hi
  obtain ⟨x, hx, rfl⟩ := List.mem_map.mp hi
  exact Table.mem_map_remove? (childless x hx) removed (h hi)

namespace Intact

variable (hi : s.Intact)
include hi

theorem addCourse {row : Course} (fresh : ∀ c ∈ s.courses, c.id ≠ row.id) :
    Intact { s with courses := s.courses ++ [row] } :=
  { hi with
    courseIds := Table.nodup_map_append hi.courseIds fresh
    chapterParents := by
      rw [List.map_append]
      exact List.subset_append_of_subset_left _ hi.chapterParents }

theorem reviseCourses {rows : List Course} (same : rows.map Course.id = s.courses.map Course.id) :
    Intact { s with courses := rows } :=
  { hi with
    courseIds := same ▸ hi.courseIds
    chapterParents := same ▸ hi.chapterParents }

theorem removeCourse {courseId : String} {rows : List Course} (childless : ∀ c ∈ s.chapters, c.courseId ≠ courseId)
    (removed : Table.remove? (fun c => c.id = courseId) s.courses = some rows) :
    Intact { s with courses := rows } :=
  { hi with
    courseIds := Table.nodup_map_remove? hi.courseIds removed
    chapterParents := map_subset_remove? hi.chapterParents childless removed }

theorem addChapter {row : Chapter} (parent : row.courseId ∈ s.courses.map Course.id)
    (fresh : ∀ c ∈ s.chapters, c.id ≠ row.id) : Intact { s with chapters := s.chapters ++ [row] } :=
  { hi with
    chapterIds := Table.nodup_map_append hi.chapterIds fresh
    chapterParents := map_append_subset hi.chapterParents parent
    lessonParents := by
      rw [List.map_append]
      exact List.subset_append_of_subset_left _ hi.lessonParents }

theorem reviseChapters {rows : List Chapter} (same : rows.map Chapter.id = s.chapters.map Chapter.id)
    (sameParents : rows.map Chapter.courseId = s.chapters.map Chapter.courseId) :
    Intact { s with chapters := rows } :=
  { hi with
    chapterIds := same ▸ hi.chapterIds
    chapterParents := sameParents ▸ hi.chapterParents
    lessonParents := same ▸ hi.lessonParents }

theorem removeChapter {chapterId : String} {rows : List Chapter}
    (childless : ∀ l ∈ s.lessons, l.chapterId ≠ chapterId)
    (removed : Table.remove? (fun c => c.id = chapterId) s.chapters = some rows) :
    Intact { s with chapters := rows } :=
  { hi with
    chapterIds := Table.nodup_map_remove? hi.chapterIds removed
    chapterParents := List.Subset.trans ((Table.remove?_sublist removed).map _).subset hi.chapterParents
    lessonParents := map_subset_remove? hi.lessonParents childless removed }

theorem addLesson {row : Lesson} (parent : row.chapterId ∈ s.chapters.map Chapter.id)
    (fresh : ∀ l ∈ s.lessons, l.id ≠ row.id) : Intact { s with lessons := s.lessons ++ [row] } :=
  { hi with
    lessonIds := Table.nodup_map_append hi.lessonIds fresh
    lessonParents := map_append_subset hi.lessonParents parent
    attachmentParents := by
      rw [List.map_append]
      exact List.subset_append_of_subset_left _ hi.attachmentParents }

theorem reviseLessons {rows : List Lesson} (same : rows.map Lesson.id = s.lessons.map Lesson.id)
    (sameParents : rows.map Lesson.chapterId = s.lessons.map Lesson.chapterId) :
    Intact { s with lessons := rows } :=
  { hi with
    lessonIds := same ▸ hi.lessonIds
    lessonParents := sameParents ▸ hi.lessonParents
    attachmentParents := same ▸ hi.attachmentParents }

theorem removeLesson {lessonId : String} {rows : List Lesson}
    (childless : ∀ a ∈ s.attachments, a.lessonId ≠ lessonId)
    (removed : Table.remove? (fun l => l.id = lessonId) s.lessons = some rows) :
    Intact { s with lessons := rows } :=
  { hi with
    lessonIds := Table.nodup_map_remove? hi.lessonIds removed
    lessonParents := List.Subset.trans ((Table.remove?_sublist removed).map _).subset hi.lessonParents
    attachmentParents := map_subset_remove? hi.attachmentParents childless removed }

theorem addAttachment {row : Attachment} {blobs : List Blob} (parent : row.lessonId ∈ s.lessons.map Lesson.id)
    (fresh : ∀ a ∈ s.attachments, a.id ≠ row.id ∧ a.storageKey ≠ row.storageKey) :
    Intact { s with attachments := s.attachments ++ [row], blobs } :=
  { hi with
    attachmentIds := Table.nodup_map_append hi.attachmentIds fun a ha => (fresh a ha).1
    storageKeys := Table.nodup_map_append hi.storageKeys fun a ha => (fresh a ha).2
    attachmentParents := map_append_subset hi.attachmentParents parent }

theorem removeAttachment {p : Attachment → Bool} {rows : List Attachment} {blobs : List Blob}
    (removed : Table.remove? p s.attachments = some rows) : Intact { s with attachments := rows, blobs } :=
  { hi with
    attachmentIds := Table.nodup_map_remove? hi.attachmentIds removed
    storageKeys := Table.nodup_map_remove? hi.storageKeys removed
    attachmentParents := List.Subset.trans ((Table.remove?_sublist removed).map _).subset hi.attachmentParents }

theorem addGrant {row : Grant} (fresh : s.hasGrant row.userId row.lessonId = false) :
    Intact { s with grants := s.grants ++ [row] } :=
  { hi with
    grantPairs := Table.nodup_map_append hi.grantPairs fun g hg he => by
      have hclash := List.any_eq_false.mp fresh g hg
      obtain ⟨huser, hlesson⟩ := Prod.mk.inj he
      simp [isGrantFor, huser, hlesson] at hclash }

end Intact

theorem Intact.outcome {op : Operation} {r : Except Failure op.Result} (hi : s.Intact)
    (h : op.Outcome m now id key s r t) : t.Intact := by
  cases h with
  | createCourse _ fresh => exact hi.addCourse fresh
  | updateCourse _ _ _ replaced =>
    -- the row is put in place of one with its own id
    exact hi.reviseCourses (Table.map_modify? replaced fun c hc => (of_decide_eq_true hc).symm)
  | deleteCourse childless removed => exact hi.removeCourse childless removed
  | addChapter _ parent fresh => exact hi.addChapter (mem_ids_of_find? parent) fresh
  | setChapterOrder changed =>
    exact hi.reviseChapters (Table.map_modify? changed fun _ _ => rfl) (Table.map_modify? changed fun _ _ => rfl)
  | deleteChapter childless removed => exact hi.removeChapter childless removed
  | addLesson _ parent fresh => exact hi.addLesson (mem_ids_of_find? parent) fresh
  | setLessonContent changed =>
    exact hi.reviseLessons (Table.map_modify? changed fun _ _ => rfl) (Table.map_modify? changed fun _ _ => rfl)
  | reorderLessons n r _ =>
    exact hi.reviseLessons (Lessons.map_assignAll (fun _ _ => rfl) ..) (Lessons.map_assignAll (fun _ _ => rfl) ..)
  | deleteLesson childless removed => exact hi.removeLesson childless removed
  | upload parent _ fresh => exact hi.addAttachment (mem_ids_of_find? parent) fresh
  | deleteAttachment _ removed _ => exact hi.removeAttachment removed
  | granted _ _ fresh => exact hi.addGrant fresh
  | uploadUndone _ _ => exact { hi with }
  | uploadStranded _ _ _ => exact { hi with }
  | _ => exact hi

end Store

namespace History

theorem serve_intact {h : History} (hi : h.store.Intact) (now : Timestamp) (op : Operation) :
    (h.serve now op).store.Intact := hi.outcome (serve_outcome (h.servesWithin_anything now op))

theorem serveAll_intact {h : History} (hi : h.store.Intact) (steps : List (Timestamp × Operation)) :
    (h.serveAll steps).store.Intact :=
  serveAll_induction (P := fun h => h.store.Intact) hi (fun _ now op hi => serve_intact hi now op) steps

/-- From the empty store on, the store is intact after any operations, whichever of their calls fail. -/
theorem store_stays_intact (ids keys : Nat → Uuid) (plan : List PlannedFault) (steps : List (Timestamp × Operation)) :
    ((start ids keys plan).serveAll steps).store.Intact :=
  serveAll_intact Store.intact_empty steps

end History

end Coursework
