import Coursework.Proofs.Integrity
import Coursework.Proofs.Reordering
import Mathlib.Data.List.Induction

/-!
# Origins of rows

For as long as a row is stored it keeps its id, its parent and the time at which it was made, and an attachment or a
grant keeps everything.  The parent is the one that the operation was asked for which made the row, whatever else came
with the request.
-/
namespace Coursework

def Course.origin (c : Course) : String × Timestamp := (c.id, c.createdAt)

def Chapter.origin (c : Chapter) : String × String × Timestamp := (c.id, c.courseId, c.createdAt)

def Lesson.origin (l : Lesson) : String × String × Timestamp := (l.id, l.chapterId, l.createdAt)

/-- Whose grant it is, and of which lesson. -/
def Grant.pair (g : Grant) : String × String := (g.userId, g.lessonId)

namespace Event

variable (e : Event) (now : Timestamp)

def MakesCourse (c : Course) : Prop := ∃ r, e = ⟨.createCourse r, .ok c⟩ ∧ c.createdAt = now

def MakesChapter (c : Chapter) : Prop := ∃ r, e = ⟨.addChapter c.courseId r, .ok c⟩ ∧ c.createdAt = now

def MakesLesson (l : Lesson) : Prop := ∃ r, e = ⟨.addLesson l.chapterId r, .ok l⟩ ∧ l.createdAt = now

def MakesAttachment (a : Attachment) : Prop :=
  ∃ rawName bytes, e = ⟨.upload a.lessonId rawName bytes, .ok a⟩ ∧ a.createdAt = now

def MakesGrant (g : Grant) : Prop :=
  ∃ rawUser, e = ⟨.grant rawUser g.lessonId, .ok true⟩ ∧ Text.trimmed rawUser = g.userId ∧ g.grantedAt = now

end Event

namespace Table

variable {α β κ : Type} {key : α → κ} {origin : α → β} {made : α → Prop} {rows rows' : List α}

/-- Every row has its origin from one that was there before, or was made under a new key. -/
def Stems (key : α → κ) (origin : α → β) (made : α → Prop) (rows rows' : List α) : Prop :=
  ∀ y ∈ rows', (∃ x ∈ rows, origin x = origin y) ∨ made y ∧ key y ∉ rows.map key

theorem Stems.refl (rows : List α) : Stems key origin made rows rows := fun y hy => Or.inl ⟨y, hy, rfl⟩

theorem Stems.remove {p : α → Bool} (removed : remove? p rows = some rows') : Stems key origin made rows rows' :=
  fun y hy => Or.inl ⟨y, (remove?_sublist removed).subset hy, rfl⟩

theorem Stems.edit (same : rows'.map origin = rows.map origin) : Stems key origin made rows rows' := by
  intro y hy
  have hmem := List.mem_map_of_mem (f := origin) hy
  rw [same] at hmem
  exact Or.inl (List.mem_map.mp hmem)

theorem Stems.add {row : α} (hmade : made row) (fresh : ∀ x ∈ rows, key x ≠ key row) :
    Stems key origin made rows (rows ++ [row]) := by
  intro y hy
  rcases List.mem_append.mp hy with hy | hy
  · exact Or.inl ⟨y, hy, rfl⟩
  · rw [List.mem_singleton.mp hy]
    exact Or.inr ⟨hmade, fun hmem => let ⟨x, hx, he⟩ := List.mem_map.mp hmem; fresh x hx he⟩

end Table

namespace Store

variable {m : Mishaps} {now : Timestamp} {id key : Uuid} {s t : Store} {op : Operation} {r : Except Failure op.Result}

theorem outcome_courses (unique : (s.courses.map Course.id).Nodup) (h : op.Outcome m now id key s r t) :
    Table.Stems Course.id Course.origin (Event.MakesCourse ⟨op, r⟩ now) s.courses t.courses := by
  cases h with
  | createCourse _ fresh => exact .add ⟨_, rfl, rfl⟩ fresh
  | @updateCourse _ r course _ _ _ _ found replaced =>
    -- the whole row is replaced, by one that was made out of the only row with this id
    refine .edit ?_
    rw [Table.modify?_eq_map unique replaced, List.map_map]
    refine List.map_congr_left fun c hc => ?_
    by_cases hid : c.id = course.id
    · rw [List.inj_on_of_nodup_map unique hc (List.mem_of_find?_eq_some found) hid]
      simp only [Function.comp, if_true]
      rfl
    · simp only [Function.comp, if_neg hid]
  | deleteCourse _ removed => exact .remove removed
  | _ => exact .refl _

theorem outcome_chapters (h : op.Outcome m now id key s r t) :
    Table.Stems Chapter.id Chapter.origin (Event.MakesChapter ⟨op, r⟩ now) s.chapters t.chapters := by
  cases h with
  | addChapter _ _ fresh => exact .add ⟨_, rfl, rfl⟩ fresh
  | setChapterOrder changed => exact .edit (Table.map_modify? changed fun _ _ => rfl)
  | deleteChapter _ removed => exact .remove removed
  | _ => exact .refl _

theorem outcome_lessons (h : op.Outcome m now id key s r t) :
    Table.Stems Lesson.id Lesson.origin (Event.MakesLesson ⟨op, r⟩ now) s.lessons t.lessons := by
  cases h with
  | addLesson _ _ fresh => exact .add ⟨_, rfl, rfl⟩ fresh
  | setLessonContent changed => exact .edit (Table.map_modify? changed fun _ _ => rfl)
  | reorderLessons n r _ => exact .edit (Lessons.map_assignAll (fun _ _ => rfl) ..)
  | deleteLesson _ removed => exact .remove removed
  | _ => exact .refl _

theorem outcome_attachments (h : op.Outcome m now id key s r t) :
    Table.Stems Attachment.id (fun a => a) (Event.MakesAttachment ⟨op, r⟩ now) s.attachments t.attachments := by
  cases h with
  | upload _ _ fresh => exact .add ⟨_, _, rfl, rfl⟩ fun a ha => (fresh a ha).1
  | deleteAttachment _ removed _ => exact .remove removed
  | _ => exact .refl _

theorem outcome_grantRows (h : op.Outcome m now id key s r t) :
    Table.Stems Grant.pair (fun g => g) (Event.MakesGrant ⟨op, r⟩ now) s.grants t.grants := by
  cases h with
  | granted _ _ fresh =>
    refine .add ⟨_, rfl, rfl, rfl⟩ fun g hg he => ?_
    have hclash := List.any_eq_false.mp fresh g hg
    obtain ⟨huser, hlesson⟩ := Prod.mk.inj he
    simp [isGrantFor, huser, hlesson] at hclash
  | _ => exact .refl _

end Store

namespace History

variable {α β κ : Type} {rows : Store → List α} {key : α → κ} {origin : α → β} {made : Event → Timestamp → α → Prop}
  {h : History} {k : κ} {now : Timestamp} {op : Operation} {steps : List (Timestamp × Operation)}

/-- At every point of a history, from its first to its last, a row with this key is stored. -/
def Stays (h : History) (rows : Store → List α) (key : α → κ) (k : κ) : List (Timestamp × Operation) → Prop
  | [] => k ∈ (rows h.store).map key
  | (now, op) :: steps => k ∈ (rows h.store).map key ∧ (h.serve now op).Stays rows key k steps

theorem Stays.first (hs : h.Stays rows key k steps) : k ∈ (rows h.store).map key := by
  cases steps with
  | nil => exact hs
  | cons step steps => exact hs.1

theorem Stays.append_step (hs : h.Stays rows key k steps)
    (last : k ∈ (rows ((h.serveAll steps).serve now op).store).map key) :
    h.Stays rows key k (steps ++ [(now, op)]) := by
  induction steps generalizing h with
  | nil => exact ⟨hs, last⟩
  | cons step steps ih => exact ⟨hs.1, ih hs.2 last⟩

/-- A row goes back to the step that made one of its origin, and one of its key has been stored ever since. -/
def GoesBack (h : History) (rows : Store → List α) (key : α → κ) (origin : α → β)
    (made : Event → Timestamp → α → Prop) (steps : List (Timestamp × Operation)) (y : α) : Prop :=
  ∃ past now op since x, steps = past ++ (now, op) :: since ∧ made ⟨op, (h.serveAll past).result now op⟩ now x ∧
    origin x = origin y ∧ ((h.serveAll past).serve now op).Stays rows key (key y) since

/-- A table with unique keys, in which no operation gives a row another origin. -/
structure Rooted (rows : Store → List α) (key : α → κ) (origin : α → β) (made : Event → Timestamp → α → Prop) :
    Prop where
  keyed : ∀ x y, origin x = origin y → key x = key y
  unique : ∀ s : Store, s.Intact → ((rows s).map key).Nodup
  step : ∀ (h : History) (now : Timestamp) (op : Operation), h.store.Intact →
    Table.Stems key origin (made ⟨op, h.result now op⟩ now) (rows h.store) (rows (h.serve now op).store)

namespace Rooted

variable (hr : Rooted rows key origin made)
include hr

theorem origin_stays (hi : h.store.Intact) {x y : α} (hx : x ∈ rows h.store) (hy : y ∈ rows (h.serveAll steps).store)
    (same : key y = key x) (hs : h.Stays rows key (key x) steps) : origin y = origin x := by
  induction steps generalizing h x with
  | nil => exact congrArg origin (List.inj_on_of_nodup_map (hr.unique h.store hi) hy hx same)
  | cons step steps ih =>
    obtain ⟨now, op⟩ := step
    obtain ⟨z, hz, hzx⟩ := List.mem_map.mp hs.2.first
    -- the row that has the key after the step can only come from the one that had it before
    have hfrom : origin z = origin x := by
      rcases hr.step h now op hi z hz with ⟨x', hx', ho⟩ | ⟨-, hnew⟩
      · have hkey : key x' = key x := (hr.keyed x' z ho).trans hzx
        rw [← ho, List.inj_on_of_nodup_map (hr.unique h.store hi) hx' hx hkey]
      · exact absurd (hzx ▸ List.mem_map_of_mem hx) hnew
    have hrest := ih (serve_intact hi now op) hz hy (same.trans hzx.symm) (hzx.symm ▸ hs.2)
    exact hrest.trans hfrom

theorem goesBack (hi : h.store.Intact) (first : rows h.store = []) (steps : List (Timestamp × Operation)) :
    ∀ y ∈ rows (h.serveAll steps).store, h.GoesBack rows key origin made steps y := by
  induction steps using List.reverseRecOn with
  | nil =>
    intro y hy
    rw [show rows (h.serveAll []).store = [] from first] at hy
    cases hy
  | append_singleton steps step ih =>
    obtain ⟨now, op⟩ := step
    intro y hy
    rw [serveAll_append] at hy
    rcases hr.step (h.serveAll steps) now op (serveAll_intact hi steps) y hy with ⟨x, hx, ho⟩ | ⟨hmade, -⟩
    · obtain ⟨past, now', op', since, z, rfl, hmade, hz, hs⟩ := ih x hx
      refine ⟨past, now', op', since ++ [(now, op)], z, by simp, hmade, hz.trans ho, ?_⟩
      rw [hr.keyed x y ho] at hs
      refine hs.append_step ?_
      rw [serveAll_append] at hy
      exact List.mem_map_of_mem hy
    · exact ⟨steps, now, op, [], y, rfl, hmade, rfl, List.mem_map_of_mem hy⟩

end Rooted

theorem courses_rooted : Rooted Store.courses Course.id Course.origin Event.MakesCourse where
  keyed _ _ ho := (Prod.mk.inj ho).1
  unique _ hi := hi.courseIds
  step h now op hi := Store.outcome_courses hi.courseIds (serve_outcome (h.servesWithin_anything now op))

theorem chapters_rooted : Rooted Store.chapters Chapter.id Chapter.origin Event.MakesChapter where
  keyed _ _ ho := (Prod.mk.inj ho).1
  unique _ hi := hi.chapterIds
  step h now op _ := Store.outcome_chapters (serve_outcome (h.servesWithin_anything now op))

theorem lessons_rooted : Rooted Store.lessons Lesson.id Lesson.origin Event.MakesLesson where
  keyed _ _ ho := (Prod.mk.inj ho).1
  unique _ hi := hi.lessonIds
  step h now op _ := Store.outcome_lessons (serve_outcome (h.servesWithin_anything now op))

theorem attachments_rooted : Rooted Store.attachments Attachment.id (fun a => a) Event.MakesAttachment where
  keyed _ _ ho := congrArg Attachment.id ho
  unique _ hi := hi.attachmentIds
  step h now op _ := Store.outcome_attachments (serve_outcome (h.servesWithin_anything now op))

theorem grants_rooted : Rooted Store.grants Grant.pair (fun g => g) Event.MakesGrant where
  keyed _ _ ho := congrArg Grant.pair ho
  unique _ hi := hi.grantPairs
  step h now op _ := Store.outcome_grantRows (serve_outcome (h.servesWithin_anything now op))

/-- A row that stays stored along the steps keeps its id, its parent and the time at which it was made; an attachment
and a grant keep everything. -/
structure KeepsOrigins (h : History) (steps : List (Timestamp × Operation)) : Prop where
  courses : ∀ x ∈ h.store.courses, ∀ y ∈ (h.serveAll steps).store.courses, y.id = x.id →
    h.Stays Store.courses Course.id x.id steps → y.createdAt = x.createdAt
  chapters : ∀ x ∈ h.store.chapters, ∀ y ∈ (h.serveAll steps).store.chapters, y.id = x.id →
    h.Stays Store.chapters Chapter.id x.id steps → y.courseId = x.courseId ∧ y.createdAt = x.createdAt
  lessons : ∀ x ∈ h.store.lessons, ∀ y ∈ (h.serveAll steps).store.lessons, y.id = x.id →
    h.Stays Store.lessons Lesson.id x.id steps → y.chapterId = x.chapterId ∧ y.createdAt = x.createdAt
  attachments : ∀ x ∈ h.store.attachments, ∀ y ∈ (h.serveAll steps).store.attachments, y.id = x.id →
    h.Stays Store.attachments Attachment.id x.id steps → y = x
  grants : ∀ x ∈ h.store.grants, ∀ y ∈ (h.serveAll steps).store.grants, y.pair = x.pair →
    h.Stays Store.grants Grant.pair x.pair steps → y = x

/-- Every row that is stored at the end was made by one of the steps, and has been stored ever since. -/
structure MakesAll (h : History) (steps : List (Timestamp × Operation)) : Prop where
  courses : ∀ y ∈ (h.serveAll steps).store.courses,
    h.GoesBack Store.courses Course.id Course.origin Event.MakesCourse steps y
  chapters : ∀ y ∈ (h.serveAll steps).store.chapters,
    h.GoesBack Store.chapters Chapter.id Chapter.origin Event.MakesChapter steps y
  lessons : ∀ y ∈ (h.serveAll steps).store.lessons,
    h.GoesBack Store.lessons Lesson.id Lesson.origin Event.MakesLesson steps y
  attachments : ∀ y ∈ (h.serveAll steps).store.attachments,
    h.GoesBack Store.attachments Attachment.id (fun a => a) Event.MakesAttachment steps y
  grants : ∀ y ∈ (h.serveAll steps).store.grants,
    h.GoesBack Store.grants Grant.pair (fun g => g) Event.MakesGrant steps y

theorem keepsOrigins (hi : h.store.Intact) (steps : List (Timestamp × Operation)) : h.KeepsOrigins steps where
  courses _ hx _ hy same hs := (Prod.mk.inj (courses_rooted.origin_stays hi hx hy same hs)).2
  chapters _ hx _ hy same hs := Prod.mk.inj (Prod.mk.inj (chapters_rooted.origin_stays hi hx hy same hs)).2
  lessons _ hx _ hy same hs := Prod.mk.inj (Prod.mk.inj (lessons_rooted.origin_stays hi hx hy same hs)).2
  attachments _ hx _ hy same hs := attachments_rooted.origin_stays hi hx hy same hs
  grants _ hx _ hy same hs := grants_rooted.origin_stays hi hx hy same hs

theorem makesAll (ids keys : Nat → Uuid) (plan : List PlannedFault) (steps : List (Timestamp × Operation)) :
    (start ids keys plan).MakesAll steps where
  courses := courses_rooted.goesBack Store.intact_empty rfl steps
  chapters := chapters_rooted.goesBack Store.intact_empty rfl steps
  lessons := lessons_rooted.goesBack Store.intact_empty rfl steps
  attachments := attachments_rooted.goesBack Store.intact_empty rfl steps
  grants := grants_rooted.goesBack Store.intact_empty rfl steps

end History

end Coursework
