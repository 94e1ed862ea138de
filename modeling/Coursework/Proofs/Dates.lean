import Coursework.Proofs.Calls
import Coursework.Proofs.Instants
import Coursework.Proofs.Origins

/-!
# Dates of change

A course, a chapter and a lesson bear the time of the last step that wrote to them, and a row that nothing wrote to is
as it was.  Which steps wrote to it is told by the calls that were made, so that a reordering that stops half-way counts
for the lessons that it came to, and for no other.
-/
namespace Coursework

open Program

namespace Call

/-- The course that a call writes to. -/
def course? : Call → Option String
  | addCourse row | replaceCourse row => some row.id
  | _ => none

/-- The chapter that a call writes to. -/
def chapter? : Call → Option String
  | addChapter row => some row.id
  | orderChapter id _ _ => some id
  | _ => none

/-- The lesson that a call writes to. -/
def lesson? : Call → Option String
  | addLesson row => some row.id
  | fillLesson id _ _ | orderLesson id _ _ => some id
  | _ => none

end Call

/-- The row that was written to, where the call succeeded. -/
def Exchange.written? (target? : Call → Option String) : Exchange → Option String
  | ⟨c, .ok _⟩ => target? c
  | ⟨_, .error _⟩ => none

/-- The time of the last write to a row, by the calls on record and their times. -/
def lastWritten? (target? : Call → Option String) (record : List (Timestamp × Exchange)) (id : String) :
    Option Timestamp :=
  (record.filter fun (_, e) => e.written? target? = some id).getLast?.map Prod.fst

section

variable {target? : Call → Option String} {record : List (Timestamp × Exchange)} {now : Timestamp} {e : Exchange}

theorem lastWritten?_append (id : String) : lastWritten? target? (record ++ [(now, e)]) id =
    if e.written? target? = some id then some now else lastWritten? target? record id := by
  by_cases h : e.written? target? = some id
  · simp [lastWritten?, List.filter_append, h]
  · simp [lastWritten?, List.filter_append, h]

end

theorem Exchange.written?_read {c : Call} (hc : c.isRead = true) (r : Except Failure c.Answer) :
    written? Call.course? ⟨c, r⟩ = none ∧ written? Call.chapter? ⟨c, r⟩ = none ∧
      written? Call.lesson? ⟨c, r⟩ = none := by
  cases r with
  | error e => exact ⟨rfl, rfl, rfl⟩
  | ok x => cases c <;> first | exact ⟨rfl, rfl, rfl⟩ | cases hc

namespace Table

variable {α : Type} {key : α → String} {changed : α → Timestamp} {now : Timestamp} {written : Option String}
  {target? : Call → Option String} {record : List (Timestamp × Exchange)} {e : Exchange}
  {first rows rows' : List α}

/-- The rows were there before, but for the one that was written to, which bears the time. -/
def Touched (key : α → String) (changed : α → Timestamp) (now : Timestamp) (written : Option String)
    (rows rows' : List α) : Prop :=
  ∀ x ∈ rows', if written = some (key x) then changed x = now else x ∈ rows

theorem Touched.untouched (h : rows' ⊆ rows) : Touched key changed now none rows rows' := by
  intro x hx
  rw [if_neg (by simp)]
  exact h hx

theorem Touched.add {row : α} (fresh : ∀ x ∈ rows, key row ≠ key x) (hrow : changed row = now) :
    Touched key changed now (some (key row)) rows (rows ++ [row]) := by
  intro x hx
  rcases List.mem_append.mp hx with hx | hx
  · rw [if_neg fun h => fresh x hx (Option.some.inj h)]
    exact hx
  · rw [List.mem_singleton.mp hx, if_pos rfl]
    exact hrow

theorem Touched.edit {k : String} {f : α → α} {y : α} (unique : (rows.map key).Nodup)
    (edited : modify? (fun x => key x = k) f rows = some (y, rows')) (hkey : ∀ x, key x = k → key (f x) = k)
    (hchanged : ∀ x, changed (f x) = now) : Touched key changed now (some k) rows rows' := by
  rw [modify?_eq_map unique edited]
  intro x hx
  obtain ⟨x', hx', rfl⟩ := List.mem_map.mp hx
  by_cases hk : key x' = k
  · rw [if_pos hk, if_pos (congrArg some (hkey x' hk).symm)]
    exact hchanged x'
  · rw [if_neg hk, if_neg fun h => hk (Option.some.inj h).symm]
    exact hx'

/-- Rows bear the times of the last writes on record, and those that were not written to are as they were at first. -/
def Dated (key : α → String) (changed : α → Timestamp) (target? : Call → Option String) (first : List α)
    (record : List (Timestamp × Exchange)) (rows : List α) : Prop :=
  ∀ x ∈ rows, match lastWritten? target? record (key x) with
    | some time => changed x = time
    | none => x ∈ first

theorem dated_first (rows : List α) : Dated key changed target? rows [] rows := fun _ hx => hx

theorem Dated.call (h : Dated key changed target? first record rows)
    (touched : Touched key changed now (e.written? target?) rows rows') :
    Dated key changed target? first (record ++ [(now, e)]) rows' := by
  intro x hx
  have hx' := touched x hx
  rw [lastWritten?_append]
  by_cases hw : e.written? target? = some (key x)
  · simpa [hw] using hx'
  · rw [if_neg hw] at hx' ⊢
    exact h x hx'

/-- What was not there at first bears the time of a write on record. -/
theorem Dated.stamped (h : Dated key changed target? [] record rows) {x : α} (hx : x ∈ rows) :
    lastWritten? target? record (key x) = some (changed x) := by
  have hdated := h x hx
  cases hlast : lastWritten? target? record (key x) with
  | some time =>
    rw [hlast] at hdated
    exact congrArg some hdated.symm
  | none =>
    rw [hlast] at hdated
    cases hdated

end Table

namespace Store

variable {m : Mishaps} {s t first : Store} {now : Timestamp} {op : Operation} {past : List Exchange} {c : Call}
  {r : Except Failure c.Answer} {record : List (Timestamp × Exchange)}

/-- No two courses, chapters or lessons have the same id. -/
structure Distinct (s : Store) : Prop where
  courses : (s.courses.map Course.id).Nodup
  chapters : (s.chapters.map Chapter.id).Nodup
  lessons : (s.lessons.map Lesson.id).Nodup

theorem Intact.distinct (h : s.Intact) : s.Distinct := ⟨h.courseIds, h.chapterIds, h.lessonIds⟩

theorem Distinct.effect (h : s.Distinct) (heffect : s.Effect m c r t) : t.Distinct := by
  cases heffect with
  | addedCourse fresh => exact { h with courses := Table.nodup_map_append h.courses fun c hc => (fresh c hc).symm }
  | replacedCourse replaced =>
    exact { h with courses := Table.map_modify? replaced (fun c hc => (of_decide_eq_true hc).symm) ▸ h.courses }
  | removedCourse removed => exact { h with courses := Table.nodup_map_remove? h.courses removed }
  | addedChapter fresh => exact { h with chapters := Table.nodup_map_append h.chapters fun c hc => (fresh c hc).symm }
  | orderedChapter changed =>
    exact { h with chapters := Table.map_modify? (g := Chapter.id) changed (fun _ _ => rfl) ▸ h.chapters }
  | removedChapter removed => exact { h with chapters := Table.nodup_map_remove? h.chapters removed }
  | addedLesson fresh => exact { h with lessons := Table.nodup_map_append h.lessons fun l hl => (fresh l hl).symm }
  | filledLesson changed | orderedLesson changed =>
    exact { h with lessons := Table.map_modify? (g := Lesson.id) changed (fun _ _ => rfl) ▸ h.lessons }
  | removedLesson removed => exact { h with lessons := Table.nodup_map_remove? h.lessons removed }
  | _ => exact { h with }

/-- What one call has written to bears the time of its step, and the rest of the three tables was there before. -/
structure Touches (now : Timestamp) (e : Exchange) (s t : Store) : Prop where
  courses : Table.Touched Course.id Course.updatedAt now (e.written? Call.course?) s.courses t.courses
  chapters : Table.Touched Chapter.id Chapter.updatedAt now (e.written? Call.chapter?) s.chapters t.chapters
  lessons : Table.Touched Lesson.id Lesson.updatedAt now (e.written? Call.lesson?) s.lessons t.lessons

theorem effect_touches (hd : s.Distinct) (hmay : Operation.MayCall now op past c) (heffect : s.Effect m c r t) :
    Touches now ⟨c, r⟩ s t := by
  have still {α : Type} {key : α → String} {changed : α → Timestamp} {rows : List α} :
      Table.Touched key changed now none rows rows := .untouched (List.Subset.refl rows)
  cases heffect with
  | failed c e _ => exact ⟨still, still, still⟩
  | read hc =>
    obtain ⟨hcourse, hchapter, hlesson⟩ := Exchange.written?_read hc (s.apply c).1
    constructor
    · rw [hcourse]
      exact still
    · rw [hchapter]
      exact still
    · rw [hlesson]
      exact still
  | addedCourse fresh =>
    cases hmay with
    | read hread => cases hread
    | addCourse id => exact ⟨.add fresh rfl, still, still⟩
  | replacedCourse replaced =>
    cases hmay with
    | read hread => cases hread
    | replaceCourse _ => exact ⟨.edit hd.courses replaced (fun _ _ => rfl) fun _ => rfl, still, still⟩
  | removedCourse removed => exact ⟨.untouched (Table.remove?_sublist removed).subset, still, still⟩
  | addedChapter fresh =>
    cases hmay with
    | read hread => cases hread
    | addChapter id _ => exact ⟨still, .add fresh rfl, still⟩
  | orderedChapter changed =>
    cases hmay with
    | read hread => cases hread
    | orderChapter => exact ⟨still, .edit hd.chapters changed (fun _ hk => hk) fun _ => rfl, still⟩
  | removedChapter removed => exact ⟨still, .untouched (Table.remove?_sublist removed).subset, still⟩
  | addedLesson fresh =>
    cases hmay with
    | read hread => cases hread
    | addLesson id _ => exact ⟨still, still, .add fresh rfl⟩
  | filledLesson changed =>
    cases hmay with
    | read hread => cases hread
    | fillLesson => exact ⟨still, still, .edit hd.lessons changed (fun _ hk => hk) fun _ => rfl⟩
  | orderedLesson changed =>
    cases hmay with
    | read hread => cases hread
    | orderLesson _ _ _ => exact ⟨still, still, .edit hd.lessons changed (fun _ hk => hk) fun _ => rfl⟩
  | removedLesson removed => exact ⟨still, still, .untouched (Table.remove?_sublist removed).subset⟩
  | cleared r blobs => cases r <;> exact ⟨still, still, still⟩
  | _ => exact ⟨still, still, still⟩

/-- The courses, chapters and lessons bear the times of the last writes on record; where there is none, they are rows
of the first store. -/
structure Dated (first : Store) (record : List (Timestamp × Exchange)) (s : Store) : Prop where
  courses : Table.Dated Course.id Course.updatedAt Call.course? first.courses record s.courses
  chapters : Table.Dated Chapter.id Chapter.updatedAt Call.chapter? first.chapters record s.chapters
  lessons : Table.Dated Lesson.id Lesson.updatedAt Call.lesson? first.lessons record s.lessons

theorem dated_first (s : Store) : Dated s [] s :=
  ⟨Table.dated_first s.courses, Table.dated_first s.chapters, Table.dated_first s.lessons⟩

theorem Dated.call {e : Exchange} (h : Dated first record s) (touches : Touches now e s t) :
    Dated first (record ++ [(now, e)]) t where
  courses := h.courses.call touches.courses
  chapters := h.chapters.call touches.chapters
  lessons := h.lessons.call touches.lessons

end Store

/-- What holds of the exchanges so far and the store, and is kept by every call that a program may make, holds at its
end. -/
theorem Backend.run_induction {α : Type} {P : List Exchange → Store → Prop} {may : List Exchange → Call → Prop}
    {ends : List Exchange → Except Failure α → Prop} {past : List Exchange} {p : Program α} {b : Backend}
    (hp : p.Keeps may ends past) (first : P past b.store)
    (step : ∀ past s c r t, may past c → s.Answers .anything c r t → P past s → P (past ++ [⟨c, r⟩]) t) :
    P (past ++ b.exchanges p) (b.run p).2.store := by
  induction p generalizing past b with
  | done r => simpa [exchanges, run] using first
  | call c next ih =>
    obtain ⟨store, plan, armed, he, -, hr⟩ := perform_replies b.allows_anything c
    have hs : (b.perform c).2.store = store := by rw [he]; rfl
    have hnext : P (past ++ [⟨c, (b.perform c).1⟩]) (b.perform c).2.store :=
      hs ▸ step past b.store c _ store hp.1 hr first
    simpa [exchanges, run] using ih _ (hp.2 (b.perform c).1) hnext
  | drawId next ih => exact ih _ (hp (b.ids b.idsDrawn)) first
  | drawKey next ih => exact ih _ (hp (b.keys b.keysDrawn)) first

namespace History

variable {h : History} {first : Store} {log : List (Timestamp × Exchange)}

/-- The calls of one step, with its time. -/
def stepRecord (h : History) (now : Timestamp) (op : Operation) : List (Timestamp × Exchange) :=
  (h.backend.nextStep.exchanges (op.program now)).map fun e => (now, e)

/-- The calls of all steps, each with the time of its step. -/
def record (h : History) : List (Timestamp × Operation) → List (Timestamp × Exchange)
  | [] => []
  | (now, op) :: steps => h.stepRecord now op ++ (h.serve now op).record steps

theorem serve_dated (hi : h.store.Intact) (hd : Store.Dated first log h.store) (now : Timestamp) (op : Operation) :
    Store.Dated first (log ++ h.stepRecord now op) (h.serve now op).store := by
  have hstart : h.store.Distinct ∧ Store.Dated first (log ++ [].map fun e => (now, e)) h.store :=
    ⟨hi.distinct, by simpa using hd⟩
  have hrun := Backend.run_induction (b := h.backend.nextStep)
    (P := fun past s => s.Distinct ∧ Store.Dated first (log ++ past.map fun e => (now, e)) s)
    (Operation.program_keeps now op) hstart fun past s c r t hmay hanswer ⟨hdistinct, hdated⟩ => by
      refine ⟨hdistinct.effect hanswer.effect, ?_⟩
      rw [List.map_append, ← List.append_assoc]
      exact hdated.call (Store.effect_touches hdistinct hmay hanswer.effect)
  exact hrun.2

theorem serveAll_dated (hi : h.store.Intact) (hd : Store.Dated first log h.store)
    (steps : List (Timestamp × Operation)) : Store.Dated first (log ++ h.record steps) (h.serveAll steps).store := by
  induction steps generalizing h log with
  | nil => simpa [History.record, serveAll] using hd
  | cons step steps ih =>
    have hrest := ih (serve_intact hi step.1 step.2) (serve_dated hi hd step.1 step.2)
    rwa [List.append_assoc] at hrest

end History

namespace Event

/-- A course as a step has made or changed it. -/
inductive WritesCourse : Event → Course → Prop
  | created {r : NewCourse} {c : Course} : WritesCourse ⟨.createCourse r, .ok c⟩ c
  | updated {id : String} {r : CourseUpdate} {c : Course} (named : c.id = id) :
      WritesCourse ⟨.updateCourse id r, .ok c⟩ c

/-- A chapter as a step has made or changed it. -/
inductive WritesChapter : Event → Chapter → Prop
  | added {courseId : String} {r : NewChapter} {c : Chapter} (parent : c.courseId = courseId) :
      WritesChapter ⟨.addChapter courseId r, .ok c⟩ c
  | ordered {id : String} {order : Int32} {c : Chapter} (named : c.id = id) :
      WritesChapter ⟨.setChapterOrder id order, .ok c⟩ c

/-- A lesson as a step has made or changed it; a reordering may have failed after that. -/
inductive WritesLesson : Event → Lesson → Prop
  | added {chapterId : String} {r : NewLesson} {l : Lesson} (parent : l.chapterId = chapterId) :
      WritesLesson ⟨.addLesson chapterId r, .ok l⟩ l
  | filled {id content : String} {l : Lesson} (named : l.id = id) :
      WritesLesson ⟨.setLessonContent id content, .ok l⟩ l
  | reordered {chapterId : String} {ids : List String} {r : Except Failure Unit} {l : Lesson}
      (parent : l.chapterId = chapterId) (listed : l.id ∈ ids) : WritesLesson ⟨.reorderLessons chapterId ids, r⟩ l

end Event

namespace Lessons

variable {now : Timestamp} {known ids : List String} {n : Nat} {l : Lesson}

theorem placed_of_unlisted (h : l.id ∉ ids) : placed now known n ids l = l := by
  rw [placed, lastPlace?_eq_none.mpr h]

theorem placed_of_unknown (h : l.id ∉ known) : placed now known n ids l = l := by
  unfold placed
  split
  · rw [if_neg h]
  · rfl

end Lessons

namespace Store

variable {m : Mishaps} {now : Timestamp} {id key : Uuid} {s t : Store} {op : Operation} {r : Except Failure op.Result}

theorem written_course (h : op.Outcome m now id key s r t) :
    ∀ c ∈ t.courses, c ∈ s.courses ∨ Event.WritesCourse ⟨op, r⟩ c := by
  cases h with
  | createCourse _ _ =>
    intro c hc
    refine (List.mem_append.mp hc).imp_right fun hc => ?_
    rw [List.mem_singleton.mp hc]
    exact .created
  | @updateCourse courseId r course _ _ _ _ found replaced =>
    intro c hc
    refine (Table.mem_modify? replaced hc).imp_right fun ⟨hrow, _, _, _, hrevised⟩ => ?_
    obtain rfl := hrow.trans hrevised
    exact .updated (id_of_course? found : course.id = courseId)
  | deleteCourse _ removed => exact fun c hc => Or.inl ((Table.remove?_sublist removed).subset hc)
  | _ => exact fun c hc => Or.inl hc

theorem written_chapter (h : op.Outcome m now id key s r t) :
    ∀ c ∈ t.chapters, c ∈ s.chapters ∨ Event.WritesChapter ⟨op, r⟩ c := by
  cases h with
  | addChapter _ _ _ =>
    intro c hc
    refine (List.mem_append.mp hc).imp_right fun hc => ?_
    rw [List.mem_singleton.mp hc]
    exact .added rfl
  | setChapterOrder changed =>
    intro c hc
    refine (Table.mem_modify? changed hc).imp_right fun ⟨hrow, z, _, hz, hordered⟩ => ?_
    rw [← hrow]
    exact .ordered ((congrArg Chapter.id (hrow.trans hordered)).trans (of_decide_eq_true hz))
  | deleteChapter _ removed => exact fun c hc => Or.inl ((Table.remove?_sublist removed).subset hc)
  | _ => exact fun c hc => Or.inl hc

theorem reordered_lesson {chapterId : String} {ids : List String} {n : Nat} {r : Except Failure Unit}
    (unique : (s.lessons.map Lesson.id).Nodup) :
    ∀ l ∈ Lessons.assignAll now ((s.lessonsOf chapterId).map Lesson.id) 1 (ids.take n) s.lessons,
      l ∈ s.lessons ∨ Event.WritesLesson ⟨.reorderLessons chapterId ids, r⟩ l := by
  rw [Lessons.assignAll_eq_map unique]
  intro l hl
  obtain ⟨old, hold, rfl⟩ := List.mem_map.mp hl
  by_cases hlisted : old.id ∈ ids.take n
  · by_cases hknown : old.id ∈ (s.lessonsOf chapterId).map Lesson.id
    · obtain ⟨same, hsame, hid⟩ := List.mem_map.mp hknown
      obtain ⟨hmem, hchapter⟩ := mem_lessonsOf.mp hsame
      rw [List.inj_on_of_nodup_map unique hmem hold hid] at hchapter
      refine Or.inr (.reordered ((Lessons.placed_chapterId old).trans hchapter) ?_)
      rw [Lessons.placed_id]
      exact List.mem_of_mem_take hlisted
    · rw [Lessons.placed_of_unknown hknown]
      exact Or.inl hold
  · rw [Lessons.placed_of_unlisted hlisted]
    exact Or.inl hold

theorem written_lesson (unique : (s.lessons.map Lesson.id).Nodup) (h : op.Outcome m now id key s r t) :
    ∀ l ∈ t.lessons, l ∈ s.lessons ∨ Event.WritesLesson ⟨op, r⟩ l := by
  cases h with
  | addLesson _ _ _ =>
    intro l hl
    refine (List.mem_append.mp hl).imp_right fun hl => ?_
    rw [List.mem_singleton.mp hl]
    exact .added rfl
  | setLessonContent changed =>
    intro l hl
    refine (Table.mem_modify? changed hl).imp_right fun ⟨hrow, z, _, hz, hfilled⟩ => ?_
    rw [← hrow]
    exact .filled ((congrArg Lesson.id (hrow.trans hfilled)).trans (of_decide_eq_true hz))
  | reorderLessons n r _ => exact reordered_lesson unique
  | deleteLesson _ removed => exact fun l hl => Or.inl ((Table.remove?_sublist removed).subset hl)
  | _ => exact fun l hl => Or.inl hl

end Store

namespace History

/-- A step leaves every course, chapter and lesson alone but those that it makes, and those that it is about when it
succeeds; a reordering may have come to some of its lessons before it failed. -/
structure WritesItsOwn (h : History) (now : Timestamp) (op : Operation) : Prop where
  courses : ∀ c ∈ (h.serve now op).store.courses,
    c ∈ h.store.courses ∨ Event.WritesCourse ⟨op, h.result now op⟩ c
  chapters : ∀ c ∈ (h.serve now op).store.chapters,
    c ∈ h.store.chapters ∨ Event.WritesChapter ⟨op, h.result now op⟩ c
  lessons : ∀ l ∈ (h.serve now op).store.lessons,
    l ∈ h.store.lessons ∨ Event.WritesLesson ⟨op, h.result now op⟩ l

/-- Every course, chapter and lesson bears the time of the last step that wrote to it. -/
structure Stamped (h : History) (steps : List (Timestamp × Operation)) : Prop where
  courses : ∀ c ∈ (h.serveAll steps).store.courses,
    lastWritten? Call.course? (h.record steps) c.id = some c.updatedAt
  chapters : ∀ c ∈ (h.serveAll steps).store.chapters,
    lastWritten? Call.chapter? (h.record steps) c.id = some c.updatedAt
  lessons : ∀ l ∈ (h.serveAll steps).store.lessons,
    lastWritten? Call.lesson? (h.record steps) l.id = some l.updatedAt

theorem writesItsOwn {h : History} (hi : h.store.Intact) (now : Timestamp) (op : Operation) :
    h.WritesItsOwn now op where
  courses := Store.written_course (serve_outcome (h.servesWithin_anything now op))
  chapters := Store.written_chapter (serve_outcome (h.servesWithin_anything now op))
  lessons := Store.written_lesson hi.lessonIds (serve_outcome (h.servesWithin_anything now op))

theorem stamped (ids keys : Nat → Uuid) (plan : List PlannedFault) (steps : List (Timestamp × Operation)) :
    (start ids keys plan).Stamped steps := by
  have hdated := serveAll_dated (h := start ids keys plan) Store.intact_empty (Store.dated_first .empty) steps
  rw [List.nil_append] at hdated
  exact ⟨fun _ hc => hdated.courses.stamped hc, fun _ hc => hdated.chapters.stamped hc,
    fun _ hl => hdated.lessons.stamped hl⟩

/-- In every run from the empty store, whatever fails on the way and whatever the clock says: rows that stay stored keep
their ids, parents and times of creation, and attachments and grants keep everything; every row was made by a step under
the parent that its operation named; courses, chapters and lessons bear the time of the last step that wrote to them,
and are as they were where no call wrote to them, which only the steps do that are about them; and times survive being
kept as texts. -/
theorem rows_keep_origins_and_dates (ids keys : Nat → Uuid) (plan : List PlannedFault)
    (before between : List (Timestamp × Operation)) :
    (start ids keys plan).MakesAll before ∧
      (start ids keys plan).Stamped before ∧
      ((start ids keys plan).serveAll before).KeepsOrigins between ∧
      Store.Dated ((start ids keys plan).serveAll before).store
        (((start ids keys plan).serveAll before).record between)
        (((start ids keys plan).serveAll before).serveAll between).store ∧
      (∀ now op, ((start ids keys plan).serveAll before).WritesItsOwn now op) ∧
      ∀ time : Timestamp, Timestamp.parse time.text = .ok time := by
  have hi := store_stays_intact ids keys plan before
  refine ⟨makesAll ids keys plan before, stamped ids keys plan before, keepsOrigins hi between, ?_,
    fun now op => writesItsOwn hi now op, Timestamp.parse_text⟩
  have hdated := serveAll_dated hi (Store.dated_first _) between
  rwa [List.nil_append] at hdated

/-- Two lessons of two chapters are made at one time, and the first is reordered at another: it is listed twice, and
cannot be written the second time. -/
def halfReordering : List (Timestamp × Operation) :=
  [(sampleTime, .createCourse ⟨"Logic", ""⟩),
    (sampleTime, .addChapter (Uuid.numbered 0).text ⟨"Sets", "", 1, none⟩),
    (sampleTime, .addChapter (Uuid.numbered 0).text ⟨"Orders", "", 2, none⟩),
    (sampleTime, .addLesson (Uuid.numbered 1).text ⟨"Unions", "", "", 1, none⟩),
    (sampleTime, .addLesson (Uuid.numbered 2).text ⟨"Chains", "", "", 1, none⟩),
    (.ofUnix 60, .reorderLessons (Uuid.numbered 1).text [(Uuid.numbered 3).text, (Uuid.numbered 3).text])]

abbrev sampleRefused : History := start .numbered .numbered [⟨.orderLesson, 1, .refusal (.database "lost")⟩]

/-- The reordering counts for the lesson that it came to, and for no other. -/
theorem rows_keep_origins_and_dates_sample :
    ∀ l ∈ (sampleRefused.serveAll halfReordering).store.lessons,
      l.updatedAt = if l.id = (Uuid.numbered 3).text then .ofUnix 60 else sampleTime := by
  obtain ⟨-, hstamped, -⟩ := rows_keep_origins_and_dates .numbered .numbered
    [⟨.orderLesson, 1, .refusal (.database "lost")⟩] halfReordering []
  have hids : (sampleRefused.serveAll halfReordering).store.lessons.map Lesson.id =
      [(Uuid.numbered 3).text, (Uuid.numbered 4).text] := by decide +kernel
  have hlate : lastWritten? Call.lesson? (sampleRefused.record halfReordering) (Uuid.numbered 3).text =
      some (.ofUnix 60) := by decide +kernel
  have hearly : lastWritten? Call.lesson? (sampleRefused.record halfReordering) (Uuid.numbered 4).text =
      some sampleTime := by decide +kernel
  intro l hl
  have hdate := hstamped.lessons l hl
  have hid : l.id ∈ [(Uuid.numbered 3).text, (Uuid.numbered 4).text] := hids ▸ List.mem_map_of_mem hl
  rcases List.mem_cons.mp hid with hid | hid
  · rw [hid, hlate] at hdate
    rw [if_pos hid]
    exact (Option.some.inj hdate).symm
  · have hid := List.mem_singleton.mp hid
    have hother : (Uuid.numbered 4).text ≠ (Uuid.numbered 3).text := by decide +kernel
    rw [hid, hearly] at hdate
    rw [hid, if_neg hother]
    exact (Option.some.inj hdate).symm

end History

end Coursework
