import Coursework.Proofs.Completions
import Coursework.Proofs.Replays

/-!
# Last writes

Every write to a row but one sets a single field.  The one that replaces a course takes what it does not set from the
row as it was read, and nothing else changes that.  So no write is lost to a stale copy, whichever operations meet:
every row ends with what was last written to each of its fields.
-/
namespace Coursework

namespace Exchange

/-- Whether an exchange is none of the writes to rows that are there. -/
structure Silent (e : Exchange) : Prop where
  content : e.content? = none
  lessonOrder : e.lessonOrder? = none
  lessonRemoval : e.lessonRemoval? = none
  chapterOrder : e.chapterOrder? = none
  chapterRemoval : e.chapterRemoval? = none
  details : e.details? = none
  courseRemoval : e.courseRemoval? = none

theorem error_silent (c : Call) (e : Failure) : Silent ⟨c, .error e⟩ := by
  cases c <;> exact ⟨rfl, rfl, rfl, rfl, rfl, rfl, rfl⟩

theorem read_silent {c : Call} (hc : c.isRead = true) (r : Except Failure c.Answer) : Silent ⟨c, r⟩ := by
  cases c <;> first | exact ⟨rfl, rfl, rfl, rfl, rfl, rfl, rfl⟩ | cases hc

end Exchange

open Exchange Traffic

variable {m : Mishaps} {s t : Store} {log : List (Nat × Exchange)} {i : Nat} {c : Call} {r : Except Failure c.Answer}

namespace Lesson

/-- Without the time of the last change. -/
def undated (l : Lesson) : Lesson := { l with updatedAt := l.createdAt }

/-- With the content and the order that were written last. -/
def lastWritten (log : List (Nat × Exchange)) (l : Lesson) : Lesson :=
  { l with content := written content? log l.id l.content, order := written lessonOrder? log l.id l.order }

def Replayed (start : List Lesson) (log : List (Nat × Exchange)) (rows : List Lesson) : Prop :=
  Table.Replayed Lesson.id undated (gone lessonRemoval? log) (lastWritten log) start rows

variable {start rows : List Lesson} {e : Exchange}

theorem lastWritten_of_none (hcontent : e.content? = none) (horder : e.lessonOrder? = none) :
    lastWritten (log ++ [(i, e)]) = lastWritten log := by
  funext l
  rw [lastWritten, written_of_none hcontent, written_of_none horder, lastWritten]

theorem Replayed.still (h : Replayed start log rows) (hcontent : e.content? = none) (horder : e.lessonOrder? = none)
    (hremoval : e.lessonRemoval? = none) : Replayed start (log ++ [(i, e)]) rows := by
  rw [Replayed, gone_of_none hremoval, lastWritten_of_none hcontent horder]
  exact h

theorem Replayed.call (h : Replayed start log s.lessons) (unique : (start.map Lesson.id).Nodup)
    (heffect : s.Effect m c r t) (old : ∀ row, c ≠ .addLesson row) :
    Replayed start (log ++ [(i, ⟨c, r⟩)]) t.lessons := by
  cases heffect with
  | failed c e _ =>
    have hs := error_silent c e
    exact h.still hs.content hs.lessonOrder hs.lessonRemoval
  | read hc =>
    have hs := read_silent hc (s.apply c).1
    exact h.still hs.content hs.lessonOrder hs.lessonRemoval
  | addedLesson _ => exact absurd rfl (old _)
  | @filledLesson id content now row rows changed =>
    have hlast : ∀ l : Lesson, (lastWritten (log ++ [(i, ⟨.fillLesson id content now, .ok row⟩)]) l).undated =
        if l.id = id then { (lastWritten log l).undated with content } else (lastWritten log l).undated := by
      intro l
      rw [lastWritten, written_of_some rfl, written_of_none rfl]
      split <;> rfl
    rw [Replayed, gone_of_none rfl]
    exact Table.Replayed.edit (fun l => { l with content }) h (fun _ => rfl) (fun _ => rfl) unique changed
      (fun _ _ _ => rfl) hlast
  | @orderedLesson id order now row rows changed =>
    have hlast : ∀ l : Lesson, (lastWritten (log ++ [(i, ⟨.orderLesson id order now, .ok ()⟩)]) l).undated =
        if l.id = id then { (lastWritten log l).undated with order } else (lastWritten log l).undated := by
      intro l
      rw [lastWritten, written_of_none rfl, written_of_some rfl]
      split <;> rfl
    rw [Replayed, gone_of_none rfl]
    exact Table.Replayed.edit (fun l => { l with order }) h (fun _ => rfl) (fun _ => rfl) unique changed
      (fun _ _ _ => rfl) hlast
  | @removedLesson id rows removed =>
    rw [Replayed, lastWritten_of_none rfl rfl]
    exact Table.Replayed.remove h (fun _ => rfl) (fun _ => rfl) unique removed (gone_of_some rfl)
  | _ => exact h.still rfl rfl rfl

end Lesson

namespace Chapter

/-- Without the time of the last change. -/
def undated (c : Chapter) : Chapter := { c with updatedAt := c.createdAt }

/-- With the order that was written last. -/
def lastWritten (log : List (Nat × Exchange)) (c : Chapter) : Chapter :=
  { c with order := written chapterOrder? log c.id c.order }

def Replayed (start : List Chapter) (log : List (Nat × Exchange)) (rows : List Chapter) : Prop :=
  Table.Replayed Chapter.id undated (gone chapterRemoval? log) (lastWritten log) start rows

variable {start rows : List Chapter} {e : Exchange}

theorem lastWritten_of_none (horder : e.chapterOrder? = none) : lastWritten (log ++ [(i, e)]) = lastWritten log := by
  funext c
  rw [lastWritten, written_of_none horder, lastWritten]

theorem Replayed.still (h : Replayed start log rows) (horder : e.chapterOrder? = none)
    (hremoval : e.chapterRemoval? = none) : Replayed start (log ++ [(i, e)]) rows := by
  rw [Replayed, gone_of_none hremoval, lastWritten_of_none horder]
  exact h

theorem Replayed.call (h : Replayed start log s.chapters) (unique : (start.map Chapter.id).Nodup)
    (heffect : s.Effect m c r t) (old : ∀ row, c ≠ .addChapter row) :
    Replayed start (log ++ [(i, ⟨c, r⟩)]) t.chapters := by
  cases heffect with
  | failed c e _ => exact h.still (error_silent c e).chapterOrder (error_silent c e).chapterRemoval
  | read hc => exact h.still (read_silent hc _).chapterOrder (read_silent hc _).chapterRemoval
  | addedChapter _ => exact absurd rfl (old _)
  | @orderedChapter id order now row rows changed =>
    have hlast : ∀ c : Chapter, (lastWritten (log ++ [(i, ⟨.orderChapter id order now, .ok row⟩)]) c).undated =
        if c.id = id then { (lastWritten log c).undated with order } else (lastWritten log c).undated := by
      intro c
      rw [lastWritten, written_of_some rfl]
      split <;> rfl
    rw [Replayed, gone_of_none rfl]
    exact Table.Replayed.edit (fun c => { c with order }) h (fun _ => rfl) (fun _ => rfl) unique changed
      (fun _ _ _ => rfl) hlast
  | @removedChapter id rows removed =>
    rw [Replayed, lastWritten_of_none rfl]
    exact Table.Replayed.remove h (fun _ => rfl) (fun _ => rfl) unique removed (gone_of_some rfl)
  | _ => exact h.still rfl rfl

end Chapter

namespace Course

/-- Without the time of the last change. -/
def undated (c : Course) : Course := { c with updatedAt := c.createdAt }

/-- With the name and the description that were written last. -/
def lastWritten (log : List (Nat × Exchange)) (c : Course) : Course :=
  { c with
    name := (written details? log c.id (c.name, c.description)).1
    description := (written details? log c.id (c.name, c.description)).2 }

def Replayed (start : List Course) (log : List (Nat × Exchange)) (rows : List Course) : Prop :=
  Table.Replayed Course.id undated (gone courseRemoval? log) (lastWritten log) start rows

variable {start rows : List Course} {e : Exchange}

theorem lastWritten_of_none (hdetails : e.details? = none) : lastWritten (log ++ [(i, e)]) = lastWritten log := by
  funext c
  rw [lastWritten, written_of_none hdetails, lastWritten]

theorem Replayed.still (h : Replayed start log rows) (hdetails : e.details? = none)
    (hremoval : e.courseRemoval? = none) : Replayed start (log ++ [(i, e)]) rows := by
  rw [Replayed, gone_of_none hremoval, lastWritten_of_none hdetails]
  exact h

/-- Every row has its id and its time of creation from the start. -/
theorem Replayed.origin (h : Replayed start log rows) {row : Course} (hrow : row ∈ rows) :
    ∃ first ∈ start, first.id = row.id ∧ first.createdAt = row.createdAt := by
  have hmem := List.mem_map_of_mem (f := undated) hrow
  rw [h] at hmem
  obtain ⟨first, hfirst, he⟩ := List.mem_map.mp hmem
  exact ⟨first, (List.mem_filter.mp hfirst).1, (congrArg Course.id he :), (congrArg Course.createdAt he :)⟩

/-- A replacement keeps what it does not set, if the replacing row has the time of creation from the start. -/
theorem Replayed.call (h : Replayed start log s.courses) (unique : (start.map Course.id).Nodup)
    (heffect : s.Effect m c r t) (old : ∀ row, c ≠ .addCourse row)
    (copy : ∀ row, c = .replaceCourse row → ∃ first ∈ start, first.id = row.id ∧ first.createdAt = row.createdAt) :
    Replayed start (log ++ [(i, ⟨c, r⟩)]) t.courses := by
  cases heffect with
  | failed c e _ => exact h.still (error_silent c e).details (error_silent c e).courseRemoval
  | read hc => exact h.still (read_silent hc _).details (read_silent hc _).courseRemoval
  | addedCourse _ => exact absurd rfl (old _)
  | @replacedCourse row found rows replaced =>
    have hlast : ∀ c : Course, (lastWritten (log ++ [(i, ⟨.replaceCourse row, .ok row⟩)]) c).undated =
        if c.id = row.id then { (lastWritten log c).undated with name := row.name, description := row.description }
        else (lastWritten log c).undated := by
      intro c
      rw [lastWritten, written_of_some rfl]
      split <;> rfl
    have hsame : ∀ x ∈ s.courses, x.id = row.id →
        row.undated = { x.undated with name := row.name, description := row.description } := by
      intro x hx hid
      obtain ⟨first, hfirst, hfid, hfcreated⟩ := h.origin hx
      obtain ⟨first', hfirst', hfid', hfcreated'⟩ := copy row rfl
      obtain rfl := List.inj_on_of_nodup_map unique hfirst hfirst' (hfid.trans (hid.trans hfid'.symm))
      simp only [undated, ← hid, ← hfcreated', ← hfcreated]
    rw [Replayed, gone_of_none rfl]
    exact Table.Replayed.edit (fun c => { c with name := row.name, description := row.description }) h (fun _ => rfl)
      (fun _ => rfl) unique replaced hsame hlast
  | @removedCourse id rows removed =>
    rw [Replayed, lastWritten_of_none rfl]
    exact Table.Replayed.remove h (fun _ => rfl) (fun _ => rfl) unique removed (gone_of_some rfl)
  | _ => exact h.still rfl rfl

end Course

namespace Traffic

variable {requests : List (Timestamp × Operation)} {before : Store} {now : Timestamp} {op : Operation}

/-- Every row that was there at the start and was not removed is there, as it was last written, and there is no other.
Who wrote last was asked to, and the name and the description are those of one and the same request; what was removed
at any time is not there. -/
structure LastWritesWin (requests : List (Timestamp × Operation)) (before : Store) (log : List (Nat × Exchange))
    (s : Store) : Prop where
  lessons : Lesson.Replayed before.lessons log s.lessons
  chapters : Chapter.Replayed before.chapters log s.chapters
  courses : Course.Replayed before.courses log s.courses
  contents : ∀ i id content, lastWrite content? log id = some (i, content) →
    ∃ now, requests[i]? = some (now, .setLessonContent id content)
  lessonOrders : ∀ i id order, lastWrite lessonOrder? log id = some (i, order) →
    ∃ now chapterId ids, requests[i]? = some (now, .reorderLessons chapterId ids)
  chapterOrders : ∀ i id order, lastWrite chapterOrder? log id = some (i, order) →
    ∃ now, requests[i]? = some (now, .setChapterOrder id order)
  details : ∀ i id name description, lastWrite details? log id = some (i, name, description) →
    ∃ now r, requests[i]? = some (now, .updateCourse id r) ∧ r.name = name ∧ r.description = description
  removedLessons : ∀ i id, (i, ⟨.removeLesson id, .ok ()⟩) ∈ log → ∀ l ∈ s.lessons, l.id ≠ id
  removedChapters : ∀ i id, (i, ⟨.removeChapter id, .ok ()⟩) ∈ log → ∀ c ∈ s.chapters, c.id ≠ id
  removedCourses : ∀ i id, (i, ⟨.removeCourse id, .ok ()⟩) ∈ log → ∀ c ∈ s.courses, c.id ≠ id

/-- What is needed to keep the courses: the copies that were read of them are true in what is not written.  Every call
is one that its request may make. -/
structure Kept (requests : List (Timestamp × Operation)) (before : Store) (log : List (Nat × Exchange)) (s : Store) :
    Prop where
  lessons : Lesson.Replayed before.lessons log s.lessons
  chapters : Chapter.Replayed before.chapters log s.chapters
  courses : Course.Replayed before.courses log s.courses
  copies : ∀ i id course, (i, ⟨.findCourse id, .ok course⟩) ∈ log →
    course.id = id ∧ ∃ first ∈ before.courses, first.id = id ∧ first.createdAt = course.createdAt
  calls : ∀ i e, (i, e) ∈ log → ∃ now op past, requests[i]? = some (now, op) ∧ (∀ e ∈ past, (i, e) ∈ log) ∧
    Operation.MayCall now op past e.call

theorem Kept.call (h : Kept requests before log s) (courseIds : (before.courses.map Course.id).Nodup)
    (chapterIds : (before.chapters.map Chapter.id).Nodup) (lessonIds : (before.lessons.map Lesson.id).Nodup)
    (hrequest : requests[i]? = some (now, op)) (hold : op.creates = false)
    (hmay : Operation.MayCall now op (own i log) c) (heffect : s.Effect m c r t) :
    Kept requests before (log ++ [(i, ⟨c, r⟩)]) t := by
  have hcreates : ¬ c.creates = true := fun hc => by
    rw [hmay.creates hc] at hold
    cases hold
  constructor
  case lessons => exact h.lessons.call lessonIds heffect fun row hc => hcreates (hc ▸ rfl)
  case chapters => exact h.chapters.call chapterIds heffect fun row hc => hcreates (hc ▸ rfl)
  case courses =>
    refine h.courses.call courseIds heffect (fun row hc => hcreates (hc ▸ rfl)) fun row hc => ?_
    subst hc
    cases hmay with
    | read hread => cases hread
    | replaceCourse found =>
      obtain ⟨hid, first, hfirst, hfid, hcreated⟩ := h.copies _ _ _ (mem_own.mp found)
      exact ⟨first, hfirst, hfid.trans hid.symm, hcreated⟩
  case copies =>
    intro j id course hmem
    rcases List.mem_append.mp hmem with hmem | hmem
    · exact h.copies j id course hmem
    · cases List.mem_singleton.mp hmem
      have hfound : s.course? id = some course := Store.lookUp_eq_ok.mp (heffect.read_ok rfl)
      have hid : course.id = id := Store.id_of_course? hfound
      obtain ⟨first, hfirst, hfid, hcreated⟩ := h.courses.origin (List.mem_of_find?_eq_some hfound)
      exact ⟨hid, first, hfirst, hfid.trans hid, hcreated⟩
  case calls =>
    intro j e hmem
    rcases List.mem_append.mp hmem with hmem | hmem
    · obtain ⟨now', op', past, hasked, hpast, hmay'⟩ := h.calls j e hmem
      exact ⟨now', op', past, hasked, fun e he => List.mem_append_left _ (hpast e he), hmay'⟩
    · cases List.mem_singleton.mp hmem
      exact ⟨now, op, own i log, hrequest, fun e he => List.mem_append_left _ (mem_own.mp he), hmay⟩

/-- Whoever wrote last made a call that the request may make. -/
theorem Kept.author {α : Type} {write? : Exchange → Option (String × α)} {id : String} {x : α}
    (h : Kept requests before log s) (hlast : lastWrite write? log id = some (i, x)) :
    ∃ c r now op past, write? ⟨c, r⟩ = some (id, x) ∧ requests[i]? = some (now, op) ∧
      (∀ e ∈ past, (i, e) ∈ log) ∧ Operation.MayCall now op past c := by
  obtain ⟨⟨c, r⟩, hmem, hwrite⟩ := mem_of_lastWrite hlast
  obtain ⟨now, op, past, hcall⟩ := h.calls i _ hmem
  exact ⟨c, r, now, op, past, hwrite, hcall⟩

/-- The last writes are those that the requests ask for. -/
theorem Kept.lastWritesWin (h : Kept requests before log s) : LastWritesWin requests before log s where
  lessons := h.lessons
  chapters := h.chapters
  courses := h.courses
  contents := by
    intro i id content hlast
    obtain ⟨c, r, now, op, past, hcontent, hrequest, -, hmay⟩ := h.author hlast
    obtain ⟨at', rfl⟩ := content?_eq_some hcontent
    cases hmay with
    | read hread => cases hread
    | fillLesson => exact ⟨_, hrequest⟩
  lessonOrders := by
    intro i id order hlast
    obtain ⟨c, r, now, op, past, horder, hrequest, -, hmay⟩ := h.author hlast
    obtain ⟨at', rfl⟩ := lessonOrder?_eq_some horder
    cases hmay with
    | read hread => cases hread
    | orderLesson => exact ⟨_, _, _, hrequest⟩
  chapterOrders := by
    intro i id order hlast
    obtain ⟨c, r, now, op, past, horder, hrequest, -, hmay⟩ := h.author hlast
    obtain ⟨at', rfl⟩ := chapterOrder?_eq_some horder
    cases hmay with
    | read hread => cases hread
    | orderChapter => exact ⟨_, hrequest⟩
  details := by
    intro i id name description hlast
    obtain ⟨c, r, now, op, past, hdetails, hrequest, hpast, hmay⟩ := h.author hlast
    obtain ⟨row, rfl, rfl, rfl, rfl⟩ := details?_eq_some hdetails
    cases hmay with
    | read hread => cases hread
    | replaceCourse found =>
      have hid := (h.copies _ _ _ (hpast _ found)).1
      exact ⟨now, _, hid ▸ hrequest, rfl, rfl⟩
  removedLessons := by
    exact fun i id hmem => not_removed h.lessons (fun _ => rfl) (fun _ => rfl) hmem rfl
  removedChapters := by
    exact fun i id hmem => not_removed h.chapters (fun _ => rfl) (fun _ => rfl) hmem rfl
  removedCourses := by
    exact fun i id hmem => not_removed h.courses (fun _ => rfl) (fun _ => rfl) hmem rfl

theorem run_kept (b : Backend) (requests : List (Timestamp × Operation)) (schedule : List Nat)
    (courseIds : (b.store.courses.map Course.id).Nodup) (chapterIds : (b.store.chapters.map Chapter.id).Nodup)
    (lessonIds : (b.store.lessons.map Lesson.id).Nodup)
    (old : ∀ now op, (now, op) ∈ requests → op.creates = false) :
    Kept requests b.store ((start b requests).run schedule).log ((start b requests).run schedule).store :=
  run_calls (P := Kept requests b.store) requests b.allows_anything
    { lessons := Table.replayed_start _ (fun _ => rfl) fun _ => rfl
      chapters := Table.replayed_start _ (fun _ => rfl) fun _ => rfl
      courses := Table.replayed_start _ (fun _ => rfl) fun _ => rfl
      copies := fun _ _ _ h => by cases h
      calls := fun _ _ h => by cases h }
    (fun _ _ _ _ _ _ _ _ hrequest hmay hanswer h =>
      h.call courseIds chapterIds lessonIds hrequest (old _ _ (List.mem_of_getElem? hrequest)) hmay hanswer.effect)
    schedule

theorem run_completes (b : Backend) (requests : List (Timestamp × Operation)) (schedule : List Nat) :
    ((start b requests).run schedule).Follows Operation.AnyCall Operation.Completes requests :=
  (start_follows b fun now op _ => Operation.program_completes now op).run schedule

/-- A request that has succeeded is on record with its writes. -/
theorem Kept.wrote {t : Traffic} {x : op.Result} (h : Kept requests before t.log s)
    (completes : t.Follows Operation.AnyCall Operation.Completes requests)
    (hdone : t.tasks[i]? = some ⟨now, op, .done (.ok x)⟩) : op.Wrote (own i t.log) :=
  (completes.ended hdone).wrote fun id course hfound => (h.copies i id course (mem_own.mp hfound)).1

end Traffic

namespace Traffic

/-- A content edit and a reordering that are under way beside each other. -/
def editAndReordering (now : Timestamp) (id content : String) (now' : Timestamp) (chapterId : String)
    (ids : List String) : List (Timestamp × Operation) :=
  [(now, .setLessonContent id content), (now', .reorderLessons chapterId ids)]

/-- A lesson and its chapter. -/
def seat (l : Lesson) : String × String := (l.id, l.chapterId)

/-- The exchanges of the two: whoever comes first, the lessons of a chapter are listed and found as at the start. -/
inductive Steady (first : List Lesson) : Nat → Exchange → Prop
  | read {c : Call} (i : Nat) (hc : c.isRead = true) (hl : ∀ id, c ≠ .lessonsOf id) (r : Except Failure c.Answer) :
      Steady first i ⟨c, r⟩
  | listed {id : String} {lessons : List Lesson} (i : Nat)
      (h : ∀ k, k ∈ lessons.map Lesson.id ↔ (k, id) ∈ first.map seat) : Steady first i ⟨.lessonsOf id, .ok lessons⟩
  | filled {k content : String} {now : Timestamp} {r : Except Failure Lesson}
      (h : content? ⟨.fillLesson k content now, r⟩ = if k ∈ first.map Lesson.id then some (k, content) else none) :
      Steady first 0 ⟨.fillLesson k content now, r⟩
  | ordered {k : String} {order : Int32} {now : Timestamp} : Steady first 1 ⟨.orderLesson k order now, .ok ()⟩

variable {first : List Lesson}

theorem ids_of_seats {rows : List Lesson} (h : rows.map seat = first.map seat) :
    rows.map Lesson.id = first.map Lesson.id := by
  have hids := congrArg (List.map Prod.fst) h
  rwa [List.map_map, List.map_map] at hids

theorem read_steady (hc : c.isRead = true) (seats : s.lessons.map seat = first.map seat) (i : Nat) :
    Steady first i ⟨c, (s.apply c).1⟩ := by
  by_cases hl : ∃ id, c = .lessonsOf id
  · obtain ⟨id, rfl⟩ := hl
    refine .listed i fun k => ?_
    rw [← seats]
    simp [seat, Store.mem_lessonsOf, and_comm, and_assoc]
  · exact .read i hc (fun id h => hl ⟨id, h⟩) _

theorem modify?_eq_none_iff {k : String} {f : Lesson → Lesson} {rows : List Lesson} :
    Table.modify? (fun l => l.id = k) f rows = none ↔ k ∉ rows.map Lesson.id := by
  simp [Table.modify?_eq_none]

theorem fill_steady {k content : String} {now : Timestamp} (seats : s.lessons.map seat = first.map seat) :
    Steady first 0 ⟨.fillLesson k content now, (s.apply (.fillLesson k content now)).1⟩ ∧
      (s.apply (.fillLesson k content now)).2.lessons.map seat = first.map seat := by
  simp only [Store.apply, Store.fillLesson?]
  cases hm : Table.modify? (fun l : Lesson => l.id = k) (fun l => { l with content, updatedAt := now }) s.lessons with
  | none =>
    have habsent : k ∉ first.map Lesson.id := ids_of_seats seats ▸ modify?_eq_none_iff.mp hm
    exact ⟨.filled (by rw [if_neg habsent]; rfl), seats⟩
  | some changed =>
    have hpresent : k ∈ first.map Lesson.id := by
      by_contra habsent
      rw [← ids_of_seats seats] at habsent
      rw [modify?_eq_none_iff.mpr habsent] at hm
      cases hm
    exact ⟨.filled (by rw [if_pos hpresent]; rfl), (Table.map_modify? hm fun _ _ => rfl).trans seats⟩

theorem order_steady {k : String} {order : Int32} {now : Timestamp} (seats : s.lessons.map seat = first.map seat)
    (known : k ∈ first.map Lesson.id) :
    Steady first 1 ⟨.orderLesson k order now, (s.apply (.orderLesson k order now)).1⟩ ∧
      (s.apply (.orderLesson k order now)).2.lessons.map seat = first.map seat := by
  simp only [Store.apply, Store.orderLesson?]
  cases hm : Table.modify? (fun l : Lesson => l.id = k) (fun l => { l with order, updatedAt := now }) s.lessons with
  | none => exact absurd (ids_of_seats seats ▸ known) (modify?_eq_none_iff.mp hm)
  | some changed => exact ⟨.ordered, (Table.map_modify? hm fun _ _ => rfl).trans seats⟩

section

variable {now now' : Timestamp} {id content chapterId : String} {ids : List String} {b : Backend}

theorem steady_call {log : List (Nat × Exchange)} {at' : Timestamp} {op : Operation}
    (hrequest : (editAndReordering now id content now' chapterId ids)[i]? = some (at', op))
    (hmay : Operation.MayCall at' op (own i log) c) (seats : s.lessons.map seat = first.map seat)
    (steady : ∀ i e, (i, e) ∈ log → Steady first i e) :
    Steady first i ⟨c, (s.apply c).1⟩ ∧ (s.apply c).2.lessons.map seat = first.map seat := by
  have hread (hc : c.isRead = true) : Steady first i ⟨c, (s.apply c).1⟩ ∧
      (s.apply c).2.lessons.map seat = first.map seat :=
    ⟨read_steady hc seats i, by rw [Store.apply_read hc s, seats]⟩
  rcases i with _ | _ | i
  · cases hrequest
    cases hmay with
    | read hc => exact hread hc
    | fillLesson => exact fill_steady seats
  · cases hrequest
    cases hmay with
    | read hc => exact hread hc
    | orderLesson place listed known =>
      refine order_steady seats ?_
      cases steady _ _ (mem_own.mp listed) with
      | read _ _ hl => exact absurd rfl (hl _)
      | listed _ h =>
        have hseated := List.mem_map_of_mem (f := Prod.fst) ((h _).mp known)
        rwa [List.map_map] at hseated
  · cases hrequest

/-- What an edit and a reordering do is the same for each, whoever has the turn when. -/
theorem editAndReordering_steady (calm : b.Allows .nothing) (schedule : List Nat) :
    let t := (Traffic.start b (editAndReordering now id content now' chapterId ids)).run schedule
    t.store.lessons.map seat = b.store.lessons.map seat ∧ ∀ i e, (i, e) ∈ t.log → Steady b.store.lessons i e := by
  refine run_calls (P := fun log s => s.lessons.map seat = b.store.lessons.map seat ∧
    ∀ i e, (i, e) ∈ log → Steady b.store.lessons i e) _ calm ⟨rfl, fun _ _ h => by cases h⟩ ?_ schedule
  rintro log s i _ op c r s' hrequest hmay hanswer ⟨hseats, hsteady⟩
  obtain ⟨rfl, rfl⟩ := hanswer.exact
  obtain ⟨hnew, hkept⟩ := steady_call hrequest hmay hseats hsteady
  refine ⟨hkept, fun j e hmem => ?_⟩
  rcases List.mem_append.mp hmem with hmem | hmem
  · exact hsteady j e hmem
  · cases List.mem_singleton.mp hmem
    exact hnew

/-- Once both are done, the writes are the same ones in whichever way they met. -/
theorem steady_writes {t : Traffic} {known : List String}
    (completes : t.Follows Operation.AnyCall Operation.Completes (editAndReordering now id content now' chapterId ids))
    (finished : t.isFinished = true) (steady : ∀ i e, (i, e) ∈ t.log → Steady first i e)
    (hknown : ∀ k, k ∈ known ↔ (k, chapterId) ∈ first.map seat) :
    writes content? t.log = (if id ∈ first.map Lesson.id then [(0, id, content)] else []) ∧
      writes lessonOrder? t.log = (Lessons.placements known 1 ids).map (fun write => (1, write)) ∧
        writes lessonRemoval? t.log = [] := by
  refine ⟨?_, ?_, ?_⟩
  · have hothers : ∀ i e, (i, e) ∈ t.log → i ≠ 0 → content? e = none := by
      intro i e hmem hi
      cases steady i e hmem with
      | read _ hc _ r => exact (read_silent hc r).content
      | filled => exact absurd rfl hi
      | listed | ordered => rfl
    obtain ⟨r, hdone⟩ := completes.result finished (i := 0) rfl
    have hown : own 0 t.log = [⟨.fillLesson id content now, r⟩] := completes.ended hdone
    have hfilled : Steady first 0 ⟨.fillLesson id content now, r⟩ := steady 0 _ (mem_own.mp (by simp [hown]))
    cases hfilled with
    | read _ hc => cases hc
    | filled h =>
      rw [writes_of_author 0 hothers, hown, List.filterMap_cons, h]
      by_cases hid : id ∈ first.map Lesson.id
      · simp only [if_pos hid]
        rfl
      · simp only [if_neg hid]
        rfl
  · have hothers : ∀ i e, (i, e) ∈ t.log → i ≠ 1 → lessonOrder? e = none := by
      intro i e hmem hi
      cases steady i e hmem with
      | read _ hc _ r => exact (read_silent hc r).lessonOrder
      | ordered => exact absurd rfl hi
      | listed | filled => rfl
    have hunhindered : Unhindered (own 1 t.log) := by
      constructor
      · intro k f hmem
        cases steady 1 _ (mem_own.mp hmem) with
        | read _ _ hl => exact hl k rfl
      · intro k order at' f hmem
        cases steady 1 _ (mem_own.mp hmem) with
        | read _ hc => cases hc
    obtain ⟨_, hdone⟩ := completes.result finished (i := 1) rfl
    obtain ⟨lessons, hlisted, hplaced⟩ := completes.ended hdone (.inl hunhindered)
    have hsame : ∀ k, k ∈ lessons.map Lesson.id ↔ k ∈ known := by
      intro k
      cases steady 1 _ (mem_own.mp hlisted) with
      | read _ _ hl => exact absurd rfl (hl _)
      | listed _ h => rw [h, hknown]
    rw [writes_of_author 1 hothers, hplaced, Lessons.placements_congr hsame]
  · refine List.filterMap_eq_nil_iff.mpr fun ⟨i, e⟩ hmem => ?_
    have hkept : lessonRemoval? e = none := by
      cases steady i e hmem with
      | read _ hc _ r => exact (read_silent hc r).lessonRemoval
      | listed | filled | ordered => rfl
    simp [hkept]

end

/-- No row is lost or brought back, and every row ends with what was last written to it, whichever operations on rows
that are there meet, and whatever fails; an operation that has succeeded has made its writes.  Hence an edit of a
content and a reordering leave the same lessons in whichever way they meet, but for the times of change. -/
theorem last_writes_win (b : Backend) (courseIds : (b.store.courses.map Course.id).Nodup)
    (chapterIds : (b.store.chapters.map Chapter.id).Nodup) (lessonIds : (b.store.lessons.map Lesson.id).Nodup) :
    (∀ (requests : List (Timestamp × Operation)) (schedule : List Nat),
      (∀ now op, (now, op) ∈ requests → op.creates = false) →
      let t := (Traffic.start b requests).run schedule
      LastWritesWin requests b.store t.log t.store ∧
        ∀ (i : Nat) (now : Timestamp) (op : Operation) (x : op.Result),
          t.tasks[i]? = some ⟨now, op, .done (.ok x)⟩ → op.Wrote (own i t.log)) ∧
    (b.Allows .nothing → ∀ now id content now' chapterId ids, ∀ schedule schedule' : List Nat,
      let t := (Traffic.start b (editAndReordering now id content now' chapterId ids)).run schedule
      let t' := (Traffic.start b (editAndReordering now id content now' chapterId ids)).run schedule'
      t.isFinished = true → t'.isFinished = true →
      t.store.lessons.map Lesson.undated = t'.store.lessons.map Lesson.undated) := by
  refine ⟨fun requests schedule old => ?_, ?_⟩
  · have hkept := run_kept b requests schedule courseIds chapterIds lessonIds old
    exact ⟨hkept.lastWritesWin, fun _ _ _ _ hdone => hkept.wrote (run_completes b requests schedule) hdone⟩
  intro calm now id content now' chapterId ids schedule schedule' t t' finished finished'
  have hold : ∀ at' op, (at', op) ∈ editAndReordering now id content now' chapterId ids → op.creates = false := by
    intro at' op hmem
    rcases List.mem_pair.mp hmem with h | h <;> cases h <;> rfl
  have hknown : ∀ k, k ∈ (b.store.lessonsOf chapterId).map Lesson.id ↔ (k, chapterId) ∈ b.store.lessons.map seat := by
    intro k
    simp [seat, Store.mem_lessonsOf, and_comm, and_assoc]
  -- both runs have made the same writes, and what they leave depends on nothing else
  obtain ⟨hcontent, horder, hremoval⟩ := steady_writes (run_completes b _ schedule) finished
    (editAndReordering_steady calm schedule).2 hknown
  obtain ⟨hcontent', horder', hremoval'⟩ := steady_writes (run_completes b _ schedule') finished'
    (editAndReordering_steady calm schedule').2 hknown
  have hlast : Lesson.lastWritten t.log = Lesson.lastWritten t'.log := by
    funext l
    rw [Lesson.lastWritten, written_congr (hcontent.trans hcontent'.symm), written_congr (horder.trans horder'.symm),
      Lesson.lastWritten]
  have hgone : gone lessonRemoval? t.log = gone lessonRemoval? t'.log := by
    funext k
    rw [gone, lastWrite_congr (hremoval.trans hremoval'.symm), gone]
  have hrows := (run_kept b _ schedule courseIds chapterIds lessonIds hold).lessons
  have hrows' := (run_kept b _ schedule' courseIds chapterIds lessonIds hold).lessons
  calc t.store.lessons.map Lesson.undated
      = (b.store.lessons.filter fun l => !gone lessonRemoval? t.log l.id).map fun l =>
          (Lesson.lastWritten t.log l).undated := hrows
    _ = (b.store.lessons.filter fun l => !gone lessonRemoval? t'.log l.id).map fun l =>
          (Lesson.lastWritten t'.log l).undated := by rw [hlast, hgone]
    _ = t'.store.lessons.map Lesson.undated := hrows'.symm

/-- A store with a course, a chapter, a lesson in it and one elsewhere. -/
def sampleShelf : Backend :=
  { Backend.start .numbered .numbered [] with
    store :=
      { Store.empty with
        courses := [⟨"c", "Go 101", "", .epoch, .epoch⟩]
        chapters := [⟨"h", "Intro", "", 1, "c", .epoch, .epoch⟩]
        lessons := [⟨"a", "A", "", "old", 1, "h", .epoch, .epoch⟩, ⟨"b", "B", "", "old", 2, "k", .epoch, .epoch⟩] } }

def sampleWrites : List (Timestamp × Operation) :=
  [(.epoch, .updateCourse "c" ⟨none, "Go 102", "first"⟩), (.epoch, .updateCourse "c" ⟨none, "Go 103", "second"⟩),
    (.epoch, .setLessonContent "a" "new"), (.epoch, .deleteLesson "b")]

/-- The second change of the course is written between the two calls of the first. -/
def sampleTurns : List Nat := [0, 1, 3, 1, 2, 0, 3, 3]

abbrev sampleMeeting : List (Timestamp × Operation) := editAndReordering .epoch "a" "new" .epoch "h" ["b", "a"]

/-- The reordering has been told the lessons of the chapter. -/
theorem sampleMeeting_listed :
    (start sampleShelf sampleMeeting).turn 1 =
      ⟨[Task.start (.epoch, .setLessonContent "a" "new"),
          ⟨.epoch, .reorderLessons "h" ["b", "a"], Lessons.place .epoch ["a"] 1 ["b", "a"]⟩],
        [(1, ⟨.lessonsOf "h", .ok [⟨"a", "A", "", "old", 1, "h", .epoch, .epoch⟩]⟩)], sampleShelf⟩ := by
  have hlisted : sampleShelf.store.lessonsOf "h" = [⟨"a", "A", "", "old", 1, "h", .epoch, .epoch⟩] :=
    List.mergeSort_singleton _
  have hturn : (start sampleShelf sampleMeeting).turn 1 =
      ⟨[Task.start (.epoch, .setLessonContent "a" "new"),
          ⟨.epoch, .reorderLessons "h" ["b", "a"],
            Lessons.place .epoch ((sampleShelf.store.lessonsOf "h").map Lesson.id) 1 ["b", "a"]⟩],
        [(1, ⟨.lessonsOf "h", .ok (sampleShelf.store.lessonsOf "h")⟩)], sampleShelf⟩ := rfl
  rw [hturn, hlisted]
  rfl

theorem last_writes_win_sample :
    LastWritesWin sampleWrites sampleShelf.store ((start sampleShelf sampleWrites).run sampleTurns).log
        ((start sampleShelf sampleWrites).run sampleTurns).store ∧
      (own 3 ((start sampleShelf sampleWrites).run [3, 3, 3]).log).filterMap lessonRemoval? = [("b", ())] ∧
      ((start sampleShelf sampleMeeting).run [1, 0, 1]).store.lessons.map Lesson.undated =
        ((start sampleShelf sampleMeeting).run [1, 1, 0]).store.lessons.map Lesson.undated := by
  obtain ⟨hwin, hmeet⟩ := last_writes_win sampleShelf (by decide +kernel) (by decide +kernel) (by decide +kernel)
  have calm : sampleShelf.Allows .nothing := by
    constructor <;> exact fun _ h => by cases h
  have hold : ∀ now op, (now, op) ∈ sampleWrites → op.creates = false := by
    have hall : ∀ request ∈ sampleWrites, request.2.creates = false := by decide +kernel
    exact fun now op h => hall _ h
  have finished : ((start sampleShelf sampleMeeting).run [1, 0, 1]).isFinished = true := by
    rw [run_cons, sampleMeeting_listed]
    decide +kernel
  have finished' : ((start sampleShelf sampleMeeting).run [1, 1, 0]).isFinished = true := by
    rw [run_cons, sampleMeeting_listed]
    decide +kernel
  have hdone : ((start sampleShelf sampleWrites).run [3, 3, 3]).tasks[3]? =
      some ⟨.epoch, .deleteLesson "b", .done (.ok ())⟩ := rfl
  obtain ⟨hlast, -⟩ := hwin sampleWrites sampleTurns hold
  obtain ⟨-, hwrote⟩ := hwin sampleWrites [3, 3, 3] hold
  exact ⟨hlast, hwrote 3 _ _ _ hdone, hmeet calm _ _ _ _ _ _ [1, 0, 1] [1, 1, 0] finished finished'⟩

end Traffic

end Coursework
