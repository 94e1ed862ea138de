import Coursework.Proofs.Calls

/-!
# Completions

What an operation on rows that are there has written when it ends.  One that has succeeded has written what it was asked
to write, and nothing of the kind besides; a reordering has written the places of the list one after the other.
-/
namespace Coursework

namespace Exchange

def content? : Exchange → Option (String × String)
  | ⟨.fillLesson id content _, .ok _⟩ => some (id, content)
  | _ => none

def lessonOrder? : Exchange → Option (String × Int32)
  | ⟨.orderLesson id order _, .ok _⟩ => some (id, order)
  | _ => none

def lessonRemoval? : Exchange → Option (String × Unit)
  | ⟨.removeLesson id, .ok _⟩ => some (id, ())
  | _ => none

def chapterOrder? : Exchange → Option (String × Int32)
  | ⟨.orderChapter id order _, .ok _⟩ => some (id, order)
  | _ => none

def chapterRemoval? : Exchange → Option (String × Unit)
  | ⟨.removeChapter id, .ok _⟩ => some (id, ())
  | _ => none

/-- A new name and a new description. -/
def details? : Exchange → Option (String × String × String)
  | ⟨.replaceCourse row, .ok _⟩ => some (row.id, row.name, row.description)
  | _ => none

def courseRemoval? : Exchange → Option (String × Unit)
  | ⟨.removeCourse id, .ok _⟩ => some (id, ())
  | _ => none

theorem details?_eq_some {c : Call} {r : Except Failure c.Answer} {id name description : String}
    (h : details? ⟨c, r⟩ = some (id, name, description)) :
    ∃ row, c = .replaceCourse row ∧ row.id = id ∧ row.name = name ∧ row.description = description := by
  unfold details? at h
  split at h <;> simp_all

theorem content?_eq_some {c : Call} {r : Except Failure c.Answer} {id content : String}
    (h : content? ⟨c, r⟩ = some (id, content)) : ∃ now, c = .fillLesson id content now := by
  unfold content? at h
  split at h <;> simp_all

theorem lessonOrder?_eq_some {c : Call} {r : Except Failure c.Answer} {id : String} {order : Int32}
    (h : lessonOrder? ⟨c, r⟩ = some (id, order)) : ∃ now, c = .orderLesson id order now := by
  unfold lessonOrder? at h
  split at h <;> simp_all

theorem chapterOrder?_eq_some {c : Call} {r : Except Failure c.Answer} {id : String} {order : Int32}
    (h : chapterOrder? ⟨c, r⟩ = some (id, order)) : ∃ now, c = .orderChapter id order now := by
  unfold chapterOrder? at h
  split at h <;> simp_all

end Exchange

open Exchange

namespace Lessons

/-- The places that a reordering writes from the given place on, until one does not fit. -/
def placements (known : List String) : Nat → List String → List (String × Int32)
  | _, [] => []
  | n, id :: ids =>
    if id ∈ known then
      if n < 0x80000000 then (id, Int32.ofNat n) :: placements known (n + 1) ids else []
    else placements known (n + 1) ids

theorem placements_congr {known known' : List String} (h : ∀ id, id ∈ known ↔ id ∈ known') (n : Nat)
    (ids : List String) : placements known n ids = placements known' n ids := by
  induction ids generalizing n with
  | nil => rfl
  | cons id ids ih => simp only [placements, h id, ih]

end Lessons

/-- Lists and places are all that a reordering was told, and they were not refused. -/
def Unhindered (past : List Exchange) : Prop :=
  (∀ id f, ⟨.lessonsOf id, .error f⟩ ∉ past) ∧ ∀ id order now f, ⟨.orderLesson id order now, .error f⟩ ∉ past

namespace Operation

open Program

/-- The writes of an operation on rows that are there which has succeeded. -/
def Wrote : Operation → List Exchange → Prop
  | setLessonContent id content, past => past.filterMap content? = [(id, content)]
  | setChapterOrder id order, past => past.filterMap chapterOrder? = [(id, order)]
  | updateCourse id r, past => past.filterMap details? = [(id, r.name, r.description)]
  | reorderLessons chapterId ids, past => ∃ lessons, ⟨.lessonsOf chapterId, .ok lessons⟩ ∈ past ∧
      past.filterMap lessonOrder? = Lessons.placements (lessons.map Lesson.id) 1 ids
  | deleteLesson id, past => past.filterMap lessonRemoval? = [(id, ())]
  | deleteChapter id, past => past.filterMap chapterRemoval? = [(id, ())]
  | deleteCourse id, past => past.filterMap courseRemoval? = [(id, ())]
  | _, _ => True

/-- How an operation on rows that are there may end.  An edit has made its one call, and a reordering has written all
its places unless something hindered it; the row that a course is replaced by is a copy that was read before. -/
def Completes (now : Timestamp) : (op : Operation) → List Exchange → Except Failure op.Result → Prop
  | setLessonContent id content, past, r => past = [⟨.fillLesson id content now, r⟩]
  | setChapterOrder id order, past, r => past = [⟨.orderChapter id order now, r⟩]
  | updateCourse id body, past, r => ∀ row, r = .ok row → ∃ course,
      past = [⟨.findCourse id, .ok course⟩, ⟨.replaceCourse (body.revise now course), .ok row⟩]
  | reorderLessons chapterId ids, past, r => Unhindered past ∨ r = .ok () → Wrote (.reorderLessons chapterId ids) past
  | deleteLesson id, past, r => r = .ok () → Wrote (.deleteLesson id) past
  | deleteChapter id, past, r => r = .ok () → Wrote (.deleteChapter id) past
  | deleteCourse id, past, r => r = .ok () → Wrote (.deleteCourse id) past
  | _, _, _ => True

/-- Making any call. -/
def AnyCall (_ : Timestamp) (_ : Operation) (_ : List Exchange) (_ : Call) : Prop := True

variable {now : Timestamp} {op : Operation} {past : List Exchange} {α : Type}

theorem keeps_anything (p : Program α) : p.Keeps (AnyCall now op) Anyhow past := by
  induction p generalizing past with
  | done r => trivial
  | call c rest ih => exact ⟨trivial, fun r => ih r⟩
  | drawId rest ih => exact fun u => ih u
  | drawKey rest ih => exact fun u => ih u

theorem place_completes {known : List String} (past : List Exchange) (n : Nat) (ids : List String) :
    (Lessons.place now known n ids).Keeps (AnyCall now op) (fun past' r => ∃ later, past' = past ++ later ∧
      (Unhindered past' ∨ r = .ok () → later.filterMap lessonOrder? = Lessons.placements known n ids)) past := by
  induction ids generalizing past n with
  | nil => exact ⟨[], (List.append_nil past).symm, fun _ => rfl⟩
  | cons id ids ih =>
    simp only [Lessons.place, Lessons.placements]
    by_cases hid : id ∈ known
    · by_cases hn : n < 0x80000000
      · simp only [hid, hn, if_true]
        refine keeps_ask trivial (fun x => ?_) fun e => ?_
        · refine keeps_weaken (ih (past ++ [⟨.orderLesson id (Int32.ofNat n) now, .ok x⟩]) (n + 1)) fun past' r h => ?_
          obtain ⟨later, rfl, hlater⟩ := h
          exact ⟨_ :: later, List.append_assoc .., fun hall => by simp [lessonOrder?, hlater hall]⟩
        · refine ⟨_, rfl, fun hall => ?_⟩
          rcases hall with hun | hok
          · exact absurd (by simp) (hun.2 id (Int32.ofNat n) now e)
          · cases hok
      · simp only [hid, hn, if_true, if_false]
        exact ⟨[], (List.append_nil past).symm, fun _ => rfl⟩
    · simp only [hid, if_false]
      exact ih past (n + 1)

theorem reorderLessons_completes (chapterId : String) (ids : List String) :
    (Lessons.reorder now chapterId ids).Keeps (AnyCall now op) (Completes now (.reorderLessons chapterId ids)) [] := by
  refine keeps_ask trivial (fun lessons => ?_) fun e hall => ?_
  · refine keeps_weaken (place_completes _ 1 ids) fun past r h hall => ?_
    obtain ⟨later, rfl, hlater⟩ := h
    exact ⟨lessons, by simp, hlater hall⟩
  · rcases hall with hun | hok
    · exact absurd (by simp) (hun.1 chapterId e)
    · cases hok

theorem updateCourse_completes (id : String) (r : CourseUpdate) :
    (Courses.update now id r).Keeps (AnyCall now op) (Completes now (.updateCourse id r)) [] := by
  have fails (past : List Exchange) (e : Failure) : Completes now (.updateCourse id r) past (.error e) :=
    fun _ h => by cases h
  refine keeps_ofExcept (fun _ _ => ?_) fun e _ => fails _ e
  have rest : (ask (.findCourse id) >>= fun course => ask (.replaceCourse (r.revise now course))).Keeps
      (AnyCall now op) (Completes now (.updateCourse id r)) [] := by
    refine keeps_ask trivial (fun course => keeps_last trivial ?_) fun e => fails _ e
    rintro _ row rfl
    exact ⟨course, rfl⟩
  cases r.id with
  | none => exact rest
  | some i => exact keeps_require (fun _ => rest) fun _ => fails _ _

/-- However it is answered, an operation ends as it may; a deletion removes its row by the last of its calls. -/
theorem program_completes (now : Timestamp) (op : Operation) :
    (op.program now).Keeps (AnyCall now op) (Completes now op) [] := by
  cases op with
  | setLessonContent id content => exact keeps_last trivial fun _ => rfl
  | setChapterOrder id order => exact keeps_last trivial fun _ => rfl
  | updateCourse id r => exact updateCourse_completes id r
  | reorderLessons chapterId ids => exact reorderLessons_completes chapterId ids
  | deleteCourse id | deleteChapter id | deleteLesson id =>
    refine keeps_ask trivial (fun _ => keeps_require (fun _ => ?_) fun _ h => by cases h) fun _ h => by cases h
    refine keeps_ask trivial (fun _ => keeps_require (fun _ => ?_) fun _ h => by cases h) fun _ h => by cases h
    refine keeps_last trivial fun r hr => ?_
    subst hr
    rfl
  | _ => exact keeps_anything _

/-- An operation that has succeeded has written what it was asked to write, if courses are found under their ids. -/
theorem Completes.wrote {x : op.Result} (h : op.Completes now past (.ok x))
    (copies : ∀ id course, ⟨.findCourse id, .ok course⟩ ∈ past → course.id = id) : op.Wrote past := by
  cases op with
  | setLessonContent id content =>
    obtain rfl : past = _ := h
    rfl
  | setChapterOrder id order =>
    obtain rfl : past = _ := h
    rfl
  | updateCourse id r =>
    obtain ⟨course, rfl⟩ := h x rfl
    have hid : course.id = id := copies id course (by simp)
    exact congrArg (fun k => [(k, r.name, r.description)]) hid
  | reorderLessons chapterId ids => exact h (.inr rfl)
  | deleteCourse id | deleteChapter id | deleteLesson id => exact h rfl
  | _ => trivial

end Operation

end Coursework
