import Coursework.Proofs.History

/-!
# Reads

A read whose calls do not fail gives what the store holds and leaves it as it is.  The lists of siblings that it is put
together from hold exactly the rows of one parent, in ascending order.
-/
namespace Coursework

open Program

namespace Table

variable {α : Type} {le : α → α → Bool}

theorem sorted_perm (le : α → α → Bool) (rows : List α) : (sorted le rows).Perm rows := List.mergeSort_perm rows le

theorem sorted_pairwise (trans : ∀ a b c, le a b = true → le b c = true → le a c = true)
    (total : ∀ a b, (le a b || le b a) = true) (rows : List α) :
    (sorted le rows).Pairwise fun a b => le a b = true := List.pairwise_mergeSort trans total rows

end Table

namespace Store

theorem timeLe_trans {a b c : Timestamp} (hab : timeLe a b = true) (hbc : timeLe b c = true) : timeLe a c = true :=
  decide_eq_true (String.le_trans (of_decide_eq_true hab) (of_decide_eq_true hbc))

theorem timeLe_total (a b : Timestamp) : (timeLe a b || timeLe b a) = true := by
  simpa [timeLe] using String.le_total a.text b.text

section Siblings

variable {a b c : Int32} {s t u : Timestamp}

theorem siblingLe_iff : siblingLe a b s t = true ↔ a < b ∨ a = b ∧ timeLe s t = true := by
  simp [siblingLe, lexLe]

theorem siblingLe_trans (hab : siblingLe a b s t = true) (hbc : siblingLe b c t u = true) :
    siblingLe a c s u = true := by
  rw [siblingLe_iff] at *
  rcases hab with hab | ⟨rfl, hab⟩
  · rcases hbc with hbc | ⟨rfl, -⟩
    · exact Or.inl (Int32.lt_trans hab hbc)
    · exact Or.inl hab
  · exact hbc.imp_right fun ⟨he, hbc⟩ => ⟨he, timeLe_trans hab hbc⟩

theorem siblingLe_total (a b : Int32) (s t : Timestamp) : (siblingLe a b s t || siblingLe b a t s) = true := by
  rw [Bool.or_eq_true, siblingLe_iff, siblingLe_iff]
  rcases Int32.lt_or_le a b with h | h
  · exact Or.inl (Or.inl h)
  · rcases Int32.lt_or_eq_of_le h with h | rfl
    · exact Or.inr (Or.inl h)
    · exact (Bool.or_eq_true _ _ ▸ timeLe_total s t).imp (fun h => Or.inr ⟨rfl, h⟩) fun h => Or.inr ⟨rfl, h⟩

theorem le_of_siblingLe (h : siblingLe a b s t = true) : a ≤ b := by
  rcases siblingLe_iff.mp h with h | ⟨rfl, -⟩
  · exact Int32.le_of_lt h
  · exact Int32.le_refl a

end Siblings

theorem siblings_sorted {α : Type} (order : α → Int32) (time : α → Timestamp) (rows : List α) :
    (Table.sorted (fun a b => siblingLe (order a) (order b) (time a) (time b)) rows).Pairwise fun a b =>
      siblingLe (order a) (order b) (time a) (time b) = true := by
  have trans : ∀ a b c, siblingLe (order a) (order b) (time a) (time b) = true →
      siblingLe (order b) (order c) (time b) (time c) = true →
      siblingLe (order a) (order c) (time a) (time c) = true := fun _ _ _ => siblingLe_trans
  have total : ∀ a b, (siblingLe (order a) (order b) (time a) (time b) ||
      siblingLe (order b) (order a) (time b) (time a)) = true := fun _ _ => siblingLe_total ..
  exact Table.sorted_pairwise trans total rows

theorem siblings_ascend {α : Type} (order : α → Int32) (time : α → Timestamp) (rows : List α) :
    ((Table.sorted (fun a b => siblingLe (order a) (order b) (time a) (time b)) rows).map order).Pairwise
      (· ≤ ·) := by
  rw [List.pairwise_map]
  exact (siblings_sorted order time rows).imp fun h => le_of_siblingLe h

/-- Rows that are found under a key are as unique as all rows. -/
theorem nodup_of_perm_filter {α : Type} {rows shown : List α} {p : α → Bool} {key : α → String}
    (unique : (rows.map key).Nodup) (h : shown.Perm (rows.filter p)) : (shown.map key).Nodup :=
  (h.map key).nodup_iff.mpr (unique.sublist (List.filter_sublist.map key))

variable (s : Store) (id : String)

theorem chaptersOf_perm : (s.chaptersOf id).Perm (s.chapters.filter fun c => c.courseId = id) :=
  Table.sorted_perm ..

theorem chaptersOf_ascend : ((s.chaptersOf id).map Chapter.order).Pairwise (· ≤ ·) :=
  siblings_ascend Chapter.order Chapter.createdAt _

theorem lessonsOf_perm : (s.lessonsOf id).Perm (s.lessons.filter fun l => l.chapterId = id) :=
  Table.sorted_perm ..

theorem lessonsOf_ascend : ((s.lessonsOf id).map Lesson.order).Pairwise (· ≤ ·) :=
  siblings_ascend Lesson.order Lesson.createdAt _

end Store

namespace Backend

variable {s : Store} {α β : Type}

/-- In such a store the program gives this value and leaves the store as it is, if nothing befalls it. -/
def Yields (s : Store) (p : Program α) (x : α) : Prop :=
  ∀ b : Backend, b.store = s → b.Ends .nothing p fun r b' => r = .ok x ∧ b'.store = s

theorem yields_ok {x : α} : Yields s (ok x) x := fun _ hs => ends_done ⟨rfl, hs⟩

theorem yields_bind {p : Program α} {f : α → Program β} {x : α} {y : β} (hp : Yields s p x) (hf : Yields s (f x) y) :
    Yields s (p >>= f) y := by
  refine fun b hs => ends_bind (hp b hs) (fun x' b' h => ?_) fun e b' h => ?_
  · obtain ⟨hx, hb'⟩ := h
    cases hx
    exact hf b' hb'
  · cases h.1

theorem yields_read {c : Call} {x : c.Answer} (hc : c.isRead = true) (hx : (s.apply c).1 = .ok x) :
    Yields s (ask c) x := by
  rintro b rfl
  refine ends_last (Call.isPlain_of_isRead hc) (fun y store _ _ hy => ?_) fun e _ _ he => ?_
  · have hstore : store = b.store := by rw [← Store.apply_read hc b.store, hy]
    rw [hy] at hx
    exact ⟨hx, hstore⟩
  · rcases he with he | he
    · exact he.elim
    · rw [hx] at he
      cases he

end Backend

open Backend

/-- In a store like this, an operation that nothing befalls gives this result and leaves the store as it is. -/
def Store.Shows (s : Store) (op : Operation) (x : op.Result) : Prop :=
  ∀ (h : History) (now : Timestamp), h.store = s → h.ServesWithin .nothing now op →
    h.result now op = .ok x ∧ (h.serve now op).store = s

namespace Store

variable {s : Store}

theorem shows_of_yields {op : Operation} {x : op.Result} (h : ∀ now, Yields s (op.program now) x) : s.Shows op x :=
  fun hist now hs hw => h now hist.backend.nextStep hs hw.within

variable (s)

theorem shows_listCourses : s.Shows .listCourses s.sortedCourses := shows_of_yields fun _ => yields_read rfl rfl

theorem shows_listChapters : s.Shows .listChapters s.sortedChapters := shows_of_yields fun _ => yields_read rfl rfl

theorem shows_listLessons : s.Shows .listLessons s.sortedLessons := shows_of_yields fun _ => yields_read rfl rfl

/-- A chapter with its lessons. -/
def chapterDetail (chapter : Chapter) : ChapterDetail := ⟨chapter, s.lessonsOf chapter.id⟩

/-- A course with its chapters and their lessons. -/
def courseDetail (course : Course) : CourseDetail := ⟨course, (s.chaptersOf course.id).map s.chapterDetail⟩

variable {s}

theorem yields_find {α : Type} {c : Call} {found : Option c.Answer} {missing : Failure} {x : c.Answer}
    {f : c.Answer → Program α} {y : α} (hc : c.isRead = true) (hcall : s.apply c = s.lookUp found missing)
    (hfound : found = some x) (hf : Yields s (f x) y) : Yields s (ask c >>= f) y :=
  yields_bind (yields_read hc (by rw [hcall]; exact lookUp_eq_ok.mpr hfound)) hf

variable {id : String} {chapter : Chapter} {course : Course}

theorem id_of_chapter? (found : s.chapter? id = some chapter) : chapter.id = id := by
  simpa using List.find?_some found

theorem id_of_course? (found : s.course? id = some course) : course.id = id := by
  simpa using List.find?_some found

theorem shows_getChapter (found : s.chapter? id = some chapter) :
    s.Shows (.getChapter id) (s.chapterDetail chapter) := by
  refine shows_of_yields fun _ => yields_find rfl rfl found ?_
  refine yields_bind (yields_read rfl rfl) ?_
  rw [chapterDetail, id_of_chapter? found]
  exact yields_ok

theorem details_yields (s : Store) (cs : List Chapter) : Yields s (Courses.details cs) (cs.map s.chapterDetail) := by
  induction cs with
  | nil => exact yields_ok
  | cons c cs ih =>
    refine yields_bind (yields_read rfl rfl) ?_
    exact yields_bind ih yields_ok

theorem shows_getCourse (found : s.course? id = some course) : s.Shows (.getCourse id) (s.courseDetail course) := by
  refine shows_of_yields fun _ => yields_find rfl rfl found ?_
  refine yields_bind (yields_read rfl rfl) ?_
  refine yields_bind (details_yields s _) ?_
  rw [courseDetail, id_of_course? found]
  exact yields_ok

end Store

end Coursework
