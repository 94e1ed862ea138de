import Coursework.Proofs.Reads
import Mathlib.Data.List.Dedup

/-!
# Reordering

A reordering walks through a list of ids and writes to each lesson of the chapter the place at which it stands, so that
of several places the last one stays.  Listed lessons therefore end with different places, in the order of their last
occurrences, and are shown in this order.
-/
namespace Coursework

namespace Table

variable {α κ : Type} [DecidableEq κ] {key : α → κ} {k : κ} {f : α → α} {rows : List α}

theorem modify?_eq_map {y : α} {rows' : List α} (unique : (rows.map key).Nodup)
    (h : modify? (fun x => key x = k) f rows = some (y, rows')) :
    rows' = rows.map fun x => if key x = k then f x else x := by
  obtain ⟨before, x, after, rfl, hx, -, rfl⟩ := modify?_split h
  have hx : key x = k := of_decide_eq_true hx
  simp only [List.map_append, List.map_cons] at unique ⊢
  -- the changed row is the only one of its key
  have hothers : ∀ z ∈ before ++ after, (if key z = k then f z else z) = z := by
    intro z hz
    have hnew := (List.nodup_cons.mp (List.nodup_middle.mp unique)).1
    refine if_neg fun hz' => hnew ?_
    rw [← List.map_append, hx, ← hz']
    exact List.mem_map_of_mem hz
  rw [if_pos hx, List.map_congr_left fun z hz => hothers z (List.mem_append_left _ hz),
    List.map_congr_left fun z hz => hothers z (List.mem_append_right _ hz), List.map_id', List.map_id']

end Table

namespace Lessons

/-- The place at which an id stands last in a list whose first place is given. -/
def lastPlace? : Nat → List String → String → Option Nat
  | _, [], _ => none
  | n, x :: xs, id => (lastPlace? (n + 1) xs id).or (if x = id then some n else none)

variable {n k : Nat} {x id : String} {ids xs : List String}

theorem lastPlace?_eq_none : lastPlace? n ids id = none ↔ id ∉ ids := by
  induction ids generalizing n with
  | nil => simp [lastPlace?]
  | cons x xs ih =>
    rw [lastPlace?, Option.or_eq_none_iff, ih, List.mem_cons, not_or, and_comm]
    simp [eq_comm]

theorem lastPlace?_cons_of_mem (h : id ∈ xs) : lastPlace? n (x :: xs) id = lastPlace? (n + 1) xs id := by
  cases hp : lastPlace? (n + 1) xs id with
  | none => exact absurd h (lastPlace?_eq_none.mp hp)
  | some k => simp [lastPlace?, hp]

theorem lastPlace?_cons_of_not_mem (h : id ∉ xs) :
    lastPlace? n (x :: xs) id = if x = id then some n else none := by
  simp [lastPlace?, lastPlace?_eq_none.mpr h]

theorem lastPlace?_split (h : lastPlace? n ids id = some k) :
    ∃ before after, ids = before ++ id :: after ∧ id ∉ after ∧ k = n + before.length := by
  induction ids generalizing n with
  | nil => cases h
  | cons x xs ih =>
    by_cases hmem : id ∈ xs
    · rw [lastPlace?_cons_of_mem hmem] at h
      obtain ⟨before, after, rfl, hafter, rfl⟩ := ih h
      exact ⟨x :: before, after, rfl, hafter, by simp only [List.length_cons]; omega⟩
    · rw [lastPlace?_cons_of_not_mem hmem, Option.ite_none_right_eq_some] at h
      obtain ⟨rfl, hk⟩ := h
      exact ⟨[], xs, rfl, hmem, (Option.some.inj hk).symm⟩

theorem le_of_lastPlace? (h : lastPlace? n ids id = some k) : n ≤ k := by
  obtain ⟨before, -, -, -, rfl⟩ := lastPlace?_split h
  exact Nat.le_add_right n before.length

theorem lastPlace?_injective {a b : String} (ha : lastPlace? n ids a = some k) (hb : lastPlace? n ids b = some k) :
    a = b := by
  obtain ⟨before, after, hids, -, hk⟩ := lastPlace?_split ha
  obtain ⟨before', after', hids', -, hk'⟩ := lastPlace?_split hb
  have hlength : before.length = before'.length := by omega
  exact (List.cons.inj (List.append_inj (hids.symm.trans hids') hlength).2).1

/-- Both ids stand in the list, the first one last before the other does. -/
def Precedes (n : Nat) (ids : List String) (a b : String) : Prop :=
  ∃ i j, lastPlace? n ids a = some i ∧ lastPlace? n ids b = some j ∧ i < j

theorem Precedes.asymm {a b : String} (hab : Precedes n ids a b) : ¬ Precedes n ids b a := by
  obtain ⟨i, j, hi, hj, hij⟩ := hab
  rintro ⟨j', i', hj', hi', hji⟩
  rw [hi] at hi'
  rw [hj] at hj'
  cases hi'
  cases hj'
  omega

theorem dedup_precedes (n : Nat) (ids : List String) : ids.dedup.Pairwise (Precedes n ids) := by
  induction ids generalizing n with
  | nil => exact List.Pairwise.nil
  | cons x xs ih =>
    have hlater : xs.dedup.Pairwise (Precedes n (x :: xs)) := by
      refine (ih (n + 1)).imp_of_mem fun ha hb h => ?_
      obtain ⟨i, j, hi, hj, hij⟩ := h
      rw [← lastPlace?_cons_of_mem (x := x) (List.mem_dedup.mp ha)] at hi
      rw [← lastPlace?_cons_of_mem (x := x) (List.mem_dedup.mp hb)] at hj
      exact ⟨i, j, hi, hj, hij⟩
    -- an id that comes again is dropped here and counts further on
    by_cases hx : x ∈ xs
    · rwa [List.dedup_cons_of_mem hx]
    · rw [List.dedup_cons_of_notMem hx]
      refine List.pairwise_cons.mpr ⟨fun b hb => ?_, hlater⟩
      have hb := List.mem_dedup.mp hb
      obtain ⟨j, hj⟩ := Option.ne_none_iff_exists'.mp fun hnone => lastPlace?_eq_none.mp hnone hb
      have hfirst : lastPlace? n (x :: xs) x = some n := by rw [lastPlace?_cons_of_not_mem hx, if_pos rfl]
      exact ⟨n, j, hfirst, (lastPlace?_cons_of_mem hb).trans hj, le_of_lastPlace? hj⟩

variable {now : Timestamp} {known : List String}

/-- A lesson after a reordering: at its last place, if it is listed and of the chapter. -/
def placed (now : Timestamp) (known : List String) (n : Nat) (ids : List String) (l : Lesson) : Lesson :=
  match lastPlace? n ids l.id with
  | some k => if l.id ∈ known then { l with order := Int32.ofNat k, updatedAt := now } else l
  | none => l

theorem placed_id (l : Lesson) : (placed now known n ids l).id = l.id := by
  unfold placed
  split
  · split <;> rfl
  · rfl

theorem placed_chapterId (l : Lesson) : (placed now known n ids l).chapterId = l.chapterId := by
  unfold placed
  split
  · split <;> rfl
  · rfl

theorem placed_order {l : Lesson} (hk : l.id ∈ known) (h : lastPlace? n ids l.id = some k) :
    (placed now known n ids l).order = Int32.ofNat k := by
  simp [placed, h, hk]

def seated (now : Timestamp) (known : List String) (n : Nat) (id : String) (l : Lesson) : Lesson :=
  if l.id = id ∧ id ∈ known then { l with order := Int32.ofNat n, updatedAt := now } else l

theorem seated_id (l : Lesson) : (seated now known n x l).id = l.id := by
  unfold seated
  split <;> rfl

theorem placed_seated (l : Lesson) :
    placed now known (n + 1) xs (seated now known n x l) = placed now known n (x :: xs) l := by
  simp only [placed, seated_id, lastPlace?]
  cases lastPlace? (n + 1) xs l.id with
  | some k =>
    -- a later place is written over this one
    by_cases hk : l.id ∈ known
    · simp only [Option.some_or, hk, if_true, seated]
      split <;> rfl
    · have hother : ¬ (l.id = x ∧ x ∈ known) := fun h => hk (h.1 ▸ h.2)
      simp [seated, hk, hother]
  | none =>
    by_cases hx : x = l.id
    · subst hx
      simp [seated]
    · simp [seated, hx, Ne.symm hx]

theorem assign_eq_map {rows : List Lesson} (unique : (rows.map Lesson.id).Nodup) :
    (if x ∈ known then assign now x n rows else rows) = rows.map (seated now known n x) := by
  by_cases hx : x ∈ known
  · have hseated : seated now known n x =
        fun l => if l.id = x then { l with order := Int32.ofNat n, updatedAt := now } else l := by
      funext l
      simp [seated, hx]
    rw [if_pos hx, assign, hseated]
    cases h : Table.modify? (fun l : Lesson => l.id = x)
        (fun l => { l with order := Int32.ofNat n, updatedAt := now }) rows with
    | none =>
      have hnone := Table.modify?_eq_none.mp h
      have hsame : ∀ l ∈ rows, (if l.id = x then { l with order := Int32.ofNat n, updatedAt := now } else l) = l :=
        fun l hl => if_neg (of_decide_eq_false (hnone l hl))
      rw [List.map_congr_left hsame, List.map_id']
      rfl
    | some changed => exact Table.modify?_eq_map unique h
  · have hseated : seated now known n x = fun l => l := funext fun l => if_neg fun h => hx h.2
    rw [if_neg hx, hseated, List.map_id']

/-- A reordering that is carried through writes to every lesson its last place. -/
theorem assignAll_eq_map {rows : List Lesson} (unique : (rows.map Lesson.id).Nodup) :
    assignAll now known n ids rows = rows.map (placed now known n ids) := by
  induction ids generalizing n rows with
  | nil => exact (List.map_id' rows).symm
  | cons x xs ih =>
    have hunique : ((rows.map (seated now known n x)).map Lesson.id).Nodup := by
      rw [List.map_map]
      exact (List.map_congr_left fun l _ => seated_id l) ▸ unique
    rw [assignAll, assign_eq_map unique, ih hunique, List.map_map]
    exact List.map_congr_left fun l _ => placed_seated l

/-- The last places of the known ids are numbers that an order can be. -/
def Fits (known : List String) (n : Nat) (ids : List String) : Prop :=
  ∀ id ∈ known, ∀ k, lastPlace? n ids id = some k → k < 0x80000000

theorem fits_cons (rest : Fits known (n + 1) xs) (first : x ∈ known → n < 0x80000000) : Fits known n (x :: xs) := by
  intro id hid k hk
  by_cases hmem : id ∈ xs
  · exact rest id hid k (lastPlace?_cons_of_mem hmem ▸ hk)
  · rw [lastPlace?_cons_of_not_mem hmem, Option.ite_none_right_eq_some] at hk
    obtain ⟨rfl, hk⟩ := hk
    exact Option.some.inj hk ▸ first hid

variable {m : Mishaps}

/-- A place that does not fit ends the reordering with a failure. -/
theorem place_fits (b : Backend) (known : List String) (n : Nat) (ids : List String) :
    b.Ends m (place now known n ids) fun r _ => r = .ok () → Fits known n ids := by
  induction ids generalizing b n with
  | nil => exact Backend.ends_done fun _ _ _ _ hk => by cases hk
  | cons x xs ih =>
    simp only [place]
    by_cases hx : x ∈ known
    · by_cases hn : n < 0x80000000
      · rw [if_pos hx, if_pos hn]
        refine Backend.ends_ask rfl (fun _ store _ _ _ => ?_) fun e _ _ _ => by rintro ⟨⟩
        exact Backend.ends_weaken (ih _ (n + 1)) fun r _ h hr => fits_cons (h hr) fun _ => hn
      · rw [if_pos hx, if_neg hn]
        exact Backend.ends_done (by rintro ⟨⟩)
    · rw [if_neg hx]
      exact Backend.ends_weaken (ih b (n + 1)) fun r _ h hr => fits_cons (h hr) fun hx' => absurd hx' hx

theorem reorder_fits (b : Backend) (chapterId : String) (ids : List String) :
    b.Ends m (reorder now chapterId ids) fun r _ =>
      r = .ok () → Fits ((b.store.lessonsOf chapterId).map Lesson.id) 1 ids := by
  refine Backend.ends_read rfl (fun lessons plan armed hl => ?_) fun e _ _ _ => by rintro ⟨⟩
  cases hl
  exact place_fits _ _ 1 ids

/-- Known lessons stay where they are while their places are written, so that no write of a list that is not too long
fails by itself. -/
theorem place_succeeds (b : Backend) (known : List String) (n : Nat) (ids : List String)
    (short : n + ids.length ≤ 0x80000000) (present : known ⊆ b.store.lessons.map Lesson.id) :
    b.Ends .nothing (place now known n ids) fun r _ => r = .ok () := by
  induction ids generalizing b n with
  | nil => exact Backend.ends_done rfl
  | cons x xs ih =>
    have hn : n < 0x80000000 := by simp only [List.length_cons] at short; omega
    have hrest : n + 1 + xs.length ≤ 0x80000000 := by simp only [List.length_cons] at short; omega
    simp only [place]
    by_cases hx : x ∈ known
    · rw [if_pos hx, if_pos hn]
      refine Backend.ends_ask rfl (fun _ store _ _ h => ih _ (n + 1) hrest ?_) fun e _ _ he => ?_
      · obtain ⟨t, ht, hs⟩ := Store.change_map_eq_ok h
        obtain ⟨⟨row, rows⟩, hrows, rfl⟩ := Option.map_eq_some_iff.mp ht
        cases hs
        exact List.Subset.trans present (List.Perm.of_eq (Table.map_modify? hrows fun _ _ => rfl)).symm.subset
      · obtain ⟨l, hl, hid⟩ := List.mem_map.mp (present hx)
        have hfound : Table.modify? (fun l : Lesson => l.id = x)
            (fun l => { l with order := Int32.ofNat n, updatedAt := now }) b.store.lessons ≠ none :=
          fun hnone => of_decide_eq_false (Table.modify?_eq_none.mp hnone l hl) hid
        obtain ⟨changed, hchanged⟩ := Option.ne_none_iff_exists'.mp hfound
        rcases he with he | he
        · exact he.elim
        · simp [Store.apply, Store.orderLesson?, hchanged, Store.change] at he
    · rw [if_neg hx]
      exact ih b (n + 1) hrest present

theorem reorder_succeeds (b : Backend) (chapterId : String) (ids : List String) (short : ids.length < 0x80000000) :
    b.Ends .nothing (reorder now chapterId ids) fun r _ => r = .ok () := by
  refine Backend.ends_read rfl (fun lessons plan armed hl => ?_) fun e _ _ he => ?_
  · cases hl
    refine place_succeeds (b.asked _ b.store plan armed) _ 1 ids (by omega) ?_
    exact List.map_subset _ fun l hl => (List.mem_filter.mp ((b.store.lessonsOf_perm chapterId).subset hl)).1
  · rcases he with he | he
    · exact he.elim
    · cases he

theorem lt_of_order_le {i j : Nat} (hi : i < 0x80000000) (hj : j < 0x80000000) (h : Int32.ofNat i ≤ Int32.ofNat j) :
    i ≤ j := by
  rw [Int32.le_iff_toInt_le, Int32.toInt_ofNat_of_lt hi, Int32.toInt_ofNat_of_lt hj] at h
  exact Int.ofNat_le.mp h

end Lessons

namespace Store

open Lessons

/-- The store after a reordering that is carried through. -/
def reordered (s : Store) (now : Timestamp) (chapterId : String) (ids : List String) : Store :=
  { s with lessons := s.lessons.map (placed now ((s.lessonsOf chapterId).map Lesson.id) 1 ids) }

variable {s : Store} {now : Timestamp} {chapterId : String} {ids : List String}

theorem mem_lessonsOf {l : Lesson} : l ∈ s.lessonsOf chapterId ↔ l ∈ s.lessons ∧ l.chapterId = chapterId := by
  rw [(s.lessonsOf_perm chapterId).mem_iff, List.mem_filter, decide_eq_true_eq]

theorem reordered_ids (s : Store) (now : Timestamp) (chapterId : String) (ids : List String) :
    (((s.reordered now chapterId ids).lessonsOf chapterId).map Lesson.id).Perm
      ((s.lessonsOf chapterId).map Lesson.id) := by
  have hafter := ((s.reordered now chapterId ids).lessonsOf_perm chapterId).map Lesson.id
  have hbefore := (s.lessonsOf_perm chapterId).map Lesson.id
  refine hafter.trans (List.Perm.trans (List.Perm.of_eq ?_) hbefore.symm)
  simp [reordered, List.filter_map, Function.comp_def, placed_chapterId, placed_id]

/-- The shown lessons that are listed follow each other as their last occurrences in the list do. -/
theorem reordered_precedes (unique : (s.lessons.map Lesson.id).Nodup)
    (fits : Fits ((s.lessonsOf chapterId).map Lesson.id) 1 ids) :
    (((s.reordered now chapterId ids).lessonsOf chapterId).map Lesson.id).Pairwise fun a b =>
      a ∈ ids → b ∈ ids → Precedes 1 ids a b := by
  have places : ∀ l ∈ (s.reordered now chapterId ids).lessonsOf chapterId, l.id ∈ ids →
      ∃ k, lastPlace? 1 ids l.id = some k ∧ l.order = Int32.ofNat k ∧ k < 0x80000000 := by
    intro l hl hlisted
    obtain ⟨hmem, hchapter⟩ := mem_lessonsOf.mp hl
    obtain ⟨l', hl', rfl⟩ := List.mem_map.mp hmem
    rw [placed_chapterId] at hchapter
    have hknown : l'.id ∈ (s.lessonsOf chapterId).map Lesson.id :=
      List.mem_map_of_mem (mem_lessonsOf.mpr ⟨hl', hchapter⟩)
    rw [placed_id] at hlisted ⊢
    obtain ⟨k, hk⟩ := Option.ne_none_iff_exists'.mp fun hnone => lastPlace?_eq_none.mp hnone hlisted
    exact ⟨k, hk, placed_order hknown hk, fits _ hknown k hk⟩
  have hascend := List.pairwise_map.mp ((s.reordered now chapterId ids).lessonsOf_ascend chapterId)
  have hunique : (((s.reordered now chapterId ids).lessonsOf chapterId).map Lesson.id).Nodup :=
    (reordered_ids s now chapterId ids).nodup_iff.mpr (nodup_of_perm_filter unique (s.lessonsOf_perm chapterId))
  -- ascending orders are ascending places, and no two lessons have one place
  refine List.pairwise_map.mpr ((hascend.and (List.pairwise_map.mp hunique)).imp_of_mem ?_)
  rintro a b ha hb ⟨hle, hne⟩ haids hbids
  obtain ⟨i, hi, hai, hilt⟩ := places a ha haids
  obtain ⟨j, hj, hbj, hjlt⟩ := places b hb hbids
  rw [hai, hbj] at hle
  have hij : i ≤ j := lt_of_order_le hilt hjlt hle
  refine ⟨i, j, hi, hj, Nat.lt_of_le_of_ne hij fun he => hne ?_⟩
  exact lastPlace?_injective hi (he ▸ hj)

theorem reordered_listed (unique : (s.lessons.map Lesson.id).Nodup)
    (fits : Fits ((s.lessonsOf chapterId).map Lesson.id) 1 ids) :
    (((s.reordered now chapterId ids).lessonsOf chapterId).map Lesson.id).filter (· ∈ ids) =
      ids.dedup.filter (· ∈ (s.lessonsOf chapterId).map Lesson.id) := by
  have hshown := reordered_ids s now chapterId ids
  have hunique : ((s.lessonsOf chapterId).map Lesson.id).Nodup :=
    nodup_of_perm_filter unique (s.lessonsOf_perm chapterId)
  -- both lists have the same members, and there is one way only to put them into the order of last places
  refine List.Perm.eq_of_pairwise (fun a b _ _ hab hba => absurd hba hab.asymm) ?_
    ((dedup_precedes 1 ids).filter _) ?_
  · refine ((reordered_precedes unique fits).filter _).imp_of_mem fun ha hb h => ?_
    exact h (of_decide_eq_true (List.mem_filter.mp ha).2) (of_decide_eq_true (List.mem_filter.mp hb).2)
  · refine (List.perm_ext_iff_of_nodup ((hshown.nodup_iff.mpr hunique).filter _) (ids.nodup_dedup.filter _)).mpr ?_
    intro a
    simp only [List.mem_filter, decide_eq_true_eq, List.mem_dedup, hshown.mem_iff]
    exact and_comm

end Store

namespace History

variable {h : History} {now : Timestamp} {chapterId : String} {ids : List String}

theorem serve_reordered (unique : (h.store.lessons.map Lesson.id).Nodup)
    (done : h.result now (.reorderLessons chapterId ids) = .ok ()) :
    (h.serve now (.reorderLessons chapterId ids)).store = h.store.reordered now chapterId ids := by
  have ho := serve_outcome (h.servesWithin_anything now (.reorderLessons chapterId ids))
  rw [done] at ho
  generalize (h.serve now (.reorderLessons chapterId ids)).store = t at ho ⊢
  cases ho with
  | reorderLessons n r complete =>
    rw [complete rfl, List.take_length, Lessons.assignAll_eq_map unique]
    rfl

theorem reorder_done_fits (done : h.result now (.reorderLessons chapterId ids) = .ok ()) :
    Lessons.Fits ((h.store.lessonsOf chapterId).map Lesson.id) 1 ids :=
  Lessons.reorder_fits h.backend.nextStep chapterId ids
    (h.servesWithin_anything now (.reorderLessons chapterId ids)).within done

/-- After a reordering that succeeds, the chapter is shown with all its lessons, by itself and in its course, and those
of them that are listed stand in the order of their last occurrences in the list. -/
theorem reordered_lessons_shown (h : History) (unique : (h.store.lessons.map Lesson.id).Nodup) (now : Timestamp)
    (chapterId : String) (ids : List String) (done : h.result now (.reorderLessons chapterId ids) = .ok ()) :
    let before := h.store.lessons.filter fun l => l.chapterId = chapterId
    let after := (h.serve now (.reorderLessons chapterId ids)).store
    ∃ shown : List Lesson,
      shown.Perm (after.lessons.filter fun l => l.chapterId = chapterId) ∧
      (shown.map Lesson.id).Perm (before.map Lesson.id) ∧
      (shown.map Lesson.id).filter (· ∈ ids) = ids.dedup.filter (· ∈ before.map Lesson.id) ∧
      (∀ chapter, h.store.chapter? chapterId = some chapter → after.Shows (.getChapter chapterId) ⟨chapter, shown⟩) ∧
      ∀ chapter ∈ h.store.chapters, chapter.id = chapterId →
        ∀ course, h.store.course? chapter.courseId = some course →
          ∃ detail, after.Shows (.getCourse chapter.courseId) detail ∧ ⟨chapter, shown⟩ ∈ detail.chapters ∧
            ∀ e ∈ detail.chapters, e.chapter.id = chapterId → e.lessons = shown := by
  intro before after
  have hafter : after = h.store.reordered now chapterId ids := serve_reordered unique done
  have hbefore := (h.store.lessonsOf_perm chapterId).map Lesson.id
  have hids := h.store.reordered_ids now chapterId ids
  have hlisted := @Store.reordered_listed h.store now chapterId ids unique (reorder_done_fits done)
  rw [← hafter] at hids hlisted
  refine ⟨after.lessonsOf chapterId, after.lessonsOf_perm chapterId, hids.trans hbefore, ?_, ?_, ?_⟩
  · rw [hlisted]
    exact List.filter_congr fun a _ => by simp only [hbefore.mem_iff, before]
  · intro chapter found
    have hfound : after.chapter? chapterId = some chapter := by rw [hafter]; exact found
    have hshows := Store.shows_getChapter hfound
    rwa [Store.chapterDetail, Store.id_of_chapter? found] at hshows
  · rintro chapter hchapter rfl course found
    have hid : course.id = chapter.courseId := Store.id_of_course? found
    have hfound : after.course? chapter.courseId = some course := by rw [hafter]; exact found
    refine ⟨after.courseDetail course, Store.shows_getCourse hfound, ?_, ?_⟩
    · refine List.mem_map_of_mem (f := after.chapterDetail) ((after.chaptersOf_perm course.id).mem_iff.mpr ?_)
      refine List.mem_filter.mpr ⟨?_, decide_eq_true hid.symm⟩
      rw [hafter]
      exact hchapter
    · intro e he hentry
      obtain ⟨c, -, rfl⟩ := List.mem_map.mp he
      exact congrArg after.lessonsOf hentry

def sampleShelf : History :=
  sample.serve sampleTime (.addLesson (Uuid.numbered 1).text ⟨"Cuts", "", "", 1, none⟩)

/-- The second lesson first, the first one and a stranger, and the second one again. -/
def sampleIds : List String := [(Uuid.numbered 4).text, (Uuid.numbered 2).text, "stranger", (Uuid.numbered 4).text]

abbrev sampleReordering : Operation := .reorderLessons (Uuid.numbered 1).text sampleIds

theorem reordered_lessons_shown_sample :
    (sampleShelf.store.lessons.map Lesson.id).Nodup ∧ sampleShelf.result sampleTime sampleReordering = .ok () ∧
      ∃ d, (sampleShelf.serve sampleTime sampleReordering).result sampleTime (.getChapter (Uuid.numbered 1).text) =
          .ok d ∧
        (d.lessons.map Lesson.id).filter (· ∈ sampleIds) = [(Uuid.numbered 2).text, (Uuid.numbered 4).text] := by
  have unique : (sampleShelf.store.lessons.map Lesson.id).Nodup := by decide +kernel
  have hshelf := (serve_allows (sample_allows .nothing) sampleTime
    (.addLesson (Uuid.numbered 1).text ⟨"Cuts", "", "", 1, none⟩)).2
  obtain ⟨hwithin, hallows⟩ := serve_allows hshelf sampleTime sampleReordering
  have done : sampleShelf.result sampleTime sampleReordering = .ok () :=
    Lessons.reorder_succeeds _ _ sampleIds (by decide) hwithin.within
  obtain ⟨chapter, found⟩ := Option.isSome_iff_exists.mp
    (show (sampleShelf.store.chapter? (Uuid.numbered 1).text).isSome = true by decide +kernel)
  have hlisted : sampleIds.dedup.filter (· ∈ (sampleShelf.store.lessons.filter fun l =>
      l.chapterId = (Uuid.numbered 1).text).map Lesson.id) = [(Uuid.numbered 2).text, (Uuid.numbered 4).text] := by
    decide +kernel
  obtain ⟨shown, -, -, horder, hchapter, -⟩ :=
    reordered_lessons_shown sampleShelf unique sampleTime (Uuid.numbered 1).text sampleIds done
  have hshown := hchapter chapter found (sampleShelf.serve sampleTime sampleReordering) sampleTime rfl
    (serve_allows hallows sampleTime (.getChapter (Uuid.numbered 1).text)).1
  exact ⟨unique, done, _, hshown.1, horder.trans hlisted⟩

end History

end Coursework
