import Coursework.Proofs.Dates
import Coursework.Proofs.Reordering

/-!
# Reorderings that stop half-way

A reordering loads the lessons of the chapter and then writes the places one by one, and the first call that fails is
its last.  The entries that it came to before count as if they had been the whole list, the places being counted over
all entries though only the lessons of the chapter are written to, and nothing else is changed.
-/
namespace Coursework

open Program

/-- Whether the call was carried out. -/
def Exchange.succeeded (e : Exchange) : Bool := e.answer.isOk

namespace Backend

variable {α : Type} {m : Mishaps} {b : Backend} {c : Call}

/-- A run is followed past its first call, the planned faults still being what they are. -/
theorem follow_call {next : Except Failure c.Answer → Program α}
    {post : List Exchange → Except Failure α → Store → Prop} (allows : b.Allows m)
    (h : ∀ (b' : Backend) r, b'.Allows m → b.store.Answers m c r b'.store →
      post (⟨c, r⟩ :: b'.exchanges (next r)) (b'.run (next r)).1 (b'.run (next r)).2.store) :
    post (b.exchanges (.call c next)) (b.run (.call c next)).1 (b.run (.call c next)).2.store := by
  obtain ⟨store, plan, armed, hb, hallows, hanswer⟩ := perform_replies allows c
  have hstore : (b.perform c).2.store = store := by rw [hb]; rfl
  exact h (b.perform c).2 (b.perform c).1 hallows (hstore ▸ hanswer)

theorem follow_ask {f : c.Answer → Program α} {post : List Exchange → Except Failure α → Store → Prop}
    (allows : b.Allows m) (hc : c.isPlain = true)
    (ok : ∀ x (b' : Backend), b'.Allows m → b.store.apply c = (.ok x, b'.store) →
      post (⟨c, .ok x⟩ :: b'.exchanges (f x)) (b'.run (f x)).1 (b'.run (f x)).2.store)
    (error : ∀ e, m.failure e ∨ (b.store.apply c).1 = .error e → post [⟨c, .error e⟩] (.error e) b.store) :
    post (b.exchanges (ask c >>= f)) (b.run (ask c >>= f)).1 (b.run (ask c >>= f)).2.store := by
  refine follow_call allows fun b' r hallows hanswer => ?_
  rcases hanswer.plain hc with ⟨x, rfl, happly⟩ | ⟨e, rfl, hkept, hfails⟩
  · exact ok x b' hallows happly
  · have hlast := error e hfails
    rwa [← hkept] at hlast

end Backend

namespace Lessons

variable {m : Mishaps} {b : Backend} {now : Timestamp} {known ids handled : List String} {n : Nat}
  {id chapterId : String} {es : List Exchange} {r : Except Failure Unit}

/-- What an entry of the list is written as: nothing, unless it is known. -/
def write (now : Timestamp) (known : List String) (n : Nat) (id : String) : List Exchange :=
  if id ∈ known then [⟨.orderLesson id (Int32.ofNat n) now, .ok ()⟩] else []

/-- The writes to the known ones of these ids, which were all carried out; the places are counted over all ids. -/
def writes (now : Timestamp) (known : List String) : Nat → List String → List Exchange
  | _, [] => []
  | n, id :: ids => write now known n id ++ writes now known (n + 1) ids

theorem writes_succeeded (now : Timestamp) (known : List String) (n : Nat) (ids : List String) :
    ∀ e ∈ writes now known n ids, e.succeeded = true := by
  induction ids generalizing n with
  | nil => exact fun e he => absurd he List.not_mem_nil
  | cons id ids ih =>
    have hfirst : ∀ e ∈ write now known n id, e.succeeded = true := by
      rw [write]
      split
      · exact List.forall_mem_singleton.mpr rfl
      · exact List.forall_mem_nil _
    exact fun e he => (List.mem_append.mp he).elim (hfirst e) (ih (n + 1) e)

/-- The entries that the writing came to, with the exchanges and the result: all of them, or those before a known one
whose write failed. -/
inductive Progress (m : Mishaps) (now : Timestamp) (known : List String) (n : Nat) (ids : List String) :
    List String → List Exchange → Except Failure Unit → Prop
  | complete : Progress m now known n ids ids (writes now known n ids) (.ok ())
  | stopped {handled : List String} {id : String} {rest : List String} {e : Failure}
      (split : ids = handled ++ id :: rest) (own : id ∈ known) (failed : m.failure e) :
      Progress m now known n ids handled
        (writes now known n handled ++ [⟨.orderLesson id (Int32.ofNat (n + handled.length)) now, .error e⟩]) (.error e)

theorem Progress.cons (id : String) (h : Progress m now known (n + 1) ids handled es r) :
    Progress m now known n (id :: ids) (id :: handled) (write now known n id ++ es) r := by
  cases h with
  | complete => exact .complete
  | @stopped _ id' rest e split own failed =>
    have hsplit : id :: ids = (id :: handled) ++ id' :: rest := congrArg (id :: ·) split
    have hstop := @Progress.stopped m now known n _ _ _ _ _ hsplit own failed
    rwa [writes, List.append_assoc, List.length_cons, ← Nat.add_assoc, Nat.add_right_comm] at hstop

theorem Progress.length_le (h : Progress m now known n ids handled es r) : handled.length ≤ ids.length := by
  cases h with
  | complete => exact Nat.le_refl _
  | stopped split => rw [split, List.length_append]; exact Nat.le_add_right _ _

/-- The result tells whether a write failed. -/
theorem Progress.result_eq_ok (h : Progress m now known n ids handled es r) :
    r = .ok () ↔ ∀ e ∈ es, e.succeeded = true := by
  cases h with
  | complete => exact iff_of_true rfl (writes_succeeded now known n ids)
  | stopped =>
    refine iff_of_false (by rintro ⟨⟩) fun h => ?_
    exact Bool.false_ne_true (h _ (List.mem_append_right _ (List.mem_singleton_self _)))

/-- A lesson that is there can be written to. -/
theorem orderLesson_present {s : Store} (now : Timestamp) (n : Nat) (present : id ∈ s.lessons.map Lesson.id) :
    s.apply (.orderLesson id (Int32.ofNat n) now) = (.ok (), { s with lessons := assign now id n s.lessons }) := by
  obtain ⟨l, hl, hid⟩ := List.mem_map.mp present
  cases hrows : Table.modify? (fun l : Lesson => l.id = id)
      (fun l => { l with order := Int32.ofNat n, updatedAt := now }) s.lessons with
  | none => exact absurd hid (of_decide_eq_false (Table.modify?_eq_none.mp hrows l hl))
  | some changed => simp [Store.apply, Store.orderLesson?, hrows, Store.change, assign]

/-- The writing came to some entries, and these count. -/
def Reaches (m : Mishaps) (now : Timestamp) (known : List String) (n : Nat) (ids : List String) (s : Store)
    (es : List Exchange) (r : Except Failure Unit) (t : Store) : Prop :=
  ∃ handled, Progress m now known n ids handled es r ∧
    t = { s with lessons := assignAll now known n handled s.lessons }

theorem place_reaches (now : Timestamp) (allows : b.Allows m) (short : n + ids.length ≤ 0x80000000)
    (present : known ⊆ b.store.lessons.map Lesson.id) :
    Reaches m now known n ids b.store (b.exchanges (place now known n ids)) (b.run (place now known n ids)).1
      (b.run (place now known n ids)).2.store := by
  induction ids generalizing b n with
  | nil => exact ⟨[], .complete, rfl⟩
  | cons id ids ih =>
    have hn : n < 0x80000000 := by simp only [List.length_cons] at short; omega
    have hrest : n + 1 + ids.length ≤ 0x80000000 := by simp only [List.length_cons] at short; omega
    by_cases own : id ∈ known
    · have hplace : place now known n (id :: ids) =
          ask (.orderLesson id (Int32.ofNat n) now) >>= fun _ => place now known (n + 1) ids := by
        rw [place, if_pos own, if_pos hn]
      have happly := orderLesson_present now n (present own)
      rw [hplace]
      refine @Backend.follow_ask _ _ _ _ _ (Reaches m now known n (id :: ids) b.store) allows rfl
        (fun x b' hallows hb' => ?_) fun e he => ?_
      · have hlessons : b'.store = { b.store with lessons := assign now id n b.store.lessons } :=
          congrArg Prod.snd (hb'.symm.trans happly)
        have hids : (assign now id n b.store.lessons).map Lesson.id = b.store.lessons.map Lesson.id := by
          have hmap : (assignAll now known n [id] b.store.lessons).map Lesson.id = b.store.lessons.map Lesson.id :=
            map_assignAll (fun _ _ => rfl) ..
          rwa [assignAll, assignAll, if_pos own] at hmap
        have hpresent : known ⊆ b'.store.lessons.map Lesson.id := by rw [hlessons, hids]; exact present
        obtain ⟨handled, hprogress, hstore⟩ := ih hallows hrest hpresent
        refine ⟨id :: handled, ?_, ?_⟩
        · have hcons := hprogress.cons id
          rwa [write, if_pos own] at hcons
        · rw [hstore, hlessons, assignAll, if_pos own]
      · have hfails : m.failure e := he.resolve_right fun h => by rw [happly] at h; cases h
        exact ⟨[], .stopped rfl own hfails, rfl⟩
    · have hplace : place now known n (id :: ids) = place now known (n + 1) ids := by rw [place, if_neg own]
      obtain ⟨handled, hprogress, hstore⟩ := ih allows hrest present
      rw [hplace]
      refine ⟨id :: handled, ?_, ?_⟩
      · have hcons := hprogress.cons id
        rwa [write, if_neg own, List.nil_append] at hcons
      · rw [hstore, assignAll, if_neg own]

/-- What becomes of a lesson by a reordering of a chapter that came to these entries: a lesson of the chapter that is
among them stands where it is named last and bears the time, and any other lesson is as it was. -/
inductive Becomes (now : Timestamp) (chapterId : String) (handled : List String) : Lesson → Lesson → Prop
  | placed {l : Lesson} {before after : List String} {order : Int32} (own : l.chapterId = chapterId)
      (split : handled = before ++ l.id :: after) (last : l.id ∉ after) (place : order.toInt = before.length + 1) :
      Becomes now chapterId handled l { l with order, updatedAt := now }
  | kept {l : Lesson} (other : l.chapterId ≠ chapterId ∨ l.id ∉ handled) : Becomes now chapterId handled l l

/-- Each lesson has become what it should, and nothing else is changed. -/
structure LeftBehind (now : Timestamp) (chapterId : String) (handled : List String) (s t : Store) : Prop where
  lessons : List.Forall₂ (Becomes now chapterId handled) s.lessons t.lessons
  rest : t = { s with lessons := t.lessons }

theorem id_mem_chapter {s : Store} {l : Lesson} (unique : (s.lessons.map Lesson.id).Nodup) (hl : l ∈ s.lessons) :
    l.id ∈ (s.lessonsOf chapterId).map Lesson.id ↔ l.chapterId = chapterId := by
  refine ⟨fun h => ?_, fun h => List.mem_map_of_mem (Store.mem_lessonsOf.mpr ⟨hl, h⟩)⟩
  obtain ⟨same, hsame, hid⟩ := List.mem_map.mp h
  obtain ⟨hmem, hchapter⟩ := Store.mem_lessonsOf.mp hsame
  rwa [List.inj_on_of_nodup_map unique hmem hl hid] at hchapter

theorem becomes_placed {s : Store} {l : Lesson} (unique : (s.lessons.map Lesson.id).Nodup) (hl : l ∈ s.lessons)
    (short : handled.length < 0x80000000) :
    Becomes now chapterId handled l (placed now ((s.lessonsOf chapterId).map Lesson.id) 1 handled l) := by
  by_cases own : l.chapterId = chapterId
  · have hknown := (id_mem_chapter unique hl).mpr own
    cases hplace : lastPlace? 1 handled l.id with
    | none =>
      have hunlisted := lastPlace?_eq_none.mp hplace
      rw [placed_of_unlisted hunlisted]
      exact .kept (Or.inr hunlisted)
    | some k =>
      obtain ⟨before, after, hsplit, hlast, rfl⟩ := lastPlace?_split hplace
      have hfits : 1 + before.length < 0x80000000 := by
        rw [hsplit, List.length_append, List.length_cons] at short
        omega
      rw [placed, hplace]
      simp only [hknown, if_true]
      refine .placed own hsplit hlast ?_
      rw [Int32.toInt_ofNat_of_lt hfits]
      omega
  · rw [placed_of_unknown fun h => own ((id_mem_chapter unique hl).mp h)]
    exact .kept (Or.inl own)

theorem leftBehind_assignAll {s : Store} (unique : (s.lessons.map Lesson.id).Nodup)
    (short : handled.length < 0x80000000) :
    LeftBehind now chapterId handled s
      { s with lessons := assignAll now ((s.lessonsOf chapterId).map Lesson.id) 1 handled s.lessons } := by
  refine ⟨?_, rfl⟩
  simp only [assignAll_eq_map unique]
  exact List.forall₂_map_right_iff.mpr (List.forall₂_same.mpr fun l hl => becomes_placed unique hl short)

/-- How a reordering can go: the load fails and nothing is changed, or the lessons are loaded and the entries count that
the writing came to. -/
inductive Goes (m : Mishaps) (now : Timestamp) (chapterId : String) (ids : List String) (s : Store) :
    List Exchange → Except Failure Unit → Store → Prop
  | unloaded {e : Failure} (failed : m.failure e) :
      Goes m now chapterId ids s [⟨.lessonsOf chapterId, .error e⟩] (.error e) s
  | written {handled : List String} {es : List Exchange} {r : Except Failure Unit} {t : Store}
      (progress : Progress m now ((s.lessonsOf chapterId).map Lesson.id) 1 ids handled es r)
      (left : LeftBehind now chapterId handled s t) :
      Goes m now chapterId ids s (⟨.lessonsOf chapterId, .ok (s.lessonsOf chapterId)⟩ :: es) r t

theorem Goes.result_eq_ok {s t : Store} (h : Goes m now chapterId ids s es r t) :
    r = .ok () ↔ ∀ e ∈ es, e.succeeded = true := by
  cases h with
  | unloaded => exact iff_of_false (by rintro ⟨⟩) fun h => Bool.false_ne_true (h _ (List.mem_singleton_self _))
  | written progress =>
    rw [progress.result_eq_ok, List.forall_mem_cons]
    exact (and_iff_right rfl).symm

/-- Whichever call of a reordering fails, the entries before it count and it gives the result, which is good exactly
when no call failed. -/
theorem reordering_counts_until_it_fails (b : Backend) (m : Mishaps) (allows : b.Allows m) (now : Timestamp)
    (chapterId : String) (ids : List String) (unique : (b.store.lessons.map Lesson.id).Nodup)
    (short : ids.length < 0x80000000) :
    let exchanges := b.exchanges (reorder now chapterId ids)
    let result := (b.run (reorder now chapterId ids)).1
    Goes m now chapterId ids b.store exchanges result (b.run (reorder now chapterId ids)).2.store ∧
      (result = .ok () ↔ ∀ e ∈ exchanges, e.succeeded = true) := by
  intro exchanges result
  have hgoes : Goes m now chapterId ids b.store exchanges result (b.run (reorder now chapterId ids)).2.store := by
    refine Backend.follow_ask allows rfl (fun lessons b' hallows happly => ?_) fun e he => ?_
    · obtain rfl : b.store.lessonsOf chapterId = lessons := Except.ok.inj (congrArg Prod.fst happly)
      have hkept : b'.store = b.store := (congrArg Prod.snd happly).symm
      have hpresent : (b.store.lessonsOf chapterId).map Lesson.id ⊆ b'.store.lessons.map Lesson.id := by
        rw [hkept]
        exact List.map_subset _ fun l hl => (Store.mem_lessonsOf.mp hl).1
      have hshort : 1 + ids.length ≤ 0x80000000 := by omega
      obtain ⟨handled, hprogress, hstore⟩ := place_reaches now hallows hshort hpresent
      refine .written hprogress ?_
      rw [hstore, hkept]
      exact leftBehind_assignAll unique (Nat.lt_of_le_of_lt hprogress.length_le short)
    · exact .unloaded (he.resolve_right fun h => by cases h)
  exact ⟨hgoes, hgoes.result_eq_ok⟩

/-- Two chapters with a lesson each, where the second write of a place fails. -/
def sampleHalting : Backend :=
  { ((History.start .numbered .numbered []).serveAll (History.halfReordering.take 5)).backend with
    plan := [⟨.orderLesson, 1, .refusal (.database "lost")⟩], armed := [] }

def sampleMishaps : Mishaps := ⟨fun f => f = .database "lost", False⟩

/-- The lesson of the other chapter, the one of this chapter, a stranger, and the second one again. -/
def sampleEntries : List String := [(Uuid.numbered 4).text, (Uuid.numbered 3).text, "stranger", (Uuid.numbered 3).text]

/-- The lesson of the chapter keeps its first place, as it could not be given its second one. -/
theorem reordering_counts_until_it_fails_sample :
    sampleHalting.Allows sampleMishaps ∧ (sampleHalting.store.lessons.map Lesson.id).Nodup ∧
      sampleEntries.length < 0x80000000 ∧
      ∃ es t, Goes sampleMishaps (.ofUnix 60) (Uuid.numbered 1).text sampleEntries sampleHalting.store es
          (.error (.database "lost")) t ∧
        es.map Exchange.succeeded = [true, true, false] ∧ t.lessons.map Lesson.order = [2, 1] := by
  have allows : sampleHalting.Allows sampleMishaps :=
    ⟨List.forall_mem_singleton.mpr rfl, List.forall_mem_nil _⟩
  have unique : (sampleHalting.store.lessons.map Lesson.id).Nodup := by decide +kernel
  have hgoes := (reordering_counts_until_it_fails sampleHalting sampleMishaps allows (.ofUnix 60) (Uuid.numbered 1).text
    sampleEntries unique (by decide)).1
  have hresult : (sampleHalting.run (reorder (.ofUnix 60) (Uuid.numbered 1).text sampleEntries)).1 =
      .error (.database "lost") := by decide +kernel
  rw [hresult] at hgoes
  exact ⟨allows, unique, by decide, _, _, hgoes, by decide +kernel, by decide +kernel⟩

end Lessons

end Coursework
