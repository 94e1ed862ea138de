import Coursework.Proofs.Outcome
import Coursework.Proofs.Runs
import Coursework.Proofs.Table

/-!
# Operations come to their outcomes

Each operation is followed through its calls, with every call failing or not, to one of its outcomes.
-/
namespace Coursework

open Backend Program

variable {m : Mishaps} {now : Timestamp} {b : Backend}

namespace Store

variable {α β : Type} {s t : Store} {row : α} {rows : List α} {p : α → Bool} {refused : Failure}

theorem change_add_eq_ok {clash : α → α → Bool} {put : List α → Store} {x : α}
    (h : s.change (((Table.add? clash row rows).map put).map fun t => (row, t)) refused = (.ok x, t)) :
    x = row ∧ (∀ y ∈ rows, clash row y = false) ∧ t = put (rows ++ [row]) := by
  obtain ⟨t', ht, he⟩ := change_map_eq_ok h
  obtain ⟨rows', hrows, rfl⟩ := Option.map_eq_some_iff.mp ht
  obtain ⟨fresh, rfl⟩ := Table.add?_eq_some.mp hrows
  cases he
  exact ⟨rfl, fresh, rfl⟩

theorem change_remove_eq_ok {put : List α → Store} {x : Unit}
    (h : s.change (((Table.remove? p rows).map put).map fun t => ((), t)) refused = (.ok x, t)) :
    ∃ rest, Table.remove? p rows = some rest ∧ t = put rest := by
  obtain ⟨t', ht, he⟩ := change_map_eq_ok h
  obtain ⟨rest, hrest, rfl⟩ := Option.map_eq_some_iff.mp ht
  cases he
  exact ⟨rest, hrest, rfl⟩

theorem Answers.removeBlob {key : String} {r : Except Failure Bool} (h : s.Answers m (.removeBlob key) r t) :
    (∃ rest, Table.remove? (fun b => b.key = key) s.blobs = some rest ∧ t = { s with blobs := rest }) ∨
      t = s ∧ ((∃ f, m.failure f) ∨ ∀ b ∈ s.blobs, b.key ≠ key) := by
  have applied : (∃ rest, Table.remove? (fun b => b.key = key) s.blobs = some rest ∧
      (s.apply (.removeBlob key)).2 = { s with blobs := rest }) ∨
      (s.apply (.removeBlob key)).2 = s ∧ ∀ b ∈ s.blobs, b.key ≠ key := by
    simp only [apply, removeBlob?]
    cases hr : Table.remove? (fun b => b.key = key) s.blobs with
    | some rest => exact Or.inl ⟨rest, rfl, rfl⟩
    | none => exact Or.inr ⟨rfl, by simpa using Table.remove?_eq_none.mp hr⟩
  cases h with
  | done => exact applied.imp_right fun h => ⟨h.1, Or.inr h.2⟩
  | failed _ f hf => exact Or.inr ⟨rfl, Or.inl ⟨f, hf⟩⟩
  | cleared _ f hf => exact applied.imp_right fun h => ⟨h.1, Or.inr h.2⟩

theorem addGrant_eq_ok {row : Grant} {x : Except DatabaseError Unit} (h : s.apply (.addGrant row) = (.ok x, t))
    (fresh : s.hasGrant row.userId row.lessonId = false) :
    x = .ok () ∧ t = { s with grants := s.grants ++ [row] } := by
  have hadd : s.addGrant? row = some { s with grants := s.grants ++ [row] } := by
    have hclash : s.grants.any (isGrantFor row.userId row.lessonId) = false := fresh
    simp only [addGrant?, Table.add?]
    rw [hclash]
    rfl
  simp only [apply, hadd] at h
  cases h
  exact ⟨rfl, rfl⟩

end Store

/-- Ending in an outcome of an operation. -/
def Operation.Settles (m : Mishaps) (now : Timestamp) (b : Backend) (op : Operation) (r : Except Failure op.Result)
    (b' : Backend) : Prop :=
  Outcome m now (b.ids b.idsDrawn) (b.keys b.keysDrawn) b.store op r b'.store

open Operation

namespace Courses

theorem details_ends (b : Backend) (s : Store) (hs : b.store = s) (cs : List Chapter) :
    b.Ends m (details cs) fun r b' =>
      b'.store = s ∧ ∀ ds, r = .ok ds → ds = cs.map fun c => ⟨c, s.lessonsOf c.id⟩ := by
  induction cs generalizing b with
  | nil => exact ends_done ⟨hs, fun ds h => by cases h; rfl⟩
  | cons c cs ih =>
    refine ends_read rfl (fun lessons _ _ h => ?_) fun e _ _ _ => ⟨hs, fun _ h => by cases h⟩
    refine ends_bind (ih _ hs) (fun ds b' hd => ?_) fun e b' hd => ⟨hd.1, fun _ h => by cases h⟩
    refine ends_done ⟨hd.1, fun _ he => ?_⟩
    cases he
    cases h
    rw [hd.2 ds rfl, List.map_cons, hs]

theorem get_ends (id : String) : b.Ends m (get id) (Settles m now b (.getCourse id)) := by
  refine ends_read rfl (fun course _ _ hc => ?_) fun e _ _ _ => .failed _ e
  refine ends_read rfl (fun chapters _ _ hs => ?_) fun e _ _ _ => .failed _ e
  refine ends_bind (details_ends (asked ..) b.store rfl chapters) (fun ds b' hd => ?_) fun e b' hd => ?_
  · cases hs
    obtain ⟨hb, hds⟩ := hd
    refine ends_done ?_
    rw [Settles, hb, hds ds rfl]
    exact .getCourse (Store.lookUp_eq_ok.mp hc)
  · rw [Settles, hd.1]
    exact .failed _ e

theorem create_ends (r : NewCourse) : b.Ends m (create now r) (Settles m now b (.createCourse r)) := by
  refine ends_ofExcept (fun _ hv => ?_) fun e _ => .failed _ e
  refine ends_freshId ?_
  refine ends_last rfl (fun row store _ _ h => ?_) fun e _ _ _ => .failed _ e
  obtain ⟨rfl, fresh, rfl⟩ := Store.change_add_eq_ok h
  exact .createCourse hv fun c hc => Ne.symm (of_decide_eq_false (fresh c hc))

theorem update_ends (id : String) (r : CourseUpdate) :
    b.Ends m (update now id r) (Settles m now b (.updateCourse id r)) := by
  refine ends_ofExcept (fun _ hv => ?_) fun e _ => .failed _ e
  -- what follows the check of the named id, which is skipped where none is named
  have rest (hn : ∀ i, r.id = some i → i = id) :
      b.Ends m (ask (.findCourse id) >>= fun course => ask (.replaceCourse (r.revise now course)))
        (Settles m now b (.updateCourse id r)) := by
    refine ends_read rfl (fun course _ _ hc => ?_) fun e _ _ _ => .failed _ e
    refine ends_last rfl (fun row store _ _ h => ?_) fun e _ _ _ => .failed _ e
    obtain ⟨t, ht, he⟩ := Store.change_map_eq_ok h
    obtain ⟨⟨y, rows⟩, hrows, rfl⟩ := Option.map_eq_some_iff.mp ht
    cases he
    exact .updateCourse hv hn (Store.lookUp_eq_ok.mp hc) hrows
  cases hi : r.id with
  | none => exact rest fun i h => by rw [hi] at h; cases h
  | some i =>
    refine ends_require (fun h => rest fun j hj => ?_) fun _ => .failed _ _
    rw [hi] at hj
    cases hj
    exact of_decide_eq_true h

theorem delete_ends (id : String) : b.Ends m (delete id) (Settles m now b (.deleteCourse id)) := by
  refine ends_read rfl (fun known _ _ _ => ?_) fun e _ _ _ => .failed _ e
  refine ends_require (fun _ => ?_) fun _ => .failed _ _
  refine ends_read rfl (fun chapters _ _ hn => ?_) fun e _ _ _ => .failed _ e
  refine ends_require (fun h => ?_) fun _ => .failed _ _
  refine ends_last rfl (fun _ store _ _ hr => ?_) fun e _ _ _ => .failed _ e
  obtain ⟨rows, hrows, rfl⟩ := Store.change_remove_eq_ok hr
  cases hn
  refine .deleteCourse (fun c hc he => ?_) hrows
  have hcount := List.countP_eq_zero.mp (of_decide_eq_true h) c hc
  exact hcount (decide_eq_true he)

end Courses

namespace Chapters

theorem get_ends (id : String) : b.Ends m (get id) (Settles m now b (.getChapter id)) := by
  refine ends_read rfl (fun chapter _ _ hc => ?_) fun e _ _ _ => .failed _ e
  refine ends_read rfl (fun lessons _ _ hl => ?_) fun e _ _ _ => .failed _ e
  cases hl
  exact ends_done (.getChapter (Store.lookUp_eq_ok.mp hc))

theorem add_ends (courseId : String) (r : NewChapter) :
    b.Ends m (add now courseId r) (Settles m now b (.addChapter courseId r)) := by
  refine ends_ofExcept (fun _ hv => ?_) fun e _ => .failed _ e
  refine ends_read rfl (fun known _ _ hk => ?_) fun e _ _ _ => .failed _ e
  refine ends_require (fun hp => ?_) fun _ => .failed _ _
  refine ends_freshId ?_
  refine ends_last rfl (fun row store _ _ h => ?_) fun e _ _ _ => .failed _ e
  obtain ⟨rfl, fresh, rfl⟩ := Store.change_add_eq_ok h
  cases hk
  exact .addChapter hv hp fun c hc => Ne.symm (of_decide_eq_false (fresh c hc))

theorem setOrder_ends (id : String) (order : Int32) :
    b.Ends m (setOrder now id order) (Settles m now b (.setChapterOrder id order)) := by
  refine ends_last rfl (fun row store _ _ h => ?_) fun e _ _ _ => .failed _ e
  obtain ⟨⟨y, rows⟩, hrows, he⟩ := Store.change_map_eq_ok h
  cases he
  exact .setChapterOrder hrows

theorem delete_ends (id : String) : b.Ends m (delete id) (Settles m now b (.deleteChapter id)) := by
  refine ends_read rfl (fun known _ _ _ => ?_) fun e _ _ _ => .failed _ e
  refine ends_require (fun _ => ?_) fun _ => .failed _ _
  refine ends_read rfl (fun lessons _ _ hn => ?_) fun e _ _ _ => .failed _ e
  refine ends_require (fun h => ?_) fun _ => .failed _ _
  refine ends_last rfl (fun _ store _ _ hr => ?_) fun e _ _ _ => .failed _ e
  obtain ⟨rows, hrows, rfl⟩ := Store.change_remove_eq_ok hr
  cases hn
  refine .deleteChapter (fun l hl he => ?_) hrows
  have hcount := List.countP_eq_zero.mp (of_decide_eq_true h) l hl
  exact hcount (decide_eq_true he)

end Chapters

namespace Lessons

theorem add_ends (chapterId : String) (r : NewLesson) :
    b.Ends m (add now chapterId r) (Settles m now b (.addLesson chapterId r)) := by
  refine ends_ofExcept (fun _ hv => ?_) fun e _ => .failed _ e
  refine ends_read rfl (fun known _ _ hk => ?_) fun e _ _ _ => .failed _ e
  refine ends_require (fun hp => ?_) fun _ => .failed _ _
  refine ends_freshId ?_
  refine ends_last rfl (fun row store _ _ h => ?_) fun e _ _ _ => .failed _ e
  obtain ⟨rfl, fresh, rfl⟩ := Store.change_add_eq_ok h
  cases hk
  exact .addLesson hv hp fun l hl => Ne.symm (of_decide_eq_false (fresh l hl))

theorem get_ends (id : String) : b.Ends m (get id) (Settles m now b (.getLesson id)) := by
  refine ends_last rfl (fun lesson store _ _ h => ?_) fun e _ _ _ => .failed _ e
  have hs : store = b.store := by rw [← Store.apply_read (c := .findLesson id) rfl b.store, h]
  cases hs
  exact .getLesson (Store.lookUp_eq_ok.mp (congrArg Prod.fst h))

theorem setContent_ends (id content : String) :
    b.Ends m (setContent now id content) (Settles m now b (.setLessonContent id content)) := by
  refine ends_last rfl (fun row store _ _ h => ?_) fun e _ _ _ => .failed _ e
  obtain ⟨⟨y, rows⟩, hrows, he⟩ := Store.change_map_eq_ok h
  cases he
  exact .setLessonContent hrows

/-- Places are given out from the front of the list, and all of them unless a write fails. -/
theorem place_ends (b : Backend) (known : List String) (n : Nat) (ids : List String) :
    b.Ends m (place now known n ids) fun r b' =>
      ∃ k, (r = .ok () → k = ids.length) ∧
        b'.store = { b.store with lessons := assignAll now known n (ids.take k) b.store.lessons } := by
  induction ids generalizing b n with
  | nil => exact ends_done ⟨0, fun _ => rfl, rfl⟩
  | cons id ids ih =>
    simp only [place]
    by_cases hid : id ∈ known
    · by_cases hn : n < 0x80000000
      · rw [if_pos hid, if_pos hn]
        refine ends_ask rfl (fun _ store _ _ h hw => ?_) fun e _ _ _ => ⟨0, (by cases ·), rfl⟩
        obtain ⟨t, ht, he⟩ := Store.change_map_eq_ok h
        obtain ⟨⟨row, rows⟩, hrows, rfl⟩ := Option.map_eq_some_iff.mp ht
        cases he
        have hassign : assign now id n b.store.lessons = rows := by rw [assign, hrows]; rfl
        obtain ⟨k, hk, hs⟩ := ih _ (n + 1) hw
        refine ⟨k + 1, fun hr => by rw [hk hr, List.length_cons], ?_⟩
        rw [hs, List.take_succ_cons, assignAll, if_pos hid, hassign]
        rfl
      · rw [if_pos hid, if_neg hn]
        exact ends_done ⟨0, (by cases ·), rfl⟩
    · rw [if_neg hid]
      intro hw
      obtain ⟨k, hk, hs⟩ := ih b (n + 1) hw
      refine ⟨k + 1, fun hr => by rw [hk hr, List.length_cons], ?_⟩
      rw [hs, List.take_succ_cons, assignAll, if_neg hid]

theorem reorder_ends (chapterId : String) (ids : List String) :
    b.Ends m (reorder now chapterId ids) (Settles m now b (.reorderLessons chapterId ids)) := by
  refine ends_read rfl (fun lessons plan armed hl hw => ?_) fun e _ _ _ => .failed _ e
  obtain ⟨n, hn, hs⟩ := place_ends (b.asked _ b.store plan armed) _ 1 ids hw
  cases hl
  rw [Settles, hs]
  exact .reorderLessons n _ hn

theorem delete_ends (id : String) : b.Ends m (delete id) (Settles m now b (.deleteLesson id)) := by
  refine ends_read rfl (fun known _ _ _ => ?_) fun e _ _ _ => .failed _ e
  refine ends_require (fun _ => ?_) fun _ => .failed _ _
  refine ends_read rfl (fun attachments _ _ hn => ?_) fun e _ _ _ => .failed _ e
  refine ends_require (fun h => ?_) fun _ => .failed _ _
  refine ends_last rfl (fun _ store _ _ hr => ?_) fun e _ _ _ => .failed _ e
  obtain ⟨rows, hrows, rfl⟩ := Store.change_remove_eq_ok hr
  cases hn
  refine .deleteLesson (fun a ha he => ?_) hrows
  have hcount := List.countP_eq_zero.mp (of_decide_eq_true h) a ha
  exact hcount (decide_eq_true he)

end Lessons

namespace Attachments

/-- The blob of a refused row is removed again, or stays behind because it cannot be removed. -/
theorem undo_ends (b b' : Backend) {lessonId rawName name : String} {bytes : Bytes} (e : Failure)
    (hb : b'.store = { b.store with blobs := b.store.blobs ++ [blob (b.keys b.keysDrawn) name bytes now] }) :
    b'.Ends m (attempt (ask (.removeBlob (storageKey (b.keys b.keysDrawn) name))) >>= fun _ => fail e)
      fun r b'' => Settles m now b (.upload lessonId rawName bytes) r b'' ∧ b''.keysDrawn = b'.keysDrawn := by
  refine ends_attempt fun r store _ _ h => ends_done ⟨?_, rfl⟩
  rw [hb] at h
  rcases h.removeBlob with ⟨rest, hrest, rfl⟩ | ⟨rfl, ⟨g, hg⟩ | hnone⟩
  · exact .uploadUndone e hrest
  · exact .uploadStranded e g hg
  · exact absurd rfl (hnone (blob (b.keys b.keysDrawn) name bytes now) (by simp))

theorem upload_ends (lessonId rawName : String) (bytes : Bytes) :
    b.Ends m (upload now lessonId rawName bytes) fun r b' =>
      Settles m now b (.upload lessonId rawName bytes) r b' ∧
        (b'.store = b.store ∨ b.keysDrawn < b'.keysDrawn) := by
  refine ends_read rfl (fun lesson _ _ hl => ?_) fun e _ _ _ => ⟨.failed _ e, Or.inl rfl⟩
  refine ends_ofExcept (fun name hn => ?_) fun e _ => ⟨.failed _ e, Or.inl rfl⟩
  refine ends_freshKey ?_
  refine ends_ask rfl (fun _ store plan armed hp => ?_) fun e _ _ _ => ⟨.failed _ e, Or.inl rfl⟩
  cases hp
  refine ends_freshId ?_
  refine ends_attempt fun r store plan armed h => ?_
  rcases h.plain rfl with ⟨x, rfl, hx⟩ | ⟨e, rfl, rfl, -⟩
  · obtain ⟨rfl, fresh, rfl⟩ := Store.change_add_eq_ok hx
    have parent : (b.store.lesson? lessonId).isSome = true := by rw [Store.lookUp_eq_ok.mp hl]; rfl
    refine ends_done ⟨.upload parent hn fun a ha => ?_, Or.inr (Nat.lt_succ_self b.keysDrawn)⟩
    have hclash := fresh a ha
    simp only [Bool.or_eq_false_iff, decide_eq_false_iff_not] at hclash
    exact ⟨Ne.symm hclash.1, Ne.symm hclash.2⟩
  · refine ends_weaken (undo_ends b (asked ..) e ?_) fun _ _ h => ⟨h.1, Or.inr (h.2 ▸ Nat.lt_succ_self b.keysDrawn)⟩
    rfl

theorem download_ends (user id : String) :
    b.Ends m (download user id) (Settles m now b (.download user id)) := by
  refine ends_read rfl (fun row _ _ hr => ?_) fun e _ _ _ => .failed _ e
  refine ends_read rfl (fun admitted _ _ ha => ?_) fun e _ _ _ => .failed _ e
  refine ends_require (fun h => ?_) fun _ => .failed _ _
  refine ends_read rfl (fun bytes _ _ hg => ?_) fun e _ _ _ => .failed _ e
  obtain ⟨blob, hb, rfl⟩ := Option.map_eq_some_iff.mp (Store.lookUp_eq_ok.mp hg)
  cases ha
  exact ends_done (.download (Store.lookUp_eq_ok.mp hr) h hb)

theorem list_ends (lessonId : String) :
    b.Ends m (list lessonId) (Settles m now b (.listAttachments lessonId)) := by
  refine ends_read rfl (fun known _ _ hk => ?_) fun e _ _ _ => .failed _ e
  refine ends_require (fun hp => ?_) fun _ => .failed _ _
  refine ends_read rfl (fun rows _ _ hr => ?_) fun e _ _ _ => .failed _ e
  cases hk
  cases hr
  exact ends_done (.listAttachments hp)

theorem delete_ends (id : String) : b.Ends m (delete id) (Settles m now b (.deleteAttachment id)) := by
  refine ends_read rfl (fun row _ _ hr => ?_) fun e _ _ _ => .failed _ e
  refine ends_ask rfl (fun _ store _ _ h => ?_) fun e _ _ _ => .failed _ e
  obtain ⟨rows, hrows, rfl⟩ := Store.change_remove_eq_ok h
  have found := Store.lookUp_eq_ok.mp hr
  refine ends_attempt fun r store _ _ h => ends_done ?_
  rcases h.removeBlob with ⟨rest, hrest, rfl⟩ | ⟨rfl, hkept⟩
  · exact .deleteAttachment found hrows (Or.inl hrest)
  · exact .deleteAttachment found hrows (Or.inr ⟨rfl, hkept⟩)

end Attachments

namespace Grants

/-- What an upsert comes to: it fails, the database refuses, there is a row of the pair, or the row is added. -/
inductive Upserted (m : Mishaps) (s : Store) (row : Grant) : Except Failure (Except DatabaseError Bool) → Store → Prop
  | failed (f : Failure) : Upserted m s row (.error f) s
  | refused (e : DatabaseError) (h : e.isDuplicateKey = true → m.falseDuplicate) : Upserted m s row (.ok (.error e)) s
  | found (present : s.hasGrant row.userId row.lessonId = true) : Upserted m s row (.ok (.ok false)) s
  | added (fresh : s.hasGrant row.userId row.lessonId = false) :
      Upserted m s row (.ok (.ok true)) { s with grants := s.grants ++ [row] }

theorem upsert_ends (row : Grant) : b.Ends m (upsert row) fun r b' => Upserted m b.store row r b'.store := by
  refine ends_call fun r store _ _ h => ?_
  cases h with
  | failed _ f _ => exact ends_done (.failed f)
  | refused _ _ e _ hd => exact ends_done (.refused e hd)
  | done =>
    cases hg : b.store.hasGrant row.userId row.lessonId with
    | true =>
      simp only [Store.apply, hg]
      exact ends_done (.found hg)
    | false =>
      simp only [Store.apply, hg]
      refine ends_ask rfl (fun x store _ _ hx => ?_) fun e _ _ _ => .failed e
      obtain ⟨rfl, rfl⟩ := Store.addGrant_eq_ok hx hg
      exact ends_done (.added hg)

theorem ensure_ends {rawUser lessonId : String} (b b' : Backend) (hb : b'.store = b.store)
    (known : Text.trimmed rawUser ≠ "") (parent : (b.store.lesson? lessonId).isSome = true) :
    b'.Ends m (ensure now (Text.trimmed rawUser) lessonId) (Settles m now b (.grant rawUser lessonId)) := by
  refine ends_bind (upsert_ends ⟨Text.trimmed rawUser, lessonId, now⟩) (fun result t ht => ends_done ?_)
    fun e t ht => ?_
  · rw [hb] at ht
    rw [Settles]
    generalize t.store = after at ht
    cases ht with
    | refused e hd =>
      rw [settle]
      split
      · exact .grantedBefore known parent (Or.inr (hd ‹_›))
      · exact .failed _ _
    | found present => exact .grantedBefore known parent (Or.inl present)
    | added fresh => exact .granted known parent fresh
  · rw [hb] at ht
    rw [Settles]
    generalize t.store = after at ht
    cases ht with
    | failed => exact .failed _ e

theorem grant_ends (rawUser lessonId : String) :
    b.Ends m (grant now rawUser lessonId) (Settles m now b (.grant rawUser lessonId)) := by
  refine ends_require (fun known => ?_) fun _ => .failed _ _
  refine ends_read rfl (fun lesson _ _ hl => ?_) fun e _ _ _ => .failed _ e
  have parent : (b.store.lesson? lessonId).isSome = true := by rw [Store.lookUp_eq_ok.mp hl]; rfl
  exact ensure_ends b (asked ..) rfl (of_decide_eq_true known) parent

theorem list_ends (lessonId : String) : b.Ends m (list lessonId) (Settles m now b (.listGrants lessonId)) := by
  refine ends_read rfl (fun known _ _ hk => ?_) fun e _ _ _ => .failed _ e
  refine ends_require (fun hp => ?_) fun _ => .failed _ _
  refine ends_last rfl (fun rows store _ _ h => ?_) fun e _ _ _ => .failed _ e
  cases hk
  cases h
  exact .listGrants hp

end Grants

/-- Whatever befalls its calls, an operation comes to one of its outcomes. -/
theorem program_ends (op : Operation) : b.Ends m (op.program now) (Settles m now b op) := by
  cases op with
  | listCourses =>
    refine ends_last rfl (fun _ _ _ _ h => ?_) fun e _ _ _ => .failed _ e
    cases h
    exact .listCourses
  | listChapters =>
    refine ends_last rfl (fun _ _ _ _ h => ?_) fun e _ _ _ => .failed _ e
    cases h
    exact .listChapters
  | listLessons =>
    refine ends_last rfl (fun _ _ _ _ h => ?_) fun e _ _ _ => .failed _ e
    cases h
    exact .listLessons
  | getCourse id => exact Courses.get_ends id
  | createCourse r => exact Courses.create_ends r
  | updateCourse id r => exact Courses.update_ends id r
  | deleteCourse id => exact Courses.delete_ends id
  | getChapter id => exact Chapters.get_ends id
  | addChapter courseId r => exact Chapters.add_ends courseId r
  | setChapterOrder id order => exact Chapters.setOrder_ends id order
  | deleteChapter id => exact Chapters.delete_ends id
  | getLesson id => exact Lessons.get_ends id
  | addLesson chapterId r => exact Lessons.add_ends chapterId r
  | setLessonContent id content => exact Lessons.setContent_ends id content
  | reorderLessons chapterId ids => exact Lessons.reorder_ends chapterId ids
  | deleteLesson id => exact Lessons.delete_ends id
  | upload lessonId name bytes => exact ends_weaken (Attachments.upload_ends lessonId name bytes) fun _ _ h => h.1
  | download user id => exact Attachments.download_ends user id
  | listAttachments lessonId => exact Attachments.list_ends lessonId
  | deleteAttachment id => exact Attachments.delete_ends id
  | grant user lessonId => exact Grants.grant_ends user lessonId
  | listGrants lessonId => exact Grants.list_ends lessonId

end Coursework
