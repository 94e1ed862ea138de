import Coursework.Proofs.Operations
import Coursework.Proofs.Traffic

/-!
# Calls of operations

Which calls an operation may make after the exchanges it has had, and what one call can do to the store.  Whatever is
proved of operations that meet each other is proved from these two lists, and not from the programs.
-/
namespace Coursework

open Program

-- what may be called does not hang on how names are trimmed
attribute [local irreducible] Text.trimmed

/-- Whether a call adds a course, a chapter or a lesson. -/
def Call.creates : Call → Bool
  | addCourse _ | addChapter _ | addLesson _ => true
  | _ => false

namespace Operation

/-- Whether an operation adds a course, a chapter or a lesson. -/
def creates : Operation → Bool
  | createCourse _ | addChapter _ _ | addLesson _ _ => true
  | _ => false

/-- The calls that an operation may make at a time, after the exchanges it has had. -/
inductive MayCall (now : Timestamp) : Operation → List Exchange → Call → Prop
  | read {op : Operation} {past : List Exchange} {c : Call} (h : c.isRead = true) : MayCall now op past c
  | addCourse {r : NewCourse} {past : List Exchange} (id : Uuid) :
      MayCall now (.createCourse r) past (.addCourse (r.row id now))
  | replaceCourse {id : String} {r : CourseUpdate} {past : List Exchange} {course : Course}
      (found : ⟨.findCourse id, .ok course⟩ ∈ past) :
      MayCall now (.updateCourse id r) past (.replaceCourse (r.revise now course))
  | removeCourse {id : String} {past : List Exchange} (childless : ⟨.countChapters id, .ok (0 : Nat)⟩ ∈ past) :
      MayCall now (.deleteCourse id) past (.removeCourse id)
  | addChapter {courseId : String} {r : NewChapter} {past : List Exchange} (id : Uuid)
      (parent : ⟨.hasCourse courseId, .ok true⟩ ∈ past) :
      MayCall now (.addChapter courseId r) past (.addChapter (r.row id courseId now))
  | orderChapter {id : String} {order : Int32} {past : List Exchange} :
      MayCall now (.setChapterOrder id order) past (.orderChapter id order now)
  | removeChapter {id : String} {past : List Exchange} (childless : ⟨.countLessons id, .ok (0 : Nat)⟩ ∈ past) :
      MayCall now (.deleteChapter id) past (.removeChapter id)
  | addLesson {chapterId : String} {r : NewLesson} {past : List Exchange} (id : Uuid)
      (parent : ⟨.hasChapter chapterId, .ok true⟩ ∈ past) :
      MayCall now (.addLesson chapterId r) past (.addLesson (r.row id chapterId now))
  | fillLesson {id content : String} {past : List Exchange} :
      MayCall now (.setLessonContent id content) past (.fillLesson id content now)
  | orderLesson {chapterId lessonId : String} {ids : List String} {past : List Exchange} {lessons : List Lesson}
      (place : Nat) (listed : ⟨.lessonsOf chapterId, .ok lessons⟩ ∈ past)
      (known : lessonId ∈ lessons.map Lesson.id) :
      MayCall now (.reorderLessons chapterId ids) past (.orderLesson lessonId (Int32.ofNat place) now)
  | removeLesson {id : String} {past : List Exchange} (childless : ⟨.countAttachments id, .ok (0 : Nat)⟩ ∈ past) :
      MayCall now (.deleteLesson id) past (.removeLesson id)
  | putBlob {lessonId rawName : String} {bytes : Bytes} {past : List Exchange} (key : String) :
      MayCall now (.upload lessonId rawName bytes) past (.putBlob key bytes now)
  | addAttachment {lessonId rawName : String} {bytes : Bytes} {past : List Exchange} (id : Uuid) (name key : String)
      (lesson : Lesson) (parent : ⟨.findLesson lessonId, .ok lesson⟩ ∈ past) :
      MayCall now (.upload lessonId rawName bytes) past (.addAttachment ⟨id.text, name, key, lessonId, now⟩)
  | takeBackBlob {lessonId rawName : String} {bytes : Bytes} {past : List Exchange} (key : String) :
      MayCall now (.upload lessonId rawName bytes) past (.removeBlob key)
  | removeAttachment {id : String} {past : List Exchange} :
      MayCall now (.deleteAttachment id) past (.removeAttachment id)
  | removeBlob {id : String} {past : List Exchange} (key : String) :
      MayCall now (.deleteAttachment id) past (.removeBlob key)
  | seekGrant {rawUser lessonId : String} {past : List Exchange} :
      MayCall now (.grant rawUser lessonId) past (.seekGrant (Text.trimmed rawUser) lessonId)
  | addGrant {rawUser lessonId : String} {past : List Exchange} :
      MayCall now (.grant rawUser lessonId) past (.addGrant ⟨Text.trimmed rawUser, lessonId, now⟩)

variable {now : Timestamp} {past : List Exchange}

/-- Ending in any way. -/
def Anyhow {α : Type} (_ : List Exchange) (_ : Except Failure α) : Prop := True

variable {α β : Type} {op : Operation}

theorem keeps_read {c : Call} {f : c.Answer → Program α} (hc : c.isRead = true)
    (ok : ∀ x, (f x).Keeps (MayCall now op) Anyhow (past ++ [⟨c, .ok x⟩])) :
    (ask c >>= f).Keeps (MayCall now op) Anyhow past := keeps_ask (.read hc) ok fun _ => trivial

theorem details_keeps (past : List Exchange) (cs : List Chapter) :
    (Courses.details cs).Keeps (MayCall now op) Anyhow past := by
  induction cs generalizing past with
  | nil => trivial
  | cons c cs ih =>
    refine keeps_read rfl fun lessons => ?_
    exact keeps_bind (ih _) (fun _ _ _ => trivial) fun _ _ _ => trivial

theorem place_keeps {chapterId : String} {all ids : List String} {lessons : List Lesson} (n : Nat)
    (listed : ⟨.lessonsOf chapterId, .ok lessons⟩ ∈ past) :
    (Lessons.place now (lessons.map Lesson.id) n ids).Keeps (MayCall now (.reorderLessons chapterId all)) Anyhow
      past := by
  induction ids generalizing n past with
  | nil => trivial
  | cons id ids ih =>
    simp only [Lessons.place]
    by_cases hid : id ∈ lessons.map Lesson.id
    · by_cases hn : n < 0x80000000
      · rw [if_pos hid, if_pos hn]
        exact keeps_ask (.orderLesson n listed hid) (fun _ => ih (n + 1) (List.mem_append_left _ listed))
          fun _ => trivial
      · rw [if_pos hid, if_neg hn]
        trivial
    · rw [if_neg hid]
      exact ih (n + 1) listed

theorem updateCourse_keeps (id : String) (r : CourseUpdate) :
    (Courses.update now id r).Keeps (MayCall now (.updateCourse id r)) Anyhow [] := by
  refine keeps_ofExcept (fun _ _ => ?_) fun _ _ => trivial
  have rest : (ask (.findCourse id) >>= fun course => ask (.replaceCourse (r.revise now course))).Keeps
      (MayCall now (.updateCourse id r)) Anyhow [] :=
    keeps_read rfl fun course => keeps_last (.replaceCourse (by simp)) fun _ => trivial
  cases hi : r.id with
  | none => exact rest
  | some i => exact keeps_require (fun _ => rest) fun _ => trivial

theorem upload_keeps (lessonId rawName : String) (bytes : Bytes) :
    (Attachments.upload now lessonId rawName bytes).Keeps (MayCall now (.upload lessonId rawName bytes)) Anyhow [] := by
  refine keeps_read rfl fun lesson => ?_
  refine keeps_ofExcept (fun name _ => ?_) fun _ _ => trivial
  refine keeps_freshKey fun key => ?_
  refine keeps_ask (.putBlob _) (fun _ => ?_) fun _ => trivial
  refine keeps_freshId fun id => ?_
  refine keeps_attempt (.addAttachment id name _ lesson (by simp)) fun r => ?_
  cases r with
  | ok row => trivial
  | error e => exact keeps_attempt (.takeBackBlob _) fun _ => trivial

theorem deleteAttachment_keeps (id : String) :
    (Attachments.delete id).Keeps (MayCall now (.deleteAttachment id)) Anyhow [] := by
  refine keeps_read rfl fun _ => ?_
  refine keeps_ask .removeAttachment (fun _ => ?_) fun _ => trivial
  exact keeps_attempt (.removeBlob _) fun _ => trivial

theorem upsert_keeps (rawUser lessonId : String) (past : List Exchange) :
    (Grants.upsert ⟨Text.trimmed rawUser, lessonId, now⟩).Keeps (MayCall now (.grant rawUser lessonId)) Anyhow
      past := by
  refine keeps_ask .seekGrant (fun found => ?_) fun _ => trivial
  match found with
  | .ok true | .error _ => trivial
  | .ok false => exact keeps_ask .addGrant (fun _ => trivial) fun _ => trivial

theorem grant_keeps (rawUser lessonId : String) :
    (Grants.grant now rawUser lessonId).Keeps (MayCall now (.grant rawUser lessonId)) Anyhow [] := by
  refine keeps_require (fun _ => ?_) fun _ => trivial
  refine keeps_read rfl fun _ => ?_
  exact keeps_bind (upsert_keeps ..) (fun _ _ _ => trivial) fun _ _ _ => trivial

/-- Every operation makes only the calls that it may make. -/
theorem program_keeps (now : Timestamp) (op : Operation) : (op.program now).Keeps (MayCall now op) Anyhow [] := by
  cases op with
  | listCourses | listChapters | listLessons | getLesson _ => exact keeps_last (.read rfl) fun _ => trivial
  | getCourse id =>
    refine keeps_read rfl fun _ => keeps_read rfl fun cs => ?_
    exact keeps_bind (details_keeps _ cs) (fun _ _ _ => trivial) fun _ _ _ => trivial
  | createCourse r =>
    refine keeps_ofExcept (fun _ _ => ?_) fun _ _ => trivial
    exact keeps_freshId fun id => keeps_last (.addCourse id) fun _ => trivial
  | updateCourse id r => exact updateCourse_keeps id r
  | deleteCourse id =>
    refine keeps_read rfl fun _ => keeps_require (fun _ => ?_) fun _ => trivial
    refine keeps_read rfl fun n => keeps_require (fun hn => ?_) fun _ => trivial
    obtain rfl : n = 0 := of_decide_eq_true hn
    exact keeps_last (.removeCourse (by simp)) fun _ => trivial
  | getChapter _ => exact keeps_read rfl fun _ => keeps_read rfl fun _ => trivial
  | addChapter courseId r =>
    refine keeps_ofExcept (fun _ _ => ?_) fun _ _ => trivial
    refine keeps_read rfl fun known => keeps_require (fun hk => ?_) fun _ => trivial
    obtain rfl : known = true := hk
    exact keeps_freshId fun id => keeps_last (.addChapter id (by simp)) fun _ => trivial
  | setChapterOrder _ _ => exact keeps_last .orderChapter fun _ => trivial
  | deleteChapter id =>
    refine keeps_read rfl fun _ => keeps_require (fun _ => ?_) fun _ => trivial
    refine keeps_read rfl fun n => keeps_require (fun hn => ?_) fun _ => trivial
    obtain rfl : n = 0 := of_decide_eq_true hn
    exact keeps_last (.removeChapter (by simp)) fun _ => trivial
  | addLesson chapterId r =>
    refine keeps_ofExcept (fun _ _ => ?_) fun _ _ => trivial
    refine keeps_read rfl fun known => keeps_require (fun hk => ?_) fun _ => trivial
    obtain rfl : known = true := hk
    exact keeps_freshId fun id => keeps_last (.addLesson id (by simp)) fun _ => trivial
  | setLessonContent _ _ => exact keeps_last .fillLesson fun _ => trivial
  | reorderLessons _ _ => exact keeps_read rfl fun _ => place_keeps 1 (by simp)
  | deleteLesson id =>
    refine keeps_read rfl fun _ => keeps_require (fun _ => ?_) fun _ => trivial
    refine keeps_read rfl fun n => keeps_require (fun hn => ?_) fun _ => trivial
    obtain rfl : n = 0 := of_decide_eq_true hn
    exact keeps_last (.removeLesson (by simp)) fun _ => trivial
  | upload lessonId rawName bytes => exact upload_keeps lessonId rawName bytes
  | download _ _ =>
    refine keeps_read rfl fun _ => keeps_read rfl fun _ => ?_
    exact keeps_require (fun _ => keeps_read rfl fun _ => trivial) fun _ => trivial
  | listAttachments _ =>
    refine keeps_read rfl fun _ => ?_
    exact keeps_require (fun _ => keeps_read rfl fun _ => trivial) fun _ => trivial
  | deleteAttachment id => exact deleteAttachment_keeps id
  | grant rawUser lessonId => exact grant_keeps rawUser lessonId
  | listGrants _ =>
    refine keeps_read rfl fun _ => ?_
    exact keeps_require (fun _ => keeps_last (.read rfl) fun _ => trivial) fun _ => trivial

/-- Only operations that add rows make the calls for it. -/
theorem MayCall.creates {c : Call} (h : MayCall now op past c) (hc : c.creates = true) : op.creates = true := by
  cases h with
  | read hread => cases c <;> simp_all [Call.isRead, Call.creates]
  | addCourse | addChapter | addLesson => rfl
  | _ => cases hc

end Operation

/-- What holds of a store at first, and is kept by every call that an operation may make, holds however operations meet
there. -/
theorem Traffic.run_calls {m : Mishaps} {P : List (Nat × Exchange) → Store → Prop} {b : Backend}
    (requests : List (Timestamp × Operation)) (hb : b.Allows m) (first : P [] b.store)
    (step : ∀ log s i now op c r s', requests[i]? = some (now, op) → Operation.MayCall now op (own i log) c →
      s.Answers m c r s' → P log s → P (log ++ [(i, ⟨c, r⟩)]) s') (schedule : List Nat) :
    P ((start b requests).run schedule).log ((start b requests).run schedule).store := by
  have hfollows : (start b requests).Follows Operation.MayCall (fun _ _ => Operation.Anyhow) requests :=
    start_follows b fun now op _ => Operation.program_keeps now op
  exact run_induction hfollows hb first step schedule

namespace Store

/-- What a call can do to the store, with what it answers then. -/
inductive Effect (m : Mishaps) (s : Store) : (c : Call) → Except Failure c.Answer → Store → Prop
  | failed (c : Call) (e : Failure) (h : m.failure e ∨ (s.apply c).1 = .error e) : Effect m s c (.error e) s
  | read {c : Call} (h : c.isRead = true) : Effect m s c (s.apply c).1 s
  | addedCourse {row : Course} (fresh : ∀ c ∈ s.courses, row.id ≠ c.id) :
      Effect m s (.addCourse row) (.ok row) { s with courses := s.courses ++ [row] }
  | replacedCourse {row found : Course} {rows : List Course}
      (replaced : Table.modify? (fun c => c.id = row.id) (fun _ => row) s.courses = some (found, rows)) :
      Effect m s (.replaceCourse row) (.ok row) { s with courses := rows }
  | removedCourse {id : String} {rows : List Course}
      (removed : Table.remove? (fun c => c.id = id) s.courses = some rows) :
      Effect m s (.removeCourse id) (.ok ()) { s with courses := rows }
  | addedChapter {row : Chapter} (fresh : ∀ c ∈ s.chapters, row.id ≠ c.id) :
      Effect m s (.addChapter row) (.ok row) { s with chapters := s.chapters ++ [row] }
  | orderedChapter {id : String} {order : Int32} {now : Timestamp} {row : Chapter} {rows : List Chapter}
      (changed : Table.modify? (fun c => c.id = id) (fun c => { c with order, updatedAt := now }) s.chapters =
        some (row, rows)) :
      Effect m s (.orderChapter id order now) (.ok row) { s with chapters := rows }
  | removedChapter {id : String} {rows : List Chapter}
      (removed : Table.remove? (fun c => c.id = id) s.chapters = some rows) :
      Effect m s (.removeChapter id) (.ok ()) { s with chapters := rows }
  | addedLesson {row : Lesson} (fresh : ∀ l ∈ s.lessons, row.id ≠ l.id) :
      Effect m s (.addLesson row) (.ok row) { s with lessons := s.lessons ++ [row] }
  | filledLesson {id content : String} {now : Timestamp} {row : Lesson} {rows : List Lesson}
      (changed : Table.modify? (fun l => l.id = id) (fun l => { l with content, updatedAt := now }) s.lessons =
        some (row, rows)) :
      Effect m s (.fillLesson id content now) (.ok row) { s with lessons := rows }
  | orderedLesson {id : String} {order : Int32} {now : Timestamp} {row : Lesson} {rows : List Lesson}
      (changed : Table.modify? (fun l => l.id = id) (fun l => { l with order, updatedAt := now }) s.lessons =
        some (row, rows)) :
      Effect m s (.orderLesson id order now) (.ok ()) { s with lessons := rows }
  | removedLesson {id : String} {rows : List Lesson}
      (removed : Table.remove? (fun l => l.id = id) s.lessons = some rows) :
      Effect m s (.removeLesson id) (.ok ()) { s with lessons := rows }
  | addedAttachment {row : Attachment}
      (fresh : ∀ a ∈ s.attachments, row.id ≠ a.id ∧ row.storageKey ≠ a.storageKey) :
      Effect m s (.addAttachment row) (.ok row) { s with attachments := s.attachments ++ [row] }
  | removedAttachment {id : String} {rows : List Attachment}
      (removed : Table.remove? (fun a => a.id = id) s.attachments = some rows) :
      Effect m s (.removeAttachment id) (.ok ()) { s with attachments := rows }
  | sought {user lesson : String} : Effect m s (.seekGrant user lesson) (.ok (.ok (s.hasGrant user lesson))) s
  | unsought {user lesson : String} (e : DatabaseError) (h : e.isDuplicateKey = true → m.falseDuplicate) :
      Effect m s (.seekGrant user lesson) (.ok (.error e)) s
  | granted {row : Grant} (fresh : s.hasGrant row.userId row.lessonId = false) :
      Effect m s (.addGrant row) (.ok (.ok ())) { s with grants := s.grants ++ [row] }
  | grantedBefore {row : Grant} (present : s.hasGrant row.userId row.lessonId = true) :
      Effect m s (.addGrant row) (.ok (.error duplicate)) s
  | put {key : String} {bytes : Bytes} {now : Timestamp} :
      Effect m s (.putBlob key bytes now) (.ok ()) { s with blobs := s.blobs ++ [⟨key, bytes, now.wholeMillis⟩] }
  | cleared {key : String} (r : Except Failure Bool) (blobs : List Blob) :
      Effect m s (.removeBlob key) r { s with blobs }

variable {m : Mishaps} {s t : Store}

theorem addGrant_effect {row : Grant} {x : Except DatabaseError Unit} (h : s.apply (.addGrant row) = (.ok x, t)) :
    s.Effect m (.addGrant row) (.ok x) t := by
  cases hgrant : s.hasGrant row.userId row.lessonId with
  | true =>
    have hadd : s.addGrant? row = none := by
      have hclash : s.grants.any (isGrantFor row.userId row.lessonId) = true := hgrant
      simp only [addGrant?, Table.add?, hclash, if_true, Option.map_none]
    simp only [apply, hadd] at h
    cases h
    exact .grantedBefore hgrant
  | false =>
    obtain ⟨rfl, rfl⟩ := addGrant_eq_ok h hgrant
    exact .granted hgrant

/-- A write that succeeds has done what it is for. -/
theorem write_effect {c : Call} {x : c.Answer} (hc : c.isPlain = true) (hw : c.isRead = false)
    (h : s.apply c = (.ok x, t)) : s.Effect m c (.ok x) t := by
  cases c with
  | addCourse row =>
    obtain ⟨hx, fresh, rfl⟩ := change_add_eq_ok h
    rw [hx]
    exact .addedCourse fun c hc => of_decide_eq_false (fresh c hc)
  | replaceCourse row =>
    obtain ⟨t', ht, he⟩ := change_map_eq_ok h
    obtain ⟨⟨found, rows⟩, hrows, rfl⟩ := Option.map_eq_some_iff.mp ht
    cases he
    exact .replacedCourse hrows
  | removeCourse id =>
    obtain ⟨rows, hrows, rfl⟩ := change_remove_eq_ok h
    exact .removedCourse hrows
  | addChapter row =>
    obtain ⟨hx, fresh, rfl⟩ := change_add_eq_ok h
    rw [hx]
    exact .addedChapter fun c hc => of_decide_eq_false (fresh c hc)
  | orderChapter id order now =>
    obtain ⟨⟨row, rows⟩, hrows, he⟩ := change_map_eq_ok h
    cases he
    exact .orderedChapter hrows
  | removeChapter id =>
    obtain ⟨rows, hrows, rfl⟩ := change_remove_eq_ok h
    exact .removedChapter hrows
  | addLesson row =>
    obtain ⟨hx, fresh, rfl⟩ := change_add_eq_ok h
    rw [hx]
    exact .addedLesson fun l hl => of_decide_eq_false (fresh l hl)
  | fillLesson id content now =>
    obtain ⟨⟨row, rows⟩, hrows, he⟩ := change_map_eq_ok h
    cases he
    exact .filledLesson hrows
  | orderLesson id order now =>
    obtain ⟨t', ht, he⟩ := change_map_eq_ok h
    obtain ⟨⟨row, rows⟩, hrows, rfl⟩ := Option.map_eq_some_iff.mp ht
    cases he
    exact .orderedLesson hrows
  | removeLesson id =>
    obtain ⟨rows, hrows, rfl⟩ := change_remove_eq_ok h
    exact .removedLesson hrows
  | addAttachment row =>
    obtain ⟨hx, fresh, rfl⟩ := change_add_eq_ok h
    rw [hx]
    refine .addedAttachment fun a ha => ?_
    simpa using fresh a ha
  | removeAttachment id =>
    obtain ⟨rows, hrows, rfl⟩ := change_remove_eq_ok h
    exact .removedAttachment hrows
  | addGrant row => exact addGrant_effect h
  | putBlob key bytes now =>
    cases h
    exact .put
  | seekGrant _ _ | removeBlob _ => cases hc
  | _ => cases hw

/-- Every answer comes with one of the effects. -/
theorem Answers.effect {c : Call} {r : Except Failure c.Answer} (h : s.Answers m c r t) : s.Effect m c r t := by
  by_cases hplain : c.isPlain = true
  · rcases h.plain hplain with ⟨x, rfl, hx⟩ | ⟨e, rfl, rfl, he⟩
    · by_cases hread : c.isRead = true
      · have hr := Effect.read (m := m) (s := s) hread
        have hsame := apply_read hread s
        rw [hx] at hr hsame
        exact hsame ▸ hr
      · exact write_effect hplain (by simpa using hread) hx
    · exact .failed c e he
  · cases c with
    | seekGrant user lesson =>
      cases h with
      | done => exact .sought
      | failed _ e he => exact .failed _ e (Or.inl he)
      | refused _ _ e _ hd => exact .unsought e hd
    | removeBlob key =>
      rcases h.removeBlob with ⟨rest, -, rfl⟩ | ⟨rfl, -⟩
      · exact .cleared r rest
      · exact .cleared r _
    | _ => exact absurd rfl hplain

/-- Where nothing goes wrong, a call is carried out. -/
theorem Answers.exact {c : Call} {r : Except Failure c.Answer} (h : s.Answers .nothing c r t) :
    r = (s.apply c).1 ∧ t = (s.apply c).2 := by
  cases h with
  | done => exact ⟨rfl, rfl⟩
  | failed _ _ h => cases h
  | cleared _ _ h => cases h
  | refused _ _ _ h => cases h

/-- What a call finds that only looks is what the store has. -/
theorem Effect.read_ok {c : Call} {x : c.Answer} (h : s.Effect m c (.ok x) t) (hc : c.isRead = true) :
    (s.apply c).1 = .ok x := by
  generalize hr : (Except.ok x : Except Failure c.Answer) = r at h
  cases h with
  | failed => cases hr
  | read => rfl
  | _ => cases hc

end Store

end Coursework
