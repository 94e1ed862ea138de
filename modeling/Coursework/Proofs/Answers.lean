import Coursework.Store.Backend

/-!
# How calls are answered

A call is carried out, or it fails and leaves the store as it was.  Two calls can end otherwise: the removal of a blob
may fail after the blob is gone, and a grant may be refused, even as a duplicate.  Every answer of a backend is one of
these, and only goes wrong in ways that its faults allow.
-/
namespace Coursework

/-- What may go wrong with calls: the failures they can meet, and whether a grant can be reported as a duplicate of
one that is not there. -/
structure Mishaps where
  failure : Failure → Prop
  falseDuplicate : Prop

namespace Mishaps

def nothing : Mishaps := ⟨fun _ => False, False⟩

def anything : Mishaps := ⟨fun _ => True, True⟩

/-- Failing commands are told as failures of the database or of the storage. -/
def ofDatabase : Mishaps := ⟨fun f => f.kind = .database ∨ f.kind = .storage, True⟩

/-- Anything but a false report of a duplicate. -/
def truthful : Mishaps := ⟨fun _ => True, False⟩

/-- The ways in which a fault can show. -/
def Covers (m : Mishaps) : FaultEffect → Prop
  | .refusal f => m.failure f
  | .command f => m.failure f.error.failure ∧ (∀ key, m.failure (Backend.blobFailed key)) ∧
      (f.error.isDuplicateKey = true → m.falseDuplicate)

theorem anything_covers (e : FaultEffect) : anything.Covers e := by
  cases e <;> simp [Covers, anything]

theorem ofDatabase_ne_accessDenied {f : Failure} (h : ofDatabase.failure f) : f.kind ≠ .accessDenied := by
  intro hkind
  rcases h with h | h
  · rw [hkind] at h
    cases h
  · rw [hkind] at h
    cases h

end Mishaps

namespace Call

def isRead : Call → Bool
  | listCourses | findCourse _ | hasCourse _ | listChapters | findChapter _ | chaptersOf _ | countChapters _
  | hasChapter _ | listLessons | findLesson _ | lessonsOf _ | countLessons _ | hasLesson _ | findAttachment _
  | attachmentsOf _ | countAttachments _ | hasGrant _ _ | grantsOf _ | getBlob _ => true
  | _ => false

/-- Calls that are either carried out or fail without effect. -/
def isPlain : Call → Bool
  | seekGrant _ _ | removeBlob _ => false
  | _ => true

theorem isPlain_of_isRead {c : Call} (h : c.isRead = true) : c.isPlain = true := by
  cases c <;> simp_all [isRead, isPlain]

end Call

namespace Store

variable {α : Type} {m : Mishaps} {s t : Store}

theorem lookUp_eq_ok {found : Option α} {missing : Failure} {x : α} :
    (s.lookUp found missing).1 = .ok x ↔ found = some x := by
  cases found <;> simp [lookUp]

@[simp] theorem lookUp_snd (found : Option α) (missing : Failure) : (s.lookUp found missing).2 = s := by
  cases found <;> rfl

theorem change_eq_ok {changed : Option (α × Store)} {refused : Failure} {x : α} :
    s.change changed refused = (.ok x, t) ↔ changed = some (x, t) := by
  cases changed <;> simp [change, Prod.ext_iff]

theorem change_map_eq_ok {β : Type} {rows : Option β} {f : β → α × Store} {refused : Failure} {x : α}
    (h : s.change (rows.map f) refused = (.ok x, t)) : ∃ y, rows = some y ∧ f y = (x, t) := by
  simpa [change_eq_ok] using h

theorem change_error {changed : Option (α × Store)} {refused e : Failure}
    (h : (s.change changed refused).1 = .error e) : (s.change changed refused).2 = s := by
  cases changed with
  | none => rfl
  | some x => cases h

theorem apply_read {c : Call} (hc : c.isRead = true) (s : Store) : (s.apply c).2 = s := by
  cases c <;> simp_all [Call.isRead, apply]

/-- A call that fails by itself has no effect. -/
theorem apply_error {c : Call} {e : Failure} (h : (s.apply c).1 = .error e) : (s.apply c).2 = s := by
  cases c with
  | addCourse _ | replaceCourse _ | removeCourse _ | addChapter _ | orderChapter _ _ _ | removeChapter _
  | addLesson _ | fillLesson _ _ _ | orderLesson _ _ _ | removeLesson _ | addAttachment _ | removeAttachment _ =>
    exact change_error h
  | addGrant row | removeBlob key => simp only [apply] at h ⊢; split at h <;> cases h
  | putBlob _ _ _ => cases h
  | seekGrant _ _ => rfl
  | _ => exact apply_read rfl s

/-- What a call can come to. -/
inductive Answers (m : Mishaps) (s : Store) : (c : Call) → Except Failure c.Answer → Store → Prop
  | done (c : Call) : Answers m s c (s.apply c).1 (s.apply c).2
  | failed (c : Call) (f : Failure) (h : m.failure f) : Answers m s c (.error f) s
  | cleared (key : String) (f : Failure) (h : m.failure f) :
      Answers m s (.removeBlob key) (.error f) (s.apply (.removeBlob key)).2
  | refused (user lesson : String) (e : DatabaseError) (h : m.failure e.failure)
      (hd : e.isDuplicateKey = true → m.falseDuplicate) : Answers m s (.seekGrant user lesson) (.ok (.error e)) s

theorem Answers.plain {c : Call} {r : Except Failure c.Answer} (h : s.Answers m c r t) (hc : c.isPlain = true) :
    (∃ x, r = .ok x ∧ s.apply c = (.ok x, t)) ∨
      ∃ e, r = .error e ∧ t = s ∧ (m.failure e ∨ (s.apply c).1 = .error e) := by
  cases h with
  | done =>
    cases hr : (s.apply c).1 with
    | ok x => exact Or.inl ⟨x, rfl, Prod.ext hr rfl⟩
    | error e => exact Or.inr ⟨e, rfl, apply_error hr, Or.inr rfl⟩
  | failed _ e he => exact Or.inr ⟨e, rfl, rfl, Or.inl he⟩
  | cleared => cases hc
  | refused => cases hc

theorem latest_ne_none (b : Blob) (bs : List Blob) : latest (b :: bs) ≠ none := by
  simp only [latest]
  split
  · simp
  · split <;> simp

theorem blob?_eq_none {s : Store} {key : String} (h : s.blob? key = none) :
    ∀ b ∈ s.blobs, decide (b.key = key) = false := by
  simp only [blob?] at h
  cases hf : s.blobs.filter fun b => b.key = key with
  | nil => exact fun b hb => by simpa using List.filter_eq_nil_iff.mp hf b hb
  | cons b bs => exact absurd (hf ▸ h) (latest_ne_none b bs)

end Store

namespace CommandFault

theorem take?_eq_some {c : Command} {fs rest : List CommandFault} {e : DatabaseError}
    (h : take? c fs = some (e, rest)) : (∃ f ∈ fs, f.error = e) ∧ rest ⊆ fs := by
  induction fs generalizing rest with
  | nil => simp [take?] at h
  | cons f fs ih =>
    simp only [take?] at h
    split at h
    · simp only [Option.some.injEq, Prod.mk.injEq] at h
      obtain ⟨rfl, rfl⟩ := h
      exact ⟨⟨f, by simp, rfl⟩, List.subset_cons_self _ _⟩
    · obtain ⟨⟨e', rest'⟩, hr, he⟩ := Option.map_eq_some_iff.mp h
      simp only [Prod.mk.injEq] at he
      obtain ⟨rfl, rfl⟩ := he
      obtain ⟨⟨g, hg, hc⟩, hs⟩ := ih hr
      exact ⟨⟨g, by simp [hg], hc⟩, List.cons_subset_cons _ hs⟩

end CommandFault

namespace PlannedFault

/-- Faults that are due, and faults that are left, were planned. -/
theorem strike_planned (site : Site) (plan : List PlannedFault) :
    (∀ e ∈ (strike site plan).1, ∃ p ∈ plan, p.effect = e) ∧
      ∀ q ∈ (strike site plan).2, ∃ p ∈ plan, p.effect = q.effect := by
  induction plan with
  | nil => simp [strike]
  | cons p ps ih =>
    obtain ⟨hdue, hleft⟩ := ih
    have hdue' : ∀ e ∈ (strike site ps).1, ∃ q ∈ p :: ps, q.effect = e := fun e he =>
      let ⟨q, hq, h⟩ := hdue e he
      ⟨q, List.mem_cons_of_mem p hq, h⟩
    have hleft' : ∀ r ∈ (strike site ps).2, ∃ q ∈ p :: ps, q.effect = r.effect := fun r hr =>
      let ⟨q, hq, h⟩ := hleft r hr
      ⟨q, List.mem_cons_of_mem p hq, h⟩
    simp only [strike]
    split
    · split
      · exact ⟨List.forall_mem_cons.mpr ⟨⟨p, by simp, rfl⟩, hdue'⟩, hleft'⟩
      · exact ⟨hdue', List.forall_mem_cons.mpr ⟨⟨p, by simp, rfl⟩, hleft'⟩⟩
    · exact ⟨hdue', List.forall_mem_cons.mpr ⟨⟨p, by simp, rfl⟩, hleft'⟩⟩

end PlannedFault

namespace FaultEffect

theorem refusal?_eq_some {es : List FaultEffect} {f : Failure} (h : refusal? es = some f) : refusal f ∈ es := by
  induction es with
  | nil => simp [refusal?] at h
  | cons e es ih =>
    cases e with
    | refusal g => simp_all [refusal?]
    | command g => exact List.mem_cons_of_mem _ (ih h)

theorem mem_commands {es : List FaultEffect} {f : CommandFault} (h : f ∈ commands es) : command f ∈ es := by
  obtain ⟨e, he, hf⟩ := List.mem_filterMap.mp h
  cases e with
  | refusal g => simp at hf
  | command g => simp only [Option.some.injEq] at hf; exact hf ▸ he

end FaultEffect

namespace Backend

/-- Whether everything planned and armed is covered. -/
def Allows (m : Mishaps) (b : Backend) : Prop :=
  (∀ p ∈ b.plan, m.Covers p.effect) ∧ ∀ f ∈ b.armed, m.Covers (.command f)

theorem allows_anything (b : Backend) : b.Allows .anything :=
  ⟨fun p _ => Mishaps.anything_covers p.effect, fun f _ => Mishaps.anything_covers (.command f)⟩

/-- The backend after a call: another store, another log, other faults to come. -/
def answered (b : Backend) (store : Store) (blobLog : List BlobEvent) (plan : List PlannedFault)
    (armed : List CommandFault) : Backend :=
  { b with store, blobLog, plan, armed }

/-- An answer to a call and the backend after it, where only the log is known. -/
def Replies (m : Mishaps) (b : Backend) (c : Call) (log : List BlobEvent)
    (reply : Except Failure c.Answer × Backend) : Prop :=
  ∃ store plan armed, reply.2 = b.answered store log plan armed ∧ reply.2.Allows m ∧
    b.store.Answers m c reply.1 store

variable {m : Mishaps} {b : Backend}

theorem commit_replies (h : b.Allows m) (c : Call) : b.Replies m c b.blobLog (b.commit c) :=
  ⟨_, _, _, rfl, h, .done c⟩

/-- What holds after every covered failure of a command, and of whatever comes after the command, holds. -/
theorem after_induction {α : Type} {command : Command} {failed : DatabaseError → Except Failure α}
    {next : Backend → Except Failure α × Backend} {Q : Except Failure α × Backend → Prop} (h : b.Allows m)
    (hfailed : ∀ (f : CommandFault) armed, m.Covers (.command f) → Allows m { b with armed } →
      Q (failed f.error, { b with armed }))
    (hnext : ∀ armed, Allows m { b with armed } → Q (next { b with armed })) : Q (b.after command failed next) := by
  unfold after issue
  cases ht : CommandFault.take? command b.armed with
  | none => exact hnext b.armed h
  | some taken =>
    obtain ⟨e, rest⟩ := taken
    obtain ⟨⟨f, hf, rfl⟩, hs⟩ := CommandFault.take?_eq_some ht
    exact hfailed f rest (h.2 f hf) ⟨h.1, fun g hg => h.2 g (hs hg)⟩

theorem after_replies {c : Call} {command : Command} {failed : DatabaseError → Except Failure c.Answer}
    {next : Backend → Except Failure c.Answer × Backend} (h : b.Allows m)
    (hfailed : ∀ f : CommandFault, m.Covers (.command f) → b.store.Answers m c (failed f.error) b.store)
    (hnext : ∀ armed, Allows m { b with armed } → b.Replies m c b.blobLog (next { b with armed })) :
    b.Replies m c b.blobLog (b.after command failed next) :=
  after_induction h (fun f armed hf ha => ⟨b.store, b.plan, armed, rfl, ha, hfailed f hf⟩) hnext

theorem afterChunks_replies {c : Call} {verb : Verb} {bytes : Bytes}
    {failed : DatabaseError → Except Failure c.Answer} {next : Backend → Except Failure c.Answer × Backend}
    (h : b.Allows m)
    (hfailed : ∀ f : CommandFault, m.Covers (.command f) → b.store.Answers m c (failed f.error) b.store)
    (hnext : ∀ armed, Allows m { b with armed } → b.Replies m c b.blobLog (next { b with armed })) :
    b.Replies m c b.blobLog (b.afterChunks verb bytes failed next) := by
  unfold afterChunks
  split
  · exact hnext b.armed h
  · exact after_replies h hfailed hnext

theorem putBlob_replies (h : b.Allows m) (key : String) (bytes : Bytes) (now : Timestamp) :
    b.Replies m (.putBlob key bytes now) b.blobLog (b.execute (.putBlob key bytes now)) := by
  have hfailed : ∀ f : CommandFault, m.Covers (.command f) →
      b.store.Answers m (.putBlob key bytes now) (.error (blobFailed key)) b.store :=
    fun f hf => .failed _ _ (hf.2.1 key)
  refine afterChunks_replies h hfailed fun _ h => ?_
  refine after_replies h hfailed fun _ h => ?_
  exact commit_replies h (.putBlob key bytes now)

theorem getBlob_replies (h : b.Allows m) (key : String) :
    b.Replies m (.getBlob key) b.blobLog (b.execute (.getBlob key)) := by
  have hfailed : ∀ f : CommandFault, m.Covers (.command f) →
      b.store.Answers m (.getBlob key) (.error (blobFailed key)) b.store :=
    fun f hf => .failed _ _ (hf.2.1 key)
  refine after_replies h hfailed fun armed h => ?_
  cases hb : b.store.blob? key with
  | none =>
    have hr : b.store.Answers m (.getBlob key) (.error (Store.noBlob key)) b.store := by
      simpa [Store.apply, Store.lookUp, hb] using Store.Answers.done (m := m) (s := b.store) (.getBlob key)
    exact ⟨b.store, b.plan, armed, rfl, h, hr⟩
  | some blob =>
    refine afterChunks_replies h hfailed fun _ h => ?_
    exact commit_replies h (.getBlob key)

/-- The file row goes first, and then its chunks: a failure in between has removed the blob. -/
theorem removeBlob_replies (h : b.Allows m) (key : String) :
    b.Replies m (.removeBlob key) b.blobLog (b.execute (.removeBlob key)) := by
  have hfailed : ∀ f : CommandFault, m.Covers (.command f) →
      b.store.Answers m (.removeBlob key) (.error (blobFailed key)) b.store :=
    fun f hf => .failed _ _ (hf.2.1 key)
  refine after_replies h hfailed fun armed h => ?_
  cases hb : b.store.blob? key with
  | none =>
    have hr := Store.Answers.done (m := m) (s := b.store) (.removeBlob key)
    simp only [Store.apply, Store.removeBlob?, Table.remove?_eq_none.mpr (Store.blob?_eq_none hb),
      Option.map_none] at hr
    exact ⟨b.store, b.plan, armed, rfl, h, hr⟩
  | some blob =>
    simp only [Option.isNone_some, Bool.false_eq_true, if_false]
    refine after_replies h hfailed fun armed h => ?_
    refine after_induction (b := { b with armed, store := (b.store.apply (.removeBlob key)).2 }) h
      (fun f rest hf ha => ?_) fun rest ha => ?_
    · exact ⟨_, _, rest, rfl, ha, .cleared key _ (hf.2.1 key)⟩
    · exact ⟨_, _, rest, rfl, ha, .done (.removeBlob key)⟩

theorem seekGrant_replies (h : b.Allows m) (user lesson : String) :
    b.Replies m (.seekGrant user lesson) b.blobLog (b.execute (.seekGrant user lesson)) := by
  refine after_replies h (fun f hf => ?_) fun _ h => commit_replies h (.seekGrant user lesson)
  exact .refused user lesson f.error hf.1 hf.2.2

theorem execute_replies (h : b.Allows m) (c : Call) : b.Replies m c b.blobLog (b.execute c) := by
  have plain : ∀ {c : Call} {command : Command}, b.Replies m c b.blobLog
      (b.after command (fun e => .error e.failure) fun b => b.commit c) := fun {c _} =>
    after_replies h (fun f hf => .failed _ _ hf.1) fun _ h => commit_replies h c
  cases c with
  | putBlob key bytes now => exact putBlob_replies h key bytes now
  | getBlob key => exact getBlob_replies h key
  | removeBlob key => exact removeBlob_replies h key
  | seekGrant user lesson => exact seekGrant_replies h user lesson
  | addGrant row => exact commit_replies h (.addGrant row)
  | _ => exact plain

/-- Every call is logged, and answered in one of the ways that the faults allow. -/
theorem perform_replies (h : b.Allows m) (c : Call) :
    b.Replies m c (b.blobLog ++ (event? c).toList) (b.perform c) := by
  unfold perform strike
  cases hc : c.site? with
  | none =>
    obtain ⟨row, rfl⟩ : ∃ row, c = .addGrant row := by
      cases c <;> simp_all [Call.site?]
    simpa [event?] using execute_replies h (.addGrant row)
  | some site =>
    obtain ⟨hdue, hleft⟩ := PlannedFault.strike_planned site b.plan
    have hplan : ∀ p ∈ (PlannedFault.strike site b.plan).2, m.Covers p.effect := fun p hp =>
      let ⟨q, hq, he⟩ := hleft p hp
      he ▸ h.1 q hq
    have hcovers : ∀ e ∈ (PlannedFault.strike site b.plan).1, m.Covers e := fun e he =>
      let ⟨q, hq, hqe⟩ := hdue e he
      hqe ▸ h.1 q hq
    simp only
    cases hr : FaultEffect.refusal? (PlannedFault.strike site b.plan).1 with
    | some f =>
      exact ⟨b.store, _, b.armed, rfl, ⟨hplan, h.2⟩, .failed c f (hcovers _ (FaultEffect.refusal?_eq_some hr))⟩
    | none =>
      refine execute_replies (b := b.answered b.store _ _ _) ⟨hplan, fun f hf => ?_⟩ c
      rcases List.mem_append.mp hf with hf | hf
      · exact h.2 f hf
      · exact hcovers _ (FaultEffect.mem_commands hf)

end Backend

end Coursework
