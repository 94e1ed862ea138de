import Coursework.Proofs.Calls
import Coursework.Proofs.Nesting

/-!
# Clearing a catalogue

Whatever a catalogue has been through, it can be cleared by what it shows: the attachments of all lessons that are
listed, then the lessons, the chapters and the courses.  Every row is listed somewhere, as rows name parents that are
there, and nothing stands in the way of a deletion once the level below is gone.
-/
namespace Coursework

open Program

theorem Table.remove?_of_perm {α κ : Type} [DecidableEq κ] {key : α → κ} {rows : List α} {k : κ} {rest : List κ}
    (h : (k :: rest).Perm (rows.map key)) :
    ∃ rows', remove? (fun x => key x = k) rows = some rows' ∧ rest.Perm (rows'.map key) := by
  cases hr : remove? (fun x => key x = k) rows with
  | none =>
    obtain ⟨x, hx, hk⟩ := List.mem_map.mp (h.subset (List.mem_cons_self ..))
    simpa [hk] using remove?_eq_none.mp hr x hx
  | some rows' =>
    obtain ⟨before, x, after, rfl, hx, rfl⟩ := remove?_split hr
    refine ⟨_, rfl, ?_⟩
    rw [List.map_append, List.map_cons, of_decide_eq_true hx] at h
    rw [List.map_append]
    exact (h.trans List.perm_middle).cons_inv

theorem Table.isSome_find?_of_remove? {α : Type} {p : α → Bool} {rows rows' : List α}
    (h : remove? p rows = some rows') : (rows.find? p).isSome = true := by
  obtain ⟨before, x, after, rfl, hx, -⟩ := remove?_split h
  rw [List.find?_isSome]
  exact ⟨x, List.mem_append_right before (List.mem_cons_self ..), hx⟩

namespace Backend

variable {s t u : Store} {α β : Type}

/-- In a store like the first the program gives this value and leaves the second, if nothing befalls it. -/
def Reaches (s : Store) (p : Program α) (x : α) (t : Store) : Prop :=
  ∀ b : Backend, b.store = s → b.Ends .nothing p fun r b' => r = .ok x ∧ b'.store = t

theorem reaches_ask {c : Call} {x : c.Answer} (h : s.apply c = (.ok x, t)) : Reaches s (ask c) x t := by
  rintro b rfl
  refine ends_call fun r store _ _ ha => ends_done ?_
  have hexact := ha.exact
  rwa [h] at hexact

theorem reaches_bind {p : Program α} {f : α → Program β} {x : α} {y : β} (hp : Reaches s p x t)
    (hf : Reaches t (f x) y u) : Reaches s (p >>= f) y u := by
  refine fun b hs => ends_bind (hp b hs) (fun x' b' h => ?_) fun e b' h => ?_
  · obtain ⟨hx, hb'⟩ := h
    cases hx
    exact hf b' hb'
  · cases h.1

theorem reaches_attempt {c : Call} {r : Except Failure c.Answer} {f : Except Failure c.Answer → Program β} {y : β}
    (h : s.apply c = (r, t)) (hf : Reaches t (f r) y u) : Reaches s (attempt (ask c) >>= f) y u := by
  rintro b rfl
  refine ends_attempt fun r' store _ _ ha => ?_
  obtain ⟨rfl, rfl⟩ := ha.exact
  rw [h]
  exact hf _ rfl

theorem reaches_require {condition : Bool} {e : Failure} {f : Unit → Program β} {y : β} (h : condition = true)
    (hf : Reaches s (f ()) y t) : Reaches s (require condition e >>= f) y t := by
  subst h
  exact hf

end Backend

open Backend

namespace Store

variable {s : Store} {id : String}

theorem deleteCourse_reaches {rows : List Course} (childless : s.chapters = [])
    (removed : Table.remove? (fun c => c.id = id) s.courses = some rows) :
    Reaches s (Courses.delete id) () { s with courses := rows } := by
  refine reaches_bind (reaches_ask rfl) (reaches_require (Table.isSome_find?_of_remove? removed) ?_)
  refine reaches_bind (reaches_ask rfl) (reaches_require (by simp [childless]) ?_)
  exact reaches_ask (by simp [apply, removeCourse?, removed, change])

theorem deleteChapter_reaches {rows : List Chapter} (childless : s.lessons = [])
    (removed : Table.remove? (fun c => c.id = id) s.chapters = some rows) :
    Reaches s (Chapters.delete id) () { s with chapters := rows } := by
  refine reaches_bind (reaches_ask rfl) (reaches_require (Table.isSome_find?_of_remove? removed) ?_)
  refine reaches_bind (reaches_ask rfl) (reaches_require (by simp [childless]) ?_)
  exact reaches_ask (by simp [apply, removeChapter?, removed, change])

theorem deleteLesson_reaches {rows : List Lesson} (childless : s.attachments = [])
    (removed : Table.remove? (fun l => l.id = id) s.lessons = some rows) :
    Reaches s (Lessons.delete id) () { s with lessons := rows } := by
  refine reaches_bind (reaches_ask rfl) (reaches_require (Table.isSome_find?_of_remove? removed) ?_)
  refine reaches_bind (reaches_ask rfl) (reaches_require (by simp [childless]) ?_)
  exact reaches_ask (by simp [apply, removeLesson?, removed, change])

/-- The blobs without the first of a key, if there is one. -/
def blobsWithout (s : Store) (key : String) : List Blob := (Table.remove? (fun b => b.key = key) s.blobs).getD s.blobs

theorem deleteAttachment_reaches {row : Attachment} {rows : List Attachment} (found : s.attachment? id = some row)
    (removed : Table.remove? (fun a => a.id = id) s.attachments = some rows) :
    Reaches s (Attachments.delete id) ()
      { s with attachments := rows, blobs := s.blobsWithout row.storageKey } := by
  have hfind : s.apply (.findAttachment id) = (.ok row, s) := by simp [apply, found, lookUp]
  have hremove : s.apply (.removeAttachment id) = (.ok (), { s with attachments := rows }) := by
    simp [apply, removeAttachment?, removed, change]
  obtain ⟨cleared, hclear⟩ : ∃ cleared, apply { s with attachments := rows } (.removeBlob row.storageKey) =
      (cleared, { s with attachments := rows, blobs := s.blobsWithout row.storageKey }) := by
    simp only [apply, removeBlob?, blobsWithout]
    cases Table.remove? (fun b => b.key = row.storageKey) s.blobs <;> exact ⟨_, rfl⟩
  refine reaches_bind (reaches_ask hfind) (reaches_bind (reaches_ask hremove) ?_)
  exact reaches_attempt hclear fun b hb => ends_done ⟨rfl, hb⟩

/-- Blobs and attachments go in pairs. -/
def Paired (s : Store) : Prop := (s.blobs.map Blob.key).Perm (s.attachments.map Attachment.storageKey)

/-- A row that goes takes its blob along. -/
theorem Paired.remove (hp : s.Paired) {row : Attachment} {rows : List Attachment}
    (found : s.attachment? id = some row)
    (removed : Table.remove? (fun a => a.id = id) s.attachments = some rows) :
    ∃ rest, Table.remove? (fun b => b.key = row.storageKey) s.blobs = some rest ∧
      Paired { s with attachments := rows, blobs := rest } := by
  obtain ⟨before, after, hsplit, rfl⟩ := Table.remove?_find? removed found
  have hkeys : (row.storageKey :: (before ++ after).map Attachment.storageKey).Perm (s.blobs.map Blob.key) := by
    refine List.Perm.trans ?_ hp.symm
    rw [hsplit, List.map_append, List.map_append, List.map_cons]
    exact List.perm_middle.symm
  obtain ⟨rest, hrest, hpaired⟩ := Table.remove?_of_perm hkeys
  exact ⟨rest, hrest, hpaired.symm⟩

/-- A blob that is taken back leaves the others, or one of its own key in place of another. -/
theorem Paired.undo (hp : s.Paired) (blob : Blob) {rest : List Blob}
    (removed : Table.remove? (fun b => b.key = blob.key) (s.blobs ++ [blob]) = some rest) :
    Paired { s with blobs := rest } := by
  have hkeys : (blob.key :: s.blobs.map Blob.key).Perm ((s.blobs ++ [blob]).map Blob.key) := by
    rw [List.map_append]
    exact (List.perm_append_singleton ..).symm
  obtain ⟨rest', hrest, hsame⟩ := Table.remove?_of_perm hkeys
  cases removed.symm.trans hrest
  exact hsame.symm.trans hp

theorem Paired.outcome {now : Timestamp} {uid key : Uuid} {op : Operation} {r : Except Failure op.Result} {t : Store}
    (hp : s.Paired) (h : op.Outcome .nothing now uid key s r t) : t.Paired := by
  cases h with
  | upload _ _ _ => simpa [Paired, Attachments.row, Attachments.blob] using hp.append_right _
  | uploadUndone f removed => exact hp.undo (Attachments.blob key _ _ now) removed
  | uploadStranded _ _ stuck => exact stuck.elim
  | deleteAttachment found removed cleared =>
    obtain ⟨rest, hrest, hpaired⟩ := hp.remove found removed
    rcases cleared with hcleared | ⟨-, ⟨f, hf⟩ | hnone⟩
    · cases hrest.symm.trans hcleared
      exact hpaired
    · exact hf.elim
    · obtain ⟨before, b, after, hsplit, hb, -⟩ := Table.remove?_split hrest
      exact absurd (of_decide_eq_true hb) (hnone b (by simp [hsplit]))
  | _ => exact hp

end Store

namespace History

variable {h : History}

/-- Every operation that is served next succeeds. -/
def AllSucceed (h : History) : List (Timestamp × Operation) → Prop
  | [] => True
  | (now, op) :: steps => (∃ x, h.result now op = .ok x) ∧ (h.serve now op).AllSucceed steps

theorem allWithin_append {m : Mishaps} {first second : List (Timestamp × Operation)} :
    h.AllWithin m (first ++ second) ↔ h.AllWithin m first ∧ (h.serveAll first).AllWithin m second := by
  induction first generalizing h with
  | nil => simp [AllWithin, serveAll]
  | cons step first ih => simp [AllWithin, serveAll, ih, and_assoc]

theorem allSucceed_append {first second : List (Timestamp × Operation)} :
    h.AllSucceed (first ++ second) ↔ h.AllSucceed first ∧ (h.serveAll first).AllSucceed second := by
  induction first generalizing h with
  | nil => simp [AllSucceed, serveAll]
  | cons step first ih => simp [AllSucceed, serveAll, ih, and_assoc]

theorem serveAll_paired {steps : List (Timestamp × Operation)} (hp : h.store.Paired)
    (hw : h.AllWithin .nothing steps) : (h.serveAll steps).store.Paired := by
  induction steps generalizing h with
  | nil => exact hp
  | cons step steps ih => exact ih (hp.outcome (serve_outcome hw.1)) hw.2

theorem serve_reaches {now : Timestamp} {op : Operation} {x : op.Result} {t : Store}
    (hr : Reaches h.store (op.program now) x t) (hw : h.ServesWithin .nothing now op) :
    h.result now op = .ok x ∧ (h.serve now op).store = t := hr h.backend.nextStep rfl hw.within

section Deletions

variable {deletions : List (Timestamp × Operation)} {ids : List String}

/-- Where each deletion succeeds and takes one row of a table, deletions of all its keys succeed and leave none. -/
theorem clear_table {α : Type} {key : α → String} {del : String → Operation} {P : List α → Store → Prop}
    (step : ∀ s rows rows' id, P rows s → Table.remove? (fun x => key x = id) rows = some rows' →
      ∃ (x : (del id).Result) (t : Store), (∀ now, Reaches s ((del id).program now) x t) ∧ P rows' t)
    {rows : List α} (holds : P rows h.store) (asked : deletions.map Prod.snd = ids.map del)
    (all : ids.Perm (rows.map key)) (hw : h.AllWithin .nothing deletions) :
    h.AllSucceed deletions ∧ P [] (h.serveAll deletions).store := by
  induction deletions generalizing h ids rows with
  | nil =>
    have hids : ids = [] := List.map_eq_nil_iff.mp asked.symm
    have hrows : rows = [] := List.map_eq_nil_iff.mp (List.nil_perm.mp (hids ▸ all))
    exact ⟨trivial, hrows ▸ holds⟩
  | cons deletion deletions ih =>
    obtain ⟨now, op⟩ := deletion
    cases ids with
    | nil => cases asked
    | cons id rest =>
      obtain ⟨hop, hrest⟩ := List.cons.inj asked
      cases hop
      obtain ⟨rows', removed, hperm⟩ := Table.remove?_of_perm all
      obtain ⟨x, t, hreaches, hholds⟩ := step h.store rows rows' id holds removed
      obtain ⟨hresult, rfl⟩ := serve_reaches (hreaches now) hw.1
      obtain ⟨hsucceed, hend⟩ := ih hholds hrest hperm hw.2
      exact ⟨⟨⟨x, hresult⟩, hsucceed⟩, hend⟩

theorem clear_attachments (asked : deletions.map Prod.snd = ids.map .deleteAttachment)
    (all : ids.Perm (h.store.attachments.map Attachment.id)) (hw : h.AllWithin .nothing deletions) :
    h.AllSucceed deletions ∧ ∃ blobs, (h.serveAll deletions).store = { h.store with attachments := [], blobs } ∧
      (h.store.Paired → blobs = []) := by
  have step : ∀ s rows rows' id,
      (∃ blobs, s = { h.store with attachments := rows, blobs } ∧ (h.store.Paired → s.Paired)) →
      Table.remove? (fun a => a.id = id) rows = some rows' →
      ∃ (x : (Operation.deleteAttachment id).Result) (t : Store),
        (∀ now, Reaches s ((Operation.deleteAttachment id).program now) x t) ∧
          ∃ blobs, t = { h.store with attachments := rows', blobs } ∧ (h.store.Paired → t.Paired) := by
    rintro s rows rows' id ⟨blobs, rfl, hpaired⟩ removed
    obtain ⟨row, found⟩ := Option.isSome_iff_exists.mp (Table.isSome_find?_of_remove? removed)
    refine ⟨(), _, fun _ => Store.deleteAttachment_reaches found removed, _, rfl, fun hp => ?_⟩
    obtain ⟨rest, hrest, hrestPaired⟩ := (hpaired hp).remove found removed
    rw [Store.blobsWithout, hrest]
    exact hrestPaired
  obtain ⟨hsucceed, blobs, hs, hpaired⟩ := clear_table step ⟨h.store.blobs, rfl, id⟩ asked all hw
  refine ⟨hsucceed, blobs, hs, fun hp => ?_⟩
  have hblobs := hpaired hp
  rw [hs] at hblobs
  exact List.map_eq_nil_iff.mp (List.perm_nil.mp hblobs)

theorem clear_lessons (empty : h.store.attachments = []) (asked : deletions.map Prod.snd = ids.map .deleteLesson)
    (all : ids.Perm (h.store.lessons.map Lesson.id)) (hw : h.AllWithin .nothing deletions) :
    h.AllSucceed deletions ∧ (h.serveAll deletions).store = { h.store with lessons := [] } := by
  refine clear_table (P := fun rows s => s = { h.store with lessons := rows }) ?_ rfl asked all hw
  rintro s rows rows' id rfl removed
  exact ⟨(), _, fun _ => Store.deleteLesson_reaches empty removed, rfl⟩

theorem clear_chapters (empty : h.store.lessons = []) (asked : deletions.map Prod.snd = ids.map .deleteChapter)
    (all : ids.Perm (h.store.chapters.map Chapter.id)) (hw : h.AllWithin .nothing deletions) :
    h.AllSucceed deletions ∧ (h.serveAll deletions).store = { h.store with chapters := [] } := by
  refine clear_table (P := fun rows s => s = { h.store with chapters := rows }) ?_ rfl asked all hw
  rintro s rows rows' id rfl removed
  exact ⟨(), _, fun _ => Store.deleteChapter_reaches empty removed, rfl⟩

theorem clear_courses (empty : h.store.chapters = []) (asked : deletions.map Prod.snd = ids.map .deleteCourse)
    (all : ids.Perm (h.store.courses.map Course.id)) (hw : h.AllWithin .nothing deletions) :
    h.AllSucceed deletions ∧ (h.serveAll deletions).store = { h.store with courses := [] } := by
  refine clear_table (P := fun rows s => s = { h.store with courses := rows }) ?_ rfl asked all hw
  rintro s rows rows' id rfl removed
  exact ⟨(), _, fun _ => Store.deleteCourse_reaches empty removed, rfl⟩

end Deletions

/-- The catalogue is cleared level by level, from the attachments up. -/
theorem clear_levels {deletions : List (Timestamp × Operation)} {attachments lessons chapters courses : List String}
    (asked : deletions.map Prod.snd = attachments.map .deleteAttachment ++ lessons.map .deleteLesson ++
      chapters.map .deleteChapter ++ courses.map .deleteCourse)
    (allAttachments : attachments.Perm (h.store.attachments.map Attachment.id))
    (allLessons : lessons.Perm (h.store.lessons.map Lesson.id))
    (allChapters : chapters.Perm (h.store.chapters.map Chapter.id))
    (allCourses : courses.Perm (h.store.courses.map Course.id)) (hw : h.AllWithin .nothing deletions) :
    h.AllSucceed deletions ∧ ∃ blobs, (h.serveAll deletions).store = ⟨[], [], [], [], h.store.grants, blobs⟩ ∧
      (h.store.Paired → blobs = []) := by
  obtain ⟨upper, byCourse, rfl, hupper, hbyCourse⟩ := List.map_eq_append_iff.mp asked
  obtain ⟨lower, byChapter, rfl, hlower, hbyChapter⟩ := List.map_eq_append_iff.mp hupper
  obtain ⟨byAttachment, byLesson, rfl, hbyAttachment, hbyLesson⟩ := List.map_eq_append_iff.mp hlower
  simp only [allWithin_append] at hw
  obtain ⟨⟨⟨hw₁, hw₂⟩, hw₃⟩, hw₄⟩ := hw
  simp only [serveAll_append] at hw₂ hw₃ hw₄
  obtain ⟨h₁, blobs, hs₁, hpaired⟩ := clear_attachments hbyAttachment allAttachments hw₁
  obtain ⟨h₂, hs₂⟩ := clear_lessons (by rw [hs₁]) hbyLesson (by rw [hs₁]; exact allLessons) hw₂
  obtain ⟨h₃, hs₃⟩ := clear_chapters (by rw [hs₂]) hbyChapter (by rw [hs₂, hs₁]; exact allChapters) hw₃
  obtain ⟨h₄, hs₄⟩ := clear_courses (by rw [hs₃]) hbyCourse (by rw [hs₃, hs₂, hs₁]; exact allCourses) hw₄
  simp only [allSucceed_append, serveAll_append]
  refine ⟨⟨⟨⟨h₁, h₂⟩, h₃⟩, h₄⟩, blobs, ?_, hpaired⟩
  rw [hs₄, hs₃, hs₂, hs₁]

end History

namespace Store

variable {s : Store} {lessonId : String}

theorem attachmentsOf_perm (s : Store) (id : String) :
    (s.attachmentsOf id).Perm (s.attachments.filter fun a => a.lessonId = id) := Table.sorted_perm ..

theorem shows_listAttachments (parent : (s.lesson? lessonId).isSome = true) :
    s.Shows (.listAttachments lessonId) ((s.attachmentsOf lessonId).map Attachment.view) := by
  refine shows_of_yields fun _ => yields_bind (yields_read rfl rfl) ?_
  exact reaches_require parent (yields_bind (yields_read rfl rfl) yields_ok)

/-- Lesson by lesson, every attachment is listed. -/
theorem Intact.listed_attachments (hi : s.Intact) :
    ((s.sortedLessons.flatMap fun l => (s.attachmentsOf l.id).map Attachment.view).map AttachmentView.id).Perm
      (s.attachments.map Attachment.id) := by
  have hlessons : s.sortedLessons.Perm s.lessons := Table.sorted_perm ..
  have hgrouped : (s.sortedLessons.flatMap fun l => s.attachmentsOf l.id).Perm
      ((s.sortedLessons.map Lesson.id).flatMap fun k => s.attachments.filter fun a => a.lessonId = k) := by
    rw [List.flatMap_map]
    exact List.Perm.flatMap_left _ fun l _ => s.attachmentsOf_perm l.id
  have hall : (s.sortedLessons.flatMap fun l => s.attachmentsOf l.id).Perm s.attachments := by
    refine hgrouped.trans (Table.perm_flatMap_filter ?_ fun a ha => ?_)
    · exact (hlessons.map Lesson.id).nodup_iff.mpr hi.lessonIds
    · exact (hlessons.map Lesson.id).symm.subset (hi.attachmentParents (List.mem_map_of_mem ha))
  have hids := hall.map Attachment.id
  rw [List.map_flatMap] at hids ⊢
  simp only [List.map_map]
  exact hids

end Store

namespace History

/-- Whatever has happened and whatever failed, what the catalogue lists is enough to clear it: if nothing fails from
then on, the attachments of all lessons, then the lessons, the chapters and the courses can be deleted, each level in
any order, and no row is left but the grants, and no blob either if nothing had failed before. -/
theorem catalogue_can_be_cleared (ids keys : Nat → Uuid) (plan : List PlannedFault)
    (steps : List (Timestamp × Operation)) :
    let s := ((start ids keys plan).serveAll steps).store
    ∃ (courses : List Course) (chapters : List Chapter) (lessons : List Lesson)
      (attachments : Lesson → List AttachmentView),
      s.Shows .listCourses courses ∧ s.Shows .listChapters chapters ∧ s.Shows .listLessons lessons ∧
      (∀ lesson ∈ lessons, s.Shows (.listAttachments lesson.id) (attachments lesson)) ∧
      ∀ (byAttachment byLesson byChapter byCourse : List String) (deletions : List (Timestamp × Operation))
        (h : History),
        byAttachment.Perm ((lessons.flatMap attachments).map AttachmentView.id) →
        byLesson.Perm (lessons.map Lesson.id) → byChapter.Perm (chapters.map Chapter.id) →
        byCourse.Perm (courses.map Course.id) →
        deletions.map Prod.snd = byAttachment.map .deleteAttachment ++ byLesson.map .deleteLesson ++
          byChapter.map .deleteChapter ++ byCourse.map .deleteCourse →
        h.store = s → h.AllWithin .nothing deletions →
        h.AllSucceed deletions ∧
          ∃ blobs, (h.serveAll deletions).store = ⟨[], [], [], [], s.grants, blobs⟩ ∧
            ((start ids keys plan).AllWithin .nothing steps → blobs = []) := by
  intro s
  have hi : s.Intact := serveAll_intact Store.intact_empty steps
  have hcourses : s.sortedCourses.Perm s.courses := Table.sorted_perm ..
  have hchapters : s.sortedChapters.Perm s.chapters := Table.sorted_perm ..
  have hlessons : s.sortedLessons.Perm s.lessons := Table.sorted_perm ..
  refine ⟨s.sortedCourses, s.sortedChapters, s.sortedLessons, fun l => (s.attachmentsOf l.id).map Attachment.view,
    s.shows_listCourses, s.shows_listChapters, s.shows_listLessons, fun lesson hlesson => ?_, ?_⟩
  · have hmem : lesson ∈ s.lessons := hlessons.subset hlesson
    have found : s.lesson? lesson.id = some lesson := Table.find?_eq_some_of_mem hi.lessonIds hmem
    exact Store.shows_listAttachments (by rw [found]; rfl)
  · intro byAttachment byLesson byChapter byCourse deletions h hattachment hlesson hchapter hcourse asked hs hw
    obtain ⟨hsucceed, blobs, hend, hpaired⟩ := clear_levels asked
      (hs ▸ hattachment.trans hi.listed_attachments) (hs ▸ hlesson.trans (hlessons.map Lesson.id))
      (hs ▸ hchapter.trans (hchapters.map Chapter.id)) (hs ▸ hcourse.trans (hcourses.map Course.id)) hw
    refine ⟨hsucceed, blobs, hs ▸ hend, fun unfailing => hpaired ?_⟩
    have hstart : (start ids keys plan).store.Paired := List.Perm.refl _
    exact hs ▸ serveAll_paired hstart unfailing

def sampleDeletions : List (Timestamp × Operation) :=
  [.deleteAttachment (Uuid.numbered 3).text, .deleteLesson (Uuid.numbered 2).text,
    .deleteChapter (Uuid.numbered 1).text, .deleteCourse (Uuid.numbered 0).text].map fun op => (sampleTime, op)

theorem sample_shows {op : Operation} {x : op.Result} (shows : sample.store.Shows op x) :
    sample.result sampleTime op = .ok x :=
  (shows sample sampleTime rfl (serve_allows (sample_allows .nothing) sampleTime op).1).1

theorem catalogue_can_be_cleared_sample :
    sample.AllSucceed sampleDeletions ∧ (sample.serveAll sampleDeletions).store = .empty := by
  obtain ⟨courses, chapters, lessons, attachments, hcourses, hchapters, hlessons, hattachments, cleared⟩ :=
    catalogue_can_be_cleared .numbered .numbered [] (sampleOperations.map fun op => (sampleTime, op))
  have courseIds : (sample.result sampleTime .listCourses).map (List.map Course.id) =
      .ok [(Uuid.numbered 0).text] := by decide +kernel
  have chapterIds : (sample.result sampleTime .listChapters).map (List.map Chapter.id) =
      .ok [(Uuid.numbered 1).text] := by decide +kernel
  have lessonIds : (sample.result sampleTime .listLessons).map (List.map Lesson.id) =
      .ok [(Uuid.numbered 2).text] := by decide +kernel
  have attachmentIds : (sample.result sampleTime (.listAttachments (Uuid.numbered 2).text)).map
      (List.map AttachmentView.id) = .ok [(Uuid.numbered 3).text] := by decide +kernel
  rw [sample_shows hcourses] at courseIds
  rw [sample_shows hchapters] at chapterIds
  rw [sample_shows hlessons] at lessonIds
  obtain ⟨lesson, rfl, hlesson⟩ := List.map_eq_singleton_iff.mp (Except.ok.inj lessonIds)
  have listed := sample_shows (hattachments lesson (List.mem_singleton_self lesson))
  rw [hlesson] at listed
  rw [listed] at attachmentIds
  obtain ⟨hsucceed, blobs, hend, hblobs⟩ := cleared [(Uuid.numbered 3).text] [(Uuid.numbered 2).text]
    [(Uuid.numbered 1).text] [(Uuid.numbered 0).text] sampleDeletions sample
    (by rw [List.flatMap_singleton, Except.ok.inj attachmentIds]) (by rw [Except.ok.inj lessonIds])
    (by rw [Except.ok.inj chapterIds]) (by rw [Except.ok.inj courseIds]) rfl rfl
    (serveAll_allows (sample_allows .nothing) sampleDeletions).1
  have hstart : (start .numbered .numbered []).backend.Allows .nothing :=
    ⟨List.forall_mem_nil _, List.forall_mem_nil _⟩
  rw [hblobs (serveAll_allows hstart _).1] at hend
  have ungranted : sample.store.grants = [] := by decide +kernel
  exact ⟨hsucceed, hend.trans (congrArg (Store.mk [] [] [] [] · []) ungranted)⟩

end History

end Coursework
