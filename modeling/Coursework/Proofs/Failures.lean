import Coursework.Proofs.Files

/-!
# Failed operations

An operation that fails has changed nothing, whichever of its calls went wrong.  The one that cannot always take back
what it did is an upload: it writes a blob and then a row, and where the row is refused and the blob cannot be removed
either, the blob stays, under a key that nothing else has.  To say which calls failed, a run is followed together with
the answers that it gets.
-/
namespace Coursework

open Program

/-- A call with the answer that it got. -/
structure Exchange where
  call : Call
  answer : Except Failure call.Answer

namespace Backend

variable {b : Backend} {α β : Type}

/-- The calls that a program makes when it is run here, with their answers. -/
def exchanges (b : Backend) : Program α → List Exchange
  | .done _ => []
  | .call c next => ⟨c, (b.perform c).1⟩ :: (b.perform c).2.exchanges (next (b.perform c).1)
  | .drawId next => exchanges { b with idsDrawn := b.idsDrawn + 1 } (next (b.ids b.idsDrawn))
  | .drawKey next => exchanges { b with keysDrawn := b.keysDrawn + 1 } (next (b.keys b.keysDrawn))

/-- A program that is run here ends as the postcondition says, which looks at the exchanges on the way as well. -/
def Traces (b : Backend) (p : Program α) (post : List Exchange → Except Failure α → Backend → Prop) : Prop :=
  post (b.exchanges p) (b.run p).1 (b.run p).2

theorem traces_call {c : Call} {next : Except Failure c.Answer → Program α}
    {post : List Exchange → Except Failure α → Backend → Prop}
    (h : ∀ r store plan armed, b.store.Answers .anything c r store →
      (b.asked c store plan armed).Traces (next r) fun es => post (⟨c, r⟩ :: es)) :
    b.Traces (.call c next) post := by
  obtain ⟨store, plan, armed, he, -, hr⟩ := perform_replies b.allows_anything c
  have hasked : (b.perform c).2 = b.asked c store plan armed := he
  have hnext := h _ store plan armed hr
  rw [← hasked] at hnext
  exact hnext

theorem traces_ask {c : Call} {f : c.Answer → Program α} {post : List Exchange → Except Failure α → Backend → Prop}
    (hc : c.isPlain = true)
    (ok : ∀ x store plan armed, b.store.apply c = (.ok x, store) →
      (b.asked c store plan armed).Traces (f x) fun es => post (⟨c, .ok x⟩ :: es))
    (error : ∀ e plan armed, post [⟨c, .error e⟩] (.error e) (b.asked c b.store plan armed)) :
    b.Traces (ask c >>= f) post := by
  refine traces_call fun r store plan armed h => ?_
  rcases h.plain hc with ⟨x, rfl, hx⟩ | ⟨e, rfl, rfl, -⟩
  · exact ok x store plan armed hx
  · exact error e plan armed

theorem traces_attempt {c : Call} {f : Except Failure c.Answer → Program α}
    {post : List Exchange → Except Failure α → Backend → Prop}
    (h : ∀ r store plan armed, b.store.Answers .anything c r store →
      (b.asked c store plan armed).Traces (f r) fun es => post (⟨c, r⟩ :: es)) :
    b.Traces (attempt (ask c) >>= f) post := traces_call h

theorem traces_ofExcept {r : Except Failure β} {f : β → Program α}
    {post : List Exchange → Except Failure α → Backend → Prop} (ok : ∀ x, r = .ok x → b.Traces (f x) post)
    (error : ∀ e, r = .error e → post [] (.error e) b) : b.Traces (ofExcept r >>= f) post := by
  cases r with
  | ok x => exact ok x rfl
  | error e => exact error e rfl

theorem traces_freshId {f : Uuid → Program α} {post : List Exchange → Except Failure α → Backend → Prop}
    (h : Traces { b with idsDrawn := b.idsDrawn + 1 } (f (b.ids b.idsDrawn)) post) :
    b.Traces (freshId >>= f) post := h

theorem traces_freshKey {f : Uuid → Program α} {post : List Exchange → Except Failure α → Backend → Prop}
    (h : Traces { b with keysDrawn := b.keysDrawn + 1 } (f (b.keys b.keysDrawn)) post) :
    b.Traces (freshKey >>= f) post := h

/-- Nothing is stored under a key that begins with the identifier to be drawn next. -/
structure NextKeyFresh (b : Backend) : Prop where
  rows : ∀ row ∈ b.store.attachments, ∀ name, row.storageKey ≠ Attachments.storageKey (b.keys b.keysDrawn) name
  blobs : ∀ blob ∈ b.store.blobs, ∀ name, blob.key ≠ Attachments.storageKey (b.keys b.keysDrawn) name

end Backend

/-- Whatever has happened, an identifier that has not been drawn before makes a new key. -/
theorem History.IsShelved.nextKeyFresh {h : History} (hs : h.IsShelved)
    (new : ∀ i < h.backend.keysDrawn, h.backend.keys i ≠ h.backend.keys h.backend.keysDrawn) :
    h.backend.NextKeyFresh := by
  have undrawn : ∀ key name, h.Drawn key → key ≠ Attachments.storageKey (h.backend.keys h.backend.keysDrawn) name := by
    rintro key name ⟨i, hi, name', rfl⟩ he
    exact new i hi (Attachments.storageKey_cancel he)
  exact ⟨fun row hrow name => undrawn _ name (Shelved.row_drawn hs hrow),
    fun blob hblob name => undrawn _ name (hs.blobs blob hblob)⟩

/-- What is left is a blob, whose row was refused and which could not be removed again, under a key that no row and no
other blob has. -/
structure Stranded (s : Store) (now : Timestamp) (bytes : Bytes) (f : Failure) (es : List Exchange) (t : Store)
    (row : Attachment) (g : Failure) : Prop where
  refused : ⟨.addAttachment row, .error f⟩ ∈ es
  stuck : ⟨.removeBlob row.storageKey, .error g⟩ ∈ es
  unnamed : ∀ a ∈ s.attachments, a.storageKey ≠ row.storageKey
  new : ∀ blob ∈ s.blobs, blob.key ≠ row.storageKey
  left : t = { s with blobs := s.blobs ++ [⟨row.storageKey, bytes, now.wholeMillis⟩] }

theorem Store.removeBlob_added {s : Store} (blob : Blob) (new : ∀ b ∈ s.blobs, b.key ≠ blob.key) :
    (apply { s with blobs := s.blobs ++ [blob] } (.removeBlob blob.key)).2 = s := by
  have hothers : ∀ b ∈ s.blobs, decide (b.key = blob.key) = false := fun b hb => decide_eq_false (new b hb)
  have hremoved := Table.remove?_append_singleton hothers (decide_eq_true (rfl : blob.key = blob.key))
  simp only [apply, removeBlob?, hremoved, Option.map_some]

namespace Attachments

variable {b : Backend} {now : Timestamp}

/-- The blob goes, even if that is not what is answered, unless its removal fails at once. -/
theorem undo_traces {s : Store} {bytes : Bytes} {e : Failure} (row : Attachment) (past : List Exchange)
    (hb : b.store = { s with blobs := s.blobs ++ [⟨row.storageKey, bytes, now.wholeMillis⟩] })
    (unnamed : ∀ a ∈ s.attachments, a.storageKey ≠ row.storageKey)
    (new : ∀ blob ∈ s.blobs, blob.key ≠ row.storageKey) (refused : ⟨.addAttachment row, .error e⟩ ∈ past) :
    b.Traces (attempt (ask (.removeBlob row.storageKey)) >>= fun _ => (fail e : Program Attachment))
      fun es r b' => ∀ f, r = .error f →
        b'.store = s ∨ ∃ row g, Stranded s now bytes f (past ++ es) b'.store row g := by
  refine Backend.traces_attempt fun r store _ _ h f hf => ?_
  obtain rfl : e = f := Except.error.inj hf
  rw [hb] at h
  have hgone := Store.removeBlob_added ⟨row.storageKey, bytes, now.wholeMillis⟩ new
  cases h with
  | done => exact Or.inl hgone
  | cleared => exact Or.inl hgone
  | failed _ g _ =>
    refine Or.inr ⟨row, g, ?_⟩
    exact {
      refused := List.mem_append_left _ refused
      stuck := List.mem_append_right _ (List.mem_singleton_self _)
      unnamed, new
      left := rfl }

theorem upload_traces (fresh : b.NextKeyFresh) (lessonId rawName : String) (bytes : Bytes) :
    b.Traces (upload now lessonId rawName bytes) fun es r b' => ∀ f, r = .error f →
      b'.store = b.store ∨ ∃ row g, Stranded b.store now bytes f es b'.store row g := by
  refine Backend.traces_ask rfl (fun lesson store _ _ hl => ?_) fun e _ _ _ _ => Or.inl rfl
  obtain rfl : store = b.store := by rw [← Store.apply_read (c := .findLesson lessonId) rfl b.store, hl]
  refine Backend.traces_ofExcept (fun name hn => ?_) fun e _ _ _ => Or.inl rfl
  refine Backend.traces_freshKey ?_
  refine Backend.traces_ask rfl (fun _ store _ _ hp => ?_) fun e _ _ _ _ => Or.inl rfl
  cases hp
  refine Backend.traces_freshId ?_
  refine Backend.traces_attempt fun r store _ _ h => ?_
  rcases h.plain rfl with ⟨x, rfl, hx⟩ | ⟨e, rfl, rfl, -⟩
  · exact fun f hf => by cases hf
  · have hnew := fun blob hblob => fresh.blobs blob hblob name
    have hunnamed := fun a ha => fresh.rows a ha name
    refine undo_traces (row (b.ids b.idsDrawn) (b.keys b.keysDrawn) name lessonId now) [_, _, _] rfl hunnamed hnew ?_
    exact List.mem_cons_of_mem _ (List.mem_cons_of_mem _ (List.mem_singleton_self _))

end Attachments

namespace Operation

theorem Outcome.store_of_error {m : Mishaps} {now : Timestamp} {id key : Uuid} {s t : Store} {op : Operation}
    {f : Failure} (h : op.Outcome m now id key s (.error f) t)
    (notReordering : ∀ chapterId ids, op ≠ .reorderLessons chapterId ids)
    (notUpload : ∀ lessonId rawName bytes, op ≠ .upload lessonId rawName bytes) : t = s := by
  cases h with
  | failed => rfl
  | reorderLessons => exact absurd rfl (notReordering _ _)
  | uploadUndone | uploadStranded => exact absurd rfl (notUpload _ _ _)

/-- An operation that fails leaves the store as it was, whichever of its calls went wrong, except for the blob of an
upload whose row was refused and whose removal failed as well. -/
theorem failure_changes_nothing (b : Backend) (now : Timestamp) (op : Operation) (f : Failure)
    (notReordering : ∀ chapterId ids, op ≠ .reorderLessons chapterId ids)
    (fresh : ∀ lessonId rawName bytes, op = .upload lessonId rawName bytes → b.NextKeyFresh)
    (failed : (b.run (op.program now)).1 = .error f) :
    (b.run (op.program now)).2.store = b.store ∨
      ∃ lessonId rawName bytes row g, op = .upload lessonId rawName bytes ∧
        Stranded b.store now bytes f (b.exchanges (op.program now)) (b.run (op.program now)).2.store row g := by
  by_cases hupload : ∃ lessonId rawName bytes, op = .upload lessonId rawName bytes
  · obtain ⟨lessonId, rawName, bytes, rfl⟩ := hupload
    rcases Attachments.upload_traces (fresh _ _ _ rfl) lessonId rawName bytes f failed with hkept | ⟨row, g, hstranded⟩
    · exact Or.inl hkept
    · exact Or.inr ⟨lessonId, rawName, bytes, row, g, rfl, hstranded⟩
  · have hwithin := (Backend.within_of_allows b.allows_anything (op.program now)).1
    have houtcome := program_ends op hwithin
    rw [failed] at houtcome
    exact Or.inl (houtcome.store_of_error notReordering fun _ _ _ h => hupload ⟨_, _, _, h⟩)

/-- A backend with one attachment, where the next row is refused and the next blob cannot be removed. -/
def sampleFaulty : Backend :=
  { History.sample.backend with
    plan := [⟨.addAttachment, 0, .refusal (.database "lost")⟩,
      ⟨.removeBlob, 0, .command ⟨some .delete, some .blobFiles, 6, false⟩⟩] }

abbrev sampleUpload : Operation := .upload (Uuid.numbered 2).text "notes.txt" [104, 105]

theorem sample_nextKeyFresh : sampleFaulty.NextKeyFresh := by
  have hdrawn : History.sample.backend.keysDrawn = 1 := by decide +kernel
  have fresh : History.sample.FreshKeys := by
    intro i j hi hj _
    omega
  have hshelved : History.sample.IsShelved := History.serveAll_shelved (Shelved.empty _) Store.intact_empty fresh
  have hnew := hshelved.nextKeyFresh fun i hi => by
    obtain rfl : i = 0 := by omega
    rw [hdrawn]
    decide +kernel
  exact ⟨hnew.rows, hnew.blobs⟩

theorem failure_changes_nothing_sample :
    ∃ row g, Stranded History.sample.store History.sampleTime [104, 105] (.database "lost")
      (sampleFaulty.exchanges (sampleUpload.program History.sampleTime))
      (sampleFaulty.run (sampleUpload.program History.sampleTime)).2.store row g := by
  have failed : (sampleFaulty.run (sampleUpload.program History.sampleTime)).1 = .error (.database "lost") := by
    decide +kernel
  have hchanged : (sampleFaulty.run (sampleUpload.program History.sampleTime)).2.store.blobs.length ≠
      sampleFaulty.store.blobs.length := by decide +kernel
  rcases failure_changes_nothing sampleFaulty History.sampleTime sampleUpload _ (by rintro _ _ ⟨⟩)
    (fun _ _ _ _ => sample_nextKeyFresh) failed with hkept | ⟨_, _, _, row, g, hupload, hstranded⟩
  · exact absurd (congrArg (fun s => s.blobs.length) hkept) hchanged
  · cases hupload
    exact ⟨row, g, hstranded⟩

end Operation

end Coursework
