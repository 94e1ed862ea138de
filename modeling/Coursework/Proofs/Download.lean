import Coursework.Proofs.History

/-!
# Downloads

A download is the one operation that decides about a user, so its failures are told apart: what refused it, and
whether the blob store had been asked by then.
-/
namespace Coursework

namespace Attachments

/-- What a download can come to, before and after the blob store is asked. -/
inductive Fetched (m : Mishaps) (s : Store) (user id : String) : Except Failure Download → Prop
  | hindered (f : Failure) (h : m.failure f) : Fetched m s user id (.error f)
  | unknown (missing : s.attachment? id = none) : Fetched m s user id (.error (Store.noAttachment id))
  | denied (row : Attachment) (found : s.attachment? id = some row) (h : s.hasGrant user row.lessonId = false) :
      Fetched m s user id (.error (noAccess id))
  | lost (row : Attachment) (found : s.attachment? id = some row) (admitted : s.hasGrant user row.lessonId = true)
      (missing : s.blob? row.storageKey = none) : Fetched m s user id (.error (Store.noBlob row.storageKey))
  | fetched (row : Attachment) (blob : Blob) (found : s.attachment? id = some row)
      (admitted : s.hasGrant user row.lessonId = true) (stored : s.blob? row.storageKey = some blob) :
      Fetched m s user id (.ok ⟨row.name, blob.bytes⟩)

/-- Whether a grant admits a user to an attachment. -/
def Admits (s : Store) (user id : String) : Prop :=
  ∃ row, s.attachment? id = some row ∧ s.hasGrant user row.lessonId = true

/-- Whether a download was refused for want of a grant. -/
def Denied (r : Except Failure Download) : Prop := ∃ f, r = .error f ∧ f.kind = .accessDenied

variable {m : Mishaps} {s : Store} {b : Backend} {user id : String} {r : Except Failure Download}

theorem lookUp_eq_error {α : Type} {found : Option α} {missing e : Failure}
    (h : (s.lookUp found missing).1 = .error e) : found = none ∧ e = missing := by
  cases found with
  | none => exact ⟨rfl, (Except.error.inj h).symm⟩
  | some x => cases h

/-- The blob store is asked only for a user who is admitted. -/
theorem download_fetched (user id : String) :
    b.Ends m (download user id) fun r b' =>
      Fetched m b.store user id r ∧ (¬ Admits b.store user id → b'.blobLog = b.blobLog) := by
  refine Backend.ends_read rfl (fun row _ _ hr => ?_) fun e _ _ he => ⟨?_, fun _ => List.append_nil _⟩
  · have found : b.store.attachment? id = some row := Store.lookUp_eq_ok.mp hr
    have silent : ∀ log : List BlobEvent, (log ++ []) ++ [] = log := fun log => by simp
    refine Backend.ends_read rfl (fun admitted _ _ ha => ?_) fun e _ _ he => ⟨?_, fun _ => silent _⟩
    · cases ha
      refine Backend.ends_require (fun hg => ?_) fun hg => ⟨.denied row found hg, fun _ => silent _⟩
      have admits : Admits b.store user id := ⟨row, found, hg⟩
      refine Backend.ends_read rfl (fun bytes _ _ hb => ?_) fun e _ _ he => ⟨?_, fun h => absurd admits h⟩
      · obtain ⟨blob, stored, rfl⟩ := Option.map_eq_some_iff.mp (Store.lookUp_eq_ok.mp hb)
        exact Backend.ends_done ⟨.fetched row blob found hg stored, fun h => absurd admits h⟩
      · rcases he with he | he
        · exact .hindered e he
        · obtain ⟨hnone, rfl⟩ := lookUp_eq_error he
          exact .lost row found hg (Option.map_eq_none_iff.mp hnone)
    · rcases he with he | he
      · exact .hindered e he
      · cases he
  · rcases he with he | he
    · exact .hindered e he
    · obtain ⟨hnone, rfl⟩ := lookUp_eq_error he
      exact .unknown hnone

theorem Fetched.admits {d : Download} (h : Fetched m s user id (.ok d)) : Admits s user id := by
  cases h with
  | fetched row blob found admitted _ => exact ⟨row, found, admitted⟩

/-- Where the row is known, a download is hindered, or decided by the grant. -/
theorem Fetched.of_found {row : Attachment} (h : Fetched m s user id r) (found : s.attachment? id = some row) :
    (∃ f, m.failure f ∧ r = .error f) ∨
      (s.hasGrant user row.lessonId = false ∧ r = .error (noAccess id)) ∨
      (s.hasGrant user row.lessonId = true ∧ s.blob? row.storageKey = none ∧
        r = .error (Store.noBlob row.storageKey)) ∨
      ∃ blob, s.hasGrant user row.lessonId = true ∧ s.blob? row.storageKey = some blob ∧
        r = .ok ⟨row.name, blob.bytes⟩ := by
  have same : ∀ row', s.attachment? id = some row' → row' = row := fun row' found' =>
    Option.some.inj (found'.symm.trans found)
  cases h with
  | hindered f hf => exact Or.inl ⟨f, hf, rfl⟩
  | unknown missing => rw [missing] at found; cases found
  | denied row' found' shut =>
    obtain rfl := same row' found'
    exact Or.inr (Or.inl ⟨shut, rfl⟩)
  | lost row' found' admitted missing =>
    obtain rfl := same row' found'
    exact Or.inr (Or.inr (Or.inl ⟨admitted, missing, rfl⟩))
  | fetched row' blob found' admitted stored =>
    obtain rfl := same row' found'
    exact Or.inr (Or.inr (Or.inr ⟨blob, admitted, stored, rfl⟩))

/-- When nothing fails, a user who is admitted gets the bytes of the blob. -/
theorem Fetched.eq_ok {row : Attachment} {blob : Blob} (h : Fetched .nothing s user id r)
    (found : s.attachment? id = some row) (admitted : s.hasGrant user row.lessonId = true)
    (stored : s.blob? row.storageKey = some blob) : r = .ok ⟨row.name, blob.bytes⟩ := by
  rcases h.of_found found with ⟨f, hf, -⟩ | ⟨shut, -⟩ | ⟨-, missing, -⟩ | ⟨blob', -, stored', rfl⟩
  · exact hf.elim
  · rw [shut] at admitted
    cases admitted
  · rw [missing] at stored
    cases stored
  · rw [Option.some.inj (stored'.symm.trans stored)]

theorem Fetched.eq_noAccess {row : Attachment} (h : Fetched .nothing s user id r)
    (found : s.attachment? id = some row) (shut : s.hasGrant user row.lessonId = false) :
    r = .error (noAccess id) := by
  rcases h.of_found found with ⟨f, hf, -⟩ | ⟨-, hr⟩ | ⟨admitted, -⟩ | ⟨_, admitted, -⟩
  · exact hf.elim
  · exact hr
  · rw [shut] at admitted
    cases admitted
  · rw [shut] at admitted
    cases admitted

/-- A user who is admitted is never told otherwise, unless a call fails in just this way. -/
theorem Fetched.not_denied {row : Attachment} (h : Fetched m s user id r) (found : s.attachment? id = some row)
    (admitted : s.hasGrant user row.lessonId = true) (hm : ∀ f, m.failure f → f.kind ≠ .accessDenied) :
    ¬ Denied r := by
  rintro ⟨f, hf, hkind⟩
  rcases h.of_found found with ⟨g, hg, rfl⟩ | ⟨shut, -⟩ | ⟨-, -, rfl⟩ | ⟨_, -, -, rfl⟩
  · exact hm f (Except.error.inj hf ▸ hg) hkind
  · rw [shut] at admitted
    cases admitted
  · rw [← Except.error.inj hf] at hkind
    cases hkind
  · cases hf

end Attachments

end Coursework
