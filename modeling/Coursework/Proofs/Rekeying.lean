import Coursework.Proofs.Files
import Mathlib.GroupTheory.GroupAction.MultipleTransitivity

/-!
# Other storage keys

Two backends may draw different identifiers for their storage keys and be the same otherwise.  A renaming of keys then
takes the rows, the blobs and the log of the one to those of the other, and every call that is asked of the one about
a key, and of the other about its new name, is answered alike.
-/
namespace Coursework

/-- Clients are told the same of two failures. -/
def Failure.Alike (e f : Failure) : Prop := e.kind = f.kind ∧ e.publicMessage = f.publicMessage

theorem Failure.Alike.refl (e : Failure) : e.Alike e := ⟨rfl, rfl⟩

/-- Two outcomes fail alike, or have values of which a relation holds. -/
inductive Told {α β : Type} (R : α → β → Prop) : Except Failure α → Except Failure β → Prop
  | ok {x : α} {y : β} (h : R x y) : Told R (.ok x) (.ok y)
  | error {e f : Failure} (h : e.Alike f) : Told R (.error e) (.error f)

theorem Told.refl {α : Type} (r : Except Failure α) : Told Eq r r := by
  cases r with
  | ok x => exact .ok rfl
  | error e => exact .error (.refl e)

theorem Told.imp {α β : Type} {V W : α → β → Prop} {r : Except Failure α} {r' : Except Failure β} (h : Told V r r')
    (weaker : ∀ x y, V x y → W x y) : Told W r r' := by
  cases h with
  | ok h => exact .ok (weaker _ _ h)
  | error he => exact .error he

/-- Related outcomes, and states of which the second is the image of the first. -/
structure Mirrored {α β σ : Type} (g : σ → σ) (R : Except Failure α → Except Failure β → Prop)
    (x : Except Failure α × σ) (y : Except Failure β × σ) : Prop where
  outcome : R x.1 y.1
  state : y.2 = g x.2

theorem Mirrored.of_eq {α σ : Type} {g : σ → σ} {x y : Except Failure α × σ} (h : y = Prod.map id g x) :
    Mirrored g Eq x y := by
  subst h
  exact ⟨rfl, rfl⟩

namespace Table

variable {α β : Type} {g : α → β}

theorem add?_map (clash : β → β → Bool) (row : α) (rows : List α) :
    add? clash (g row) (rows.map g) = (add? (fun x y => clash (g x) (g y)) row rows).map (List.map g) := by
  simp only [add?, List.any_map, Function.comp_def]
  split
  · rfl
  · simp

theorem remove?_map (p : β → Bool) (rows : List α) :
    remove? p (rows.map g) = (remove? (p ∘ g) rows).map (List.map g) := by
  induction rows with
  | nil => rfl
  | cons x xs ih =>
    simp only [List.map_cons, remove?, Function.comp_apply]
    split
    · rfl
    · rw [ih, Option.map_map, Option.map_map]
      rfl

theorem sorted_map (le : β → β → Bool) (rows : List α) :
    sorted le (rows.map g) = (sorted (fun x y => le (g x) (g y)) rows).map g :=
  (List.map_mergeSort (f := g) fun _ _ _ _ => rfl).symm

end Table

/-- Calls in which, and in whose answers, no storage key occurs. -/
def Call.isKeyless : Call → Bool
  | addAttachment _ | findAttachment _ | attachmentsOf _ | putBlob _ _ _ | getBlob _ | removeBlob _ => false
  | _ => true

/-- The first `n` identifiers of a stream are all different; there are too few identifiers for all of them to be. -/
def Uuid.Apart (keys : Nat → Uuid) (n : Nat) : Prop := ∀ i j, i < n → j < n → keys i = keys j → i = j

/-- A renaming of storage keys that takes those of the first `n` identifiers of one stream to those of another. -/
structure Rekeying (keys keys' : Nat → Uuid) (n : Nat) where
  rename : String → String
  injective : Function.Injective rename
  drawn : ∀ i < n, ∀ name,
    rename (Attachments.storageKey (keys i) name) = Attachments.storageKey (keys' i) name

namespace Rekeying

/-- Exchanges what a key begins with. -/
def exchange (swap : List Char → List Char) (key : String) : String :=
  String.ofList (swap (key.toList.take 36) ++ key.toList.drop 36)

theorem exchange_injective {swap : List Char → List Char} (hs : Function.Injective swap)
    (hl : ∀ cs, (swap cs).length = cs.length) : Function.Injective (exchange swap) := by
  intro a b h
  have hchars : swap (a.toList.take 36) ++ a.toList.drop 36 = swap (b.toList.take 36) ++ b.toList.drop 36 := by
    simpa [exchange, String.toList_ofList] using congrArg String.toList h
  have hlength : a.toList.length = b.toList.length := by
    have htotal := congrArg List.length hchars
    simp only [List.length_append, hl, List.length_take, List.length_drop] at htotal
    omega
  obtain ⟨hhead, htail⟩ := List.append_inj hchars (by simp [hl, hlength])
  have hsame : a.toList = b.toList := by
    rw [← List.take_append_drop 36 a.toList, ← List.take_append_drop 36 b.toList, hs hhead, htail]
  exact String.toList_inj.mp hsame

/-- Permuted identifiers permute the texts of the same length. -/
theorem exists_swap (σ : Equiv.Perm Uuid) :
    ∃ swap : List Char → List Char, Function.Injective swap ∧ (∀ cs, (swap cs).length = cs.length) ∧
      ∀ u : Uuid, swap u.chars = (σ u).chars := by
  classical
  let written := Equiv.ofInjective Uuid.chars Uuid.chars_injective
  have himage : ∀ u : Uuid, σ.extendDomain written u.chars = (σ u).chars := σ.extendDomain_apply_image written
  refine ⟨σ.extendDomain written, (σ.extendDomain written).injective, fun cs => ?_, himage⟩
  by_cases hcs : cs ∈ Set.range Uuid.chars
  · obtain ⟨u, rfl⟩ := hcs
    rw [himage, Uuid.length_chars, Uuid.length_chars]
  · rw [σ.extendDomain_apply_not_subtype written hcs]

/-- Identifiers that do not repeat can be renamed to any others that do not repeat. -/
theorem exists_rekeying {keys keys' : Nat → Uuid} {n : Nat} (h : Uuid.Apart keys n) (h' : Uuid.Apart keys' n) :
    Nonempty (Rekeying keys keys' n) := by
  have hinjective : Function.Injective fun i : Fin n => keys i := fun i j he => Fin.ext (h i j i.2 j.2 he)
  have hinjective' : Function.Injective fun i : Fin n => keys' i := fun i j he => Fin.ext (h' i j i.2 j.2 he)
  obtain ⟨σ, hσ⟩ := Equiv.Perm.exists_extending_pair _ _ hinjective hinjective'
  obtain ⟨swap, hs, hl, hswap⟩ := exists_swap σ
  refine ⟨⟨exchange swap, exchange_injective hs hl, fun i hi name => ?_⟩⟩
  have hkey : σ (keys i) = keys' i := hσ ⟨i, hi⟩
  have htake : ((keys i).chars ++ (FileName.keySuffix name).toList).take 36 = (keys i).chars := by
    rw [← Uuid.length_chars (keys i), List.take_left]
  have hdrop : ((keys i).chars ++ (FileName.keySuffix name).toList).drop 36 = (FileName.keySuffix name).toList := by
    rw [← Uuid.length_chars (keys i), List.drop_left]
  rw [← String.toList_inj]
  simp only [exchange, Attachments.storageKey, Uuid.text, String.toList_append, String.toList_ofList, htake, hdrop,
    hswap, hkey]

variable {keys keys' : Nat → Uuid} {n : Nat} (ρ : Rekeying keys keys' n)

def row (a : Attachment) : Attachment := { a with storageKey := ρ.rename a.storageKey }

def blob (b : Blob) : Blob := { b with key := ρ.rename b.key }

def store (s : Store) : Store := { s with attachments := s.attachments.map ρ.row, blobs := s.blobs.map ρ.blob }

theorem blob_key_beq (key : String) :
    (fun b : Blob => decide (b.key = ρ.rename key)) ∘ ρ.blob = fun b => decide (b.key = key) := by
  funext b
  simp [blob, ρ.injective.eq_iff]

theorem latest_map (bs : List Blob) : Store.latest (bs.map ρ.blob) = (Store.latest bs).map ρ.blob := by
  induction bs with
  | nil => rfl
  | cons b bs ih =>
    simp only [List.map_cons, Store.latest, ih]
    cases Store.latest bs with
    | none => rfl
    | some c => exact (apply_ite (Option.map ρ.blob) (b.storedAt.lt c.storedAt = true) (some c) (some b)).symm

theorem store_blob? (s : Store) (key : String) : (ρ.store s).blob? (ρ.rename key) = (s.blob? key).map ρ.blob := by
  simp only [Store.blob?, store, List.filter_map, blob_key_beq, latest_map]

theorem store_attachment? (s : Store) (id : String) : (ρ.store s).attachment? id = (s.attachment? id).map ρ.row := by
  simp only [Store.attachment?, store, List.find?_map]
  rfl

theorem store_attachmentsOf (s : Store) (lessonId : String) :
    (ρ.store s).attachmentsOf lessonId = (s.attachmentsOf lessonId).map ρ.row := by
  simp only [Store.attachmentsOf, store, List.filter_map, Table.sorted_map]
  rfl

/-- Rows clash under their new keys exactly when they did under the old ones. -/
theorem store_addAttachment? (s : Store) (a : Attachment) :
    (ρ.store s).addAttachment? (ρ.row a) = (s.addAttachment? a).map ρ.store := by
  simp only [Store.addAttachment?, store, Table.add?_map, Option.map_map]
  simp only [row, ρ.injective.eq_iff]
  rfl

theorem store_removeAttachment? (s : Store) (id : String) :
    (ρ.store s).removeAttachment? id = (s.removeAttachment? id).map ρ.store := by
  simp only [Store.removeAttachment?, store, Table.remove?_map, Option.map_map]
  rfl

theorem store_removeBlob? (s : Store) (key : String) :
    (ρ.store s).removeBlob? (ρ.rename key) = (s.removeBlob? key).map ρ.store := by
  simp only [Store.removeBlob?, store, Table.remove?_map, blob_key_beq, Option.map_map]
  rfl

/-- Calls about a key, or about rows that have one, and the same calls about its new name, each with what relates
their answers; other calls are their own counterparts, and answered the same. -/
inductive TwinCalls : (c c' : Call) → (Except Failure c.Answer → Except Failure c'.Answer → Prop) → Prop
  | keyless (c : Call) (h : c.isKeyless = true) : TwinCalls c c Eq
  | addAttachment (a : Attachment) :
      TwinCalls (.addAttachment a) (.addAttachment (ρ.row a)) (Told fun x y => y = ρ.row x)
  | findAttachment (id : String) : TwinCalls (.findAttachment id) (.findAttachment id) (Told fun x y => y = ρ.row x)
  | attachmentsOf (lessonId : String) :
      TwinCalls (.attachmentsOf lessonId) (.attachmentsOf lessonId) (Told fun xs ys => ys = List.map ρ.row xs)
  | putBlob (key : String) (bytes : Bytes) (now : Timestamp) :
      TwinCalls (.putBlob key bytes now) (.putBlob (ρ.rename key) bytes now) (Told Eq)
  | getBlob (key : String) : TwinCalls (.getBlob key) (.getBlob (ρ.rename key)) (Told Eq)
  | removeBlob (key : String) : TwinCalls (.removeBlob key) (.removeBlob (ρ.rename key)) (Told Eq)

variable {α β : Type} {c c' : Call} {R : Except Failure c.Answer → Except Failure c'.Answer → Prop}

theorem store_lookUp (s : Store) (found : Option α) (missing : Failure) :
    (ρ.store s).lookUp found missing = Prod.map id ρ.store (s.lookUp found missing) := by
  cases found <;> rfl

theorem store_change (s : Store) {changed changed' : Option (α × Store)} (refused : Failure)
    (h : changed' = changed.map (Prod.map id ρ.store)) :
    (ρ.store s).change changed' refused = Prod.map id ρ.store (s.change changed refused) := by
  subst h
  cases changed <;> rfl

theorem store_addGrant? (s : Store) (g : Grant) : (ρ.store s).addGrant? g = (s.addGrant? g).map ρ.store := by
  simp only [Store.addGrant?, Option.map_map]
  rfl

theorem apply_keyless (h : c.isKeyless = true) (s : Store) :
    (ρ.store s).apply c = Prod.map id ρ.store (s.apply c) := by
  cases c with
  | findCourse id => exact ρ.store_lookUp s (s.course? id) _
  | findChapter id => exact ρ.store_lookUp s (s.chapter? id) _
  | findLesson id => exact ρ.store_lookUp s (s.lesson? id) _
  | addCourse _ | replaceCourse _ | removeCourse _ | addChapter _ | orderChapter _ _ _ | removeChapter _
  | addLesson _ | fillLesson _ _ _ | orderLesson _ _ _ | removeLesson _ =>
    refine ρ.store_change s _ ?_
    simp only [Store.addCourse?, Store.replaceCourse?, Store.removeCourse?, Store.addChapter?, Store.orderChapter?,
      Store.removeChapter?, Store.addLesson?, Store.fillLesson?, Store.orderLesson?, Store.removeLesson?,
      Option.map_map]
    rfl
  | removeAttachment id =>
    refine ρ.store_change s _ ?_
    rw [store_removeAttachment?, Option.map_map, Option.map_map]
    rfl
  | countAttachments id =>
    simp only [Store.apply, store, List.countP_map]
    rfl
  | addGrant g =>
    simp only [Store.apply, store_addGrant?]
    cases s.addGrant? g <;> rfl
  | addAttachment _ | findAttachment _ | attachmentsOf _ | putBlob _ _ _ | getBlob _ | removeBlob _ => cases h
  | _ => rfl

/-- Twin calls have the same effect under renaming. -/
theorem apply_twin (h : ρ.TwinCalls c c' R) (s : Store) :
    Mirrored ρ.store R (s.apply c) ((ρ.store s).apply c') := by
  cases h with
  | keyless c h => exact .of_eq (ρ.apply_keyless h s)
  | addAttachment a =>
    simp only [Store.apply, store_addAttachment?]
    cases s.addAttachment? a with
    | none => exact ⟨.error (.refl _), rfl⟩
    | some t => exact ⟨.ok rfl, rfl⟩
  | findAttachment id =>
    simp only [Store.apply, store_attachment?]
    cases s.attachment? id with
    | none => exact ⟨.error (.refl _), rfl⟩
    | some a => exact ⟨.ok rfl, rfl⟩
  | attachmentsOf lessonId => exact ⟨.ok (ρ.store_attachmentsOf s lessonId), rfl⟩
  | putBlob key bytes now =>
    refine ⟨.ok rfl, ?_⟩
    simp only [Store.apply, Store.putBlob, store, List.map_append]
    rfl
  | getBlob key =>
    simp only [Store.apply, store_blob?]
    cases s.blob? key with
    | none => exact ⟨.error ⟨rfl, rfl⟩, rfl⟩
    | some b => exact ⟨.ok rfl, rfl⟩
  | removeBlob key =>
    simp only [Store.apply, store_removeBlob?]
    cases s.removeBlob? key with
    | none => exact ⟨.ok rfl, rfl⟩
    | some t => exact ⟨.ok rfl, rfl⟩

def event : BlobEvent → BlobEvent
  | .put key size => .put (ρ.rename key) size
  | .get key => .get (ρ.rename key)
  | .remove key => .remove (ρ.rename key)

/-- A backend with its keys renamed, those it has yet to draw included. -/
def backend (b : Backend) : Backend :=
  { b with store := ρ.store b.store, keys := keys', blobLog := b.blobLog.map ρ.event }

theorem twin_error (h : ρ.TwinCalls c c' R) (e : Failure) : R (.error e) (.error e) := by
  cases h with
  | keyless => rfl
  | _ => exact .error (.refl e)

theorem site?_twin (h : ρ.TwinCalls c c' R) : c'.site? = c.site? := by
  cases h <;> rfl

theorem event?_twin (h : ρ.TwinCalls c c' R) : Backend.event? c' = (Backend.event? c).map ρ.event := by
  cases h with
  | keyless c h => cases c <;> first | rfl | cases h
  | _ => rfl

theorem commit_twin (h : ρ.TwinCalls c c' R) (b : Backend) :
    Mirrored ρ.backend R (b.commit c) ((ρ.backend b).commit c') := by
  obtain ⟨told, state⟩ := ρ.apply_twin h b.store
  exact ⟨told, congrArg (fun s => { ρ.backend b with store := s }) state⟩

section

variable {S : Except Failure α → Except Failure β → Prop} {failed : DatabaseError → Except Failure α}
  {failed' : DatabaseError → Except Failure β} {next : Backend → Except Failure α × Backend}
  {next' : Backend → Except Failure β × Backend}

/-- Which commands fail is planned without regard to keys. -/
theorem after_twin {command : Command} (hfailed : ∀ e, S (failed e) (failed' e))
    (hnext : ∀ b, Mirrored ρ.backend S (next b) (next' (ρ.backend b))) (b : Backend) :
    Mirrored ρ.backend S (b.after command failed next) ((ρ.backend b).after command failed' next') := by
  simp only [Backend.after, Backend.issue, backend]
  cases CommandFault.take? command b.armed with
  | none => exact hnext b
  | some taken => exact ⟨hfailed taken.1, rfl⟩

theorem afterChunks_twin {verb : Verb} {bytes : Bytes} (hfailed : ∀ e, S (failed e) (failed' e))
    (hnext : ∀ b, Mirrored ρ.backend S (next b) (next' (ρ.backend b))) (b : Backend) :
    Mirrored ρ.backend S (b.afterChunks verb bytes failed next)
      ((ρ.backend b).afterChunks verb bytes failed' next') := by
  unfold Backend.afterChunks
  split
  · exact hnext b
  · exact ρ.after_twin hfailed hnext b

end

/-- The texts of failures of the blob store name the key, and are kept from clients. -/
theorem blobFailed_told {R : α → β → Prop} (key key' : String) :
    Told R (.error (Backend.blobFailed key)) (.error (Backend.blobFailed key')) := .error ⟨rfl, rfl⟩

theorem execute_twin (h : ρ.TwinCalls c c' R) (b : Backend) :
    Mirrored ρ.backend R (b.execute c) ((ρ.backend b).execute c') := by
  have plain : ∀ {c c' : Call} {R : Except Failure c.Answer → Except Failure c'.Answer → Prop} {command : Command},
      ρ.TwinCalls c c' R →
      Mirrored ρ.backend R (b.after command (fun e => .error e.failure) fun b => b.commit c)
        ((ρ.backend b).after command (fun e => .error e.failure) fun b => b.commit c') :=
    fun h => ρ.after_twin (fun _ => ρ.twin_error h _) (ρ.commit_twin h) b
  cases h with
  | keyless c h =>
    cases c with
    | seekGrant user lesson => exact ρ.after_twin (fun _ => rfl) (ρ.commit_twin (.keyless _ h)) b
    | addGrant g => exact ρ.commit_twin (.keyless _ h) b
    | putBlob _ _ _ | getBlob _ | removeBlob _ => cases h
    | _ => exact plain (.keyless _ h)
  | addAttachment a => exact plain (.addAttachment a)
  | findAttachment id => exact plain (.findAttachment id)
  | attachmentsOf lessonId => exact plain (.attachmentsOf lessonId)
  | putBlob key bytes now =>
    refine ρ.afterChunks_twin (fun _ => blobFailed_told _ _) (fun b => ?_) b
    exact ρ.after_twin (fun _ => blobFailed_told _ _) (ρ.commit_twin (.putBlob key bytes now)) b
  | getBlob key =>
    refine ρ.after_twin (fun _ => blobFailed_told _ _) (fun b => ?_) b
    have hblob : (ρ.backend b).store.blob? (ρ.rename key) = (b.store.blob? key).map ρ.blob := ρ.store_blob? b.store key
    rw [hblob]
    cases b.store.blob? key with
    | none => exact ⟨.error ⟨rfl, rfl⟩, rfl⟩
    | some blob => exact ρ.afterChunks_twin (fun _ => blobFailed_told _ _) (ρ.commit_twin (.getBlob key)) b
  | removeBlob key =>
    refine ρ.after_twin (fun _ => blobFailed_told _ _) (fun b => ?_) b
    have hblob : (ρ.backend b).store.blob? (ρ.rename key) = (b.store.blob? key).map ρ.blob := ρ.store_blob? b.store key
    rw [hblob, Option.isNone_map]
    split
    · exact ⟨.ok rfl, rfl⟩
    · refine ρ.after_twin (fun _ => blobFailed_told _ _) (fun b => ?_) b
      obtain ⟨told, state⟩ := ρ.commit_twin (.removeBlob key) b
      simp only [state]
      exact ρ.after_twin (fun _ => blobFailed_told _ _) (fun b => ⟨told, rfl⟩) _

theorem strike_twin (h : ρ.TwinCalls c c' R) (b : Backend) :
    (ρ.backend b).strike c' = Prod.map id ρ.backend (b.strike c) := by
  unfold Backend.strike
  rw [ρ.site?_twin h]
  cases c.site? with
  | none => rfl
  | some site =>
    have hlog : (ρ.backend b).blobLog ++ (Backend.event? c').toList =
        (b.blobLog ++ (Backend.event? c).toList).map ρ.event := by
      rw [ρ.event?_twin h, List.map_append]
      cases Backend.event? c <;> rfl
    have hplan : (ρ.backend b).plan = b.plan := rfl
    simp only [hlog, hplan]
    cases FaultEffect.refusal? (PlannedFault.strike site b.plan).1 <;> rfl

/-- Twin calls are answered alike, whatever fails. -/
theorem perform_twin (h : ρ.TwinCalls c c' R) (b : Backend) :
    Mirrored ρ.backend R (b.perform c) ((ρ.backend b).perform c') := by
  unfold Backend.perform
  rw [ρ.strike_twin h]
  rcases b.strike c with ⟨_ | f, b⟩
  · exact ρ.execute_twin h b
  · exact ⟨ρ.twin_error h f, rfl⟩

end Rekeying

end Coursework
