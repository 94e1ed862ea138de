import Coursework.Proofs.Admission
import Coursework.Proofs.Files
import Coursework.Proofs.Roles
import Mathlib.Data.List.DropRight

/-!
# Well-formed rows

The store takes any row; that the rows in it are of the form which clients can rely on is due to whoever writes them.
Names and descriptions are checked before every write that sets them, file names and storage keys are made so that
they fit, and what users and uploads are called and how long they are is checked while a request is read.
-/
namespace Coursework

namespace Validation

theorem check_eq_ok {texts : List CheckedText} :
    check texts = .ok () ↔ ∀ t ∈ texts, t.rule.admits t.value = true := by
  have hsorted := List.mergeSort_perm (complaints texts) fun a b => decide (a ≤ b)
  have hnone : complaints texts = [] ↔ ∀ t ∈ texts, t.rule.admits t.value = true := by
    simp [complaints]
  rw [← hnone]
  unfold check
  split
  · rename_i h
    rw [h] at hsorted
    simpa using List.nil_perm.mp hsorted
  · rename_i h
    simp only [reduceCtorEq, false_iff]
    exact fun hempty => h (List.perm_nil.mp (hempty ▸ hsorted))

end Validation

/-- A name and a description as long as they may be. -/
def Described (name description : String) : Prop := 1 ≤ name.length ∧ name.length ≤ 255 ∧ description.length ≤ 10000

theorem Described.of_check {name description : String}
    (h : Validation.check [⟨"name", .name, name⟩, ⟨"description", .description, description⟩] = .ok ()) :
    Described name description := by
  have hall := Validation.check_eq_ok.mp h
  simpa [LengthRule.admits, LengthRule.name, LengthRule.description, LengthRule.between, LengthRule.atMost,
    Described, and_assoc] using hall

namespace Text

/-- A text without blanks at its ends. -/
def IsTrimmed (s : String) : Prop :=
  (∀ c, s.toList.head? = some c → isBlank c = false) ∧ ∀ c, s.toList.getLast? = some c → isBlank c = false

theorem head?_trim {cs : List Char} {c : Char} (h : (trim cs).head? = some c) : isBlank c = false := by
  obtain ⟨rest, hrest⟩ : trim cs <+: trimStart cs := List.rdropWhile_prefix isBlank _
  have hfirst : (trimStart cs).head? = some c := by rw [← hrest, List.head?_append, h, Option.some_or]
  have hnot := List.head?_dropWhile_not isBlank cs
  rw [← trimStart, hfirst] at hnot
  exact hnot

theorem getLast?_trim {cs : List Char} {c : Char} (h : (trim cs).getLast? = some c) : isBlank c = false := by
  rw [trim, trimEnd, List.getLast?_reverse] at h
  have hnot := List.head?_dropWhile_not isBlank (trimStart cs).reverse
  rw [h] at hnot
  exact hnot

theorem isTrimmed_trim (cs : List Char) : IsTrimmed (String.ofList (trim cs)) := by
  simp only [IsTrimmed, String.toList_ofList]
  exact ⟨fun _ => head?_trim, fun _ => getLast?_trim⟩

theorem trim_sublist (cs : List Char) : (trim cs).Sublist cs :=
  (List.rdropWhile_prefix isBlank _).sublist.trans (List.dropWhile_sublist _)

theorem length_trimmed_le (s : String) : (trimmed s).length ≤ s.length := by
  have h := (trim_sublist s.toList).length_le
  rwa [← String.length_toList, ← String.length_toList, trimmed, String.toList_ofList]

end Text

namespace FileName

/-- A name that is nothing but a name: of no directory, and without blanks at its ends. -/
structure IsClean (name : String) : Prop where
  nonempty : name ≠ ""
  notHere : name ≠ "."
  notAbove : name ≠ ".."
  noSlash : '/' ∉ name.toList
  noBackslash : '\\' ∉ name.toList
  trimmed : Text.IsTrimmed name

theorem isSeparator_of_mem_lastComponent {cs : List Char} {c : Char} (h : c ∈ lastComponent cs) :
    isSeparator c = false := by
  have hplain := List.mem_takeWhile_imp (List.mem_reverse.mp h)
  simpa using hplain

theorem isClean_of_sanitize {raw name : String} (h : sanitize raw = .ok name) : IsClean name := by
  simp only [sanitize] at h
  split at h
  · cases h
  · rename_i hnotVoid
    cases h
    have hplain : ∀ c ∈ Text.trim (lastComponent raw.toList), isSeparator c = false := fun c hc =>
      isSeparator_of_mem_lastComponent ((Text.trim_sublist _).subset hc)
    simp only [isVoid, Bool.or_eq_true, decide_eq_true_eq, not_or] at hnotVoid
    obtain ⟨⟨hnonempty, hhere⟩, habove⟩ := hnotVoid
    refine ⟨?_, ?_, ?_, ?_, ?_, Text.isTrimmed_trim _⟩
    · exact fun he => hnonempty (by simpa using congrArg String.toList he)
    · exact fun he => hhere (by simpa using congrArg String.toList he)
    · exact fun he => habove (by simpa using congrArg String.toList he)
    · rw [String.toList_ofList]
      exact fun hmem => absurd (hplain _ hmem) (by decide)
    · rw [String.toList_ofList]
      exact fun hmem => absurd (hplain _ hmem) (by decide)

end FileName

namespace Attachments

/-- A key that is an identifier, and may go on with a plain extension. -/
def IsStorageKey (key : String) : Prop :=
  ∃ u : Uuid, u.text.length = 36 ∧
    (key = u.text ∨ ∃ ext : String, ext ≠ "" ∧ ext.toList.all Char.isAlphanum = true ∧ key = u.text ++ "." ++ ext)

theorem isStorageKey_storageKey (u : Uuid) (name : String) : IsStorageKey (storageKey u name) := by
  have hlength : u.text.length = 36 := by
    rw [Uuid.text, ← String.length_toList, String.toList_ofList, Uuid.length_chars]
  refine ⟨u, hlength, ?_⟩
  simp only [storageKey, FileName.keySuffix]
  split
  · split
    · rename_i hplain
      obtain ⟨-, hnonempty, hall⟩ := hplain
      refine Or.inr ⟨String.ofList (name.toList.reverse.takeWhile (· ≠ '.')).reverse, ?_, ?_, ?_⟩
      · exact fun he => hnonempty (by simpa using congrArg String.toList he)
      · rw [String.toList_ofList, List.all_reverse]
        exact hall
      · rw [← String.toList_inj]
        simp
    · exact Or.inl (String.append_empty ..)
  · exact Or.inl (String.append_empty ..)

end Attachments

/-- Those to whom access is granted have a name, without blanks at its ends and no longer than users may have. -/
structure Grant.IsClean (g : Grant) : Prop where
  nonempty : g.userId ≠ ""
  trimmed : Text.IsTrimmed g.userId
  short : g.userId.length ≤ 255

namespace Operation

/-- What an operation brings is no longer than it may be, where nobody looks at it again. -/
def Fits (limit : Nat) : Operation → Prop
  | upload _ _ bytes => bytes.length ≤ limit
  | grant rawUser _ => rawUser.length ≤ 255
  | _ => True

end Operation

namespace Store

/-- Everything in the store has the form that clients can rely on, and no blob is longer than an upload may be. -/
structure WellFormed (limit : Nat) (s : Store) : Prop where
  courses : ∀ c ∈ s.courses, Described c.name c.description
  chapters : ∀ c ∈ s.chapters, Described c.name c.description
  lessons : ∀ l ∈ s.lessons, Described l.name l.description
  fileNames : ∀ a ∈ s.attachments, FileName.IsClean a.name
  storageKeys : ∀ a ∈ s.attachments, Attachments.IsStorageKey a.storageKey
  grants : ∀ g ∈ s.grants, g.IsClean
  blobs : ∀ b ∈ s.blobs, b.bytes.length ≤ limit

theorem wellFormed_empty (limit : Nat) : WellFormed limit .empty := by
  constructor <;> exact List.forall_mem_nil _

section Rows

variable {α β : Type} {rows rows' : List α} {P : α → Prop} {Q : β → Prop}

theorem forall_mem_append_singleton {x : α} (h : ∀ y ∈ rows, P y) (hx : P x) : ∀ y ∈ rows ++ [x], P y :=
  List.forall_mem_append.mpr ⟨h, List.forall_mem_singleton.mpr hx⟩

/-- What is true of the part of the rows that a change leaves alone stays true. -/
theorem forall_mem_of_map_eq {g : α → β} (h : ∀ x ∈ rows, Q (g x)) (same : rows'.map g = rows.map g) :
    ∀ x ∈ rows', Q (g x) := by
  rw [← List.forall_mem_map] at h ⊢
  rwa [same]

theorem forall_mem_modify? {p : α → Bool} {f : α → α} {y : α} (h : ∀ x ∈ rows, P x)
    (changed : Table.modify? p f rows = some (y, rows')) (hf : ∀ x ∈ rows, P (f x)) : ∀ x ∈ rows', P x := by
  intro x hx
  rcases Table.mem_modify? changed hx with hx | ⟨rfl, z, hz, -, rfl⟩
  · exact h x hx
  · exact hf z hz

theorem forall_mem_remove? {p : α → Bool} (h : ∀ x ∈ rows, P x) (removed : Table.remove? p rows = some rows') :
    ∀ x ∈ rows', P x := fun x hx => h x ((Table.remove?_sublist removed).subset hx)

end Rows

variable {limit : Nat} {m : Mishaps} {now : Timestamp} {id key : Uuid} {s t : Store}

theorem WellFormed.outcome {op : Operation} {r : Except Failure op.Result} (hs : s.WellFormed limit)
    (fits : op.Fits limit) (h : op.Outcome m now id key s r t) : t.WellFormed limit := by
  cases h with
  | createCourse valid _ =>
    exact { hs with courses := forall_mem_append_singleton hs.courses (.of_check valid) }
  | updateCourse valid _ _ replaced =>
    exact { hs with courses := forall_mem_modify? hs.courses replaced fun _ _ => .of_check valid }
  | deleteCourse _ removed => exact { hs with courses := forall_mem_remove? hs.courses removed }
  | addChapter valid _ _ =>
    exact { hs with chapters := forall_mem_append_singleton hs.chapters (.of_check valid) }
  | setChapterOrder changed => exact { hs with chapters := forall_mem_modify? hs.chapters changed hs.chapters }
  | deleteChapter _ removed => exact { hs with chapters := forall_mem_remove? hs.chapters removed }
  | addLesson valid _ _ => exact { hs with lessons := forall_mem_append_singleton hs.lessons (.of_check valid) }
  | setLessonContent changed => exact { hs with lessons := forall_mem_modify? hs.lessons changed hs.lessons }
  | reorderLessons n r _ =>
    refine { hs with
      lessons := forall_mem_of_map_eq (g := fun l : Lesson => (l.name, l.description)) (Q := fun d => Described d.1 d.2)
        hs.lessons ?_ }
    exact Lessons.map_assignAll (fun _ _ => rfl) ..
  | deleteLesson _ removed => exact { hs with lessons := forall_mem_remove? hs.lessons removed }
  | upload _ named _ =>
    exact { hs with
      fileNames := forall_mem_append_singleton hs.fileNames (FileName.isClean_of_sanitize named)
      storageKeys := forall_mem_append_singleton hs.storageKeys (Attachments.isStorageKey_storageKey key _)
      blobs := forall_mem_append_singleton hs.blobs fits }
  | uploadUndone _ removed =>
    refine { hs with blobs := forall_mem_remove? ?_ removed }
    exact forall_mem_append_singleton hs.blobs fits
  | uploadStranded _ _ _ =>
    refine { hs with blobs := ?_ }
    exact forall_mem_append_singleton hs.blobs fits
  | deleteAttachment _ removed cleared =>
    refine { hs with
      fileNames := forall_mem_remove? hs.fileNames removed
      storageKeys := forall_mem_remove? hs.storageKeys removed
      blobs := ?_ }
    rcases cleared with hcleared | ⟨rfl, -⟩
    · exact forall_mem_remove? hs.blobs hcleared
    · exact hs.blobs
  | granted known _ _ =>
    refine { hs with grants := forall_mem_append_singleton hs.grants ⟨known, Text.isTrimmed_trim _, ?_⟩ }
    exact (Text.length_trimmed_le _).trans fits
  | _ => exact hs

end Store

namespace Upload

/-- What was taken and what may still be taken are together within the limit. -/
def Draft.Fits (limit : Nat) (d : Draft) : Prop := d.budget + (d.file.elim 0 fun f => f.2.length) ≤ limit

variable {limit : Nat} {d d' : Draft} {p : Multipart.Part}

theorem Draft.spend_eq_ok (h : d.spend p = .ok d') :
    p.content.length ≤ d.budget ∧ d' = { d with budget := d.budget - p.content.length } := by
  unfold spend at h
  split at h
  · cases h
  · split at h
    · cases h
      exact ⟨by omega, rfl⟩
    · cases h

theorem Draft.takeLesson_fits (hd : d.Fits limit) (h : d.takeLesson p = .ok d') : d'.Fits limit := by
  unfold takeLesson at h
  obtain ⟨-, h⟩ := refuse_eq_ok.mp h
  obtain ⟨d₁, hspend, hread⟩ := bind_eq_ok.mp h
  obtain ⟨-, rfl⟩ := spend_eq_ok hspend
  split at hread
  · cases hread
    simp only [Fits] at hd ⊢
    omega
  · cases hread

theorem Draft.takeFile_fits (hd : d.Fits limit) (first : d.file = none) (h : d.takeFile p = .ok d') :
    d'.Fits limit := by
  obtain ⟨d₁, hspend, hd'⟩ := bind_eq_ok.mp h
  obtain ⟨hle, rfl⟩ := spend_eq_ok hspend
  cases hd'
  simp only [Fits, first, Option.elim] at hd ⊢
  omega

theorem Draft.take_fits (hd : d.Fits limit) (h : d.take p = .ok d') : d'.Fits limit := by
  unfold take at h
  split at h
  · exact takeLesson_fits hd h
  · split at h
    · rename_i hfile
      exact takeFile_fits hd (Option.isNone_iff_eq_none.mp hfile.2) h
    · cases h
      exact hd

theorem Draft.takeAll_fits {parts : List Multipart.Part} (hd : d.Fits limit)
    (h : parts.foldlM Draft.take d = .ok d') : d'.Fits limit := by
  induction parts generalizing d with
  | nil =>
    cases h
    exact hd
  | cons p parts ih =>
    rw [List.foldlM_cons] at h
    obtain ⟨d₁, hp, hparts⟩ := bind_eq_ok.mp h
    exact ih (take_fits hd hp) hparts

theorem length_of_ofParts {parts : Multipart.Parts} {u : Upload} (h : ofParts limit parts = .ok u) :
    u.bytes.length ≤ limit := by
  obtain ⟨d, hparts, hfinish⟩ := bind_eq_ok.mp h
  have hstart : Draft.Fits limit ⟨none, none, limit⟩ := Nat.le_refl limit
  have hd := Draft.takeAll_fits hstart hparts
  split at hfinish
  · cases hfinish
  · unfold Draft.finish at hfinish
    split at hfinish
    · cases hfinish
    · cases hfinish
    · rename_i hfile
      cases hfinish
      simp only [Draft.Fits, hfile, Option.elim] at hd ⊢
      omega

end Upload

theorem Request.length_of_upload {r : Request} {limit : Nat} {u : Upload} (h : r.upload limit = .ok u) :
    u.bytes.length ≤ limit := by
  obtain ⟨boundary, -, hparts⟩ := bind_eq_ok.mp h
  exact Upload.length_of_ofParts (mapError_eq_ok.mp hparts)

theorem GrantRequest.length_of_validate {r : GrantRequest} (h : r.validate = .ok ()) : r.userId.length ≤ 255 := by
  have hall := Validation.check_eq_ok.mp h
  have huser : 1 ≤ r.userId.length ∧ r.userId.length ≤ 255 := by
    simpa [LengthRule.admits, LengthRule.name, LengthRule.between] using hall
  exact huser.2

/-- Whatever a request comes to, it fits. -/
theorem Endpoint.fits_of_action {e : Endpoint} {r : Request} {caller : Option Caller} {limit : Nat} {op : Operation}
    (h : e.action r caller limit = .ok (.perform op)) : op.Fits limit := by
  cases e with
  | upload =>
    obtain ⟨u, hu, hop⟩ := bind_eq_ok.mp h
    cases hop
    exact Request.length_of_upload hu
  | grantAccess lesson =>
    obtain ⟨id, -, h⟩ := bind_eq_ok.mp h
    obtain ⟨body, -, h⟩ := bind_eq_ok.mp h
    obtain ⟨_, hvalid, hop⟩ := bind_eq_ok.mp h
    cases hop
    exact GrantRequest.length_of_validate (mapError_eq_ok.mp hvalid)
  | health | ready => cases h
  | listCourses | listChapters | listLessons =>
    cases h
    trivial
  | me =>
    obtain ⟨_, -, h⟩ := bind_eq_ok.mp h
    cases h
  | login | refresh =>
    obtain ⟨_, -, h⟩ := bind_eq_ok.mp h
    obtain ⟨_, -, h⟩ := bind_eq_ok.mp h
    cases h
  | updateCourse _ | createChapter | reorderLessons _ | setChapterOrder _ | createLesson | setLessonContent _
  | download _ =>
    obtain ⟨_, -, h⟩ := bind_eq_ok.mp h
    obtain ⟨_, -, h⟩ := bind_eq_ok.mp h
    cases h
    trivial
  | _ =>
    obtain ⟨_, -, h⟩ := bind_eq_ok.mp h
    cases h
    trivial

namespace Server

variable {s t : Server} {now : Moment} {r : Request}

theorem authenticate_settings (s : Server) (now : Moment) (r : Request) :
    (s.authenticate now r).2.settings = s.settings := by
  obtain ⟨v, p, h⟩ := s.authenticate_snd now r
  rw [h]

theorem perform_settings (s : Server) (now : Moment) (a : Action) : (s.perform now a).2.settings = s.settings := by
  cases a <;> rfl

theorem handle_settings (s : Server) (now : Moment) (r : Request) : (s.handle now r).2.settings = s.settings := by
  have hsettings := s.authenticate_settings now r
  unfold handle
  rcases hc : s.authenticate now r with ⟨_ | caller, u⟩
  · rw [hc] at hsettings
    exact hsettings
  · rw [hc] at hsettings
    dsimp only
    cases u.plan caller r with
    | error answer => exact hsettings
    | ok a => exact (u.perform_settings now a).trans hsettings

theorem visit_settings (s : Server) (v : Visit) : (s.visit v).2.settings = s.settings := by
  cases v with
  | request now r => exact s.nextStep.handle_settings now r
  | identify now token | refreshKeys now =>
    simp only [visit]
    split <;> rfl
  | _ => rfl

/-- A visit that goes past the requests. -/
def Visit.isDirect : Visit → Bool
  | operate _ _ => true
  | _ => false

theorem fits_of_admitted {op : Operation} (h : s.admitted? now r = some (op, t)) :
    op.Fits s.settings.maxUploadBytes := by
  have hsettings := s.authenticate_settings now r
  unfold admitted? at h
  rcases hcaller : s.authenticate now r with ⟨_ | caller, u⟩
  · rw [hcaller] at h
    cases h
  · rw [hcaller] at h hsettings
    simp only at h
    split at h
    · rename_i op' hplan
      cases h
      obtain ⟨e, -, -, haction⟩ := plan_eq_ok.mp hplan
      rw [hsettings] at haction
      exact Endpoint.fits_of_action haction
    · cases h

theorem visit_fits {v : Visit} {e : Event} (outside : v.isDirect = false) (h : (s.visit v).1 = some e) :
    e.op.Fits s.settings.maxUploadBytes := by
  cases v with
  | operate now op => cases outside
  | request now r =>
    obtain ⟨⟨op, t⟩, hadmitted, rfl⟩ := Option.map_eq_some_iff.mp h
    exact fits_of_admitted (s := s.nextStep) hadmitted
  | identify now token | refreshKeys now =>
    simp only [visit] at h
    split at h <;> cases h
  | _ => cases h

theorem visit_wellFormed {limit : Nat} {v : Visit} (hs : s.backend.store.WellFormed limit)
    (configured : s.settings.maxUploadBytes = limit) (outside : v.isDirect = false) :
    (s.visit v).2.backend.store.WellFormed limit := by
  rcases s.visit_serves v [] with ⟨now, op, he, hb⟩ | ⟨-, hb⟩
  · rw [hb]
    have fits := visit_fits outside he
    rw [configured] at fits
    exact hs.outcome fits (History.serve_outcome (History.servesWithin_anything ⟨[], s.backend⟩ now op))
  · rw [hb]
    exact hs

theorem visitAll_wellFormed {limit : Nat} {visits : List Visit} (hs : s.backend.store.WellFormed limit)
    (configured : s.settings.maxUploadBytes = limit) (outside : ∀ v ∈ visits, v.isDirect = false) :
    (s.visitAll visits).2.backend.store.WellFormed limit := by
  induction visits generalizing s with
  | nil => exact hs
  | cons v visits ih =>
    obtain ⟨hv, hvisits⟩ := List.forall_mem_cons.mp outside
    exact ih (visit_wellFormed hs configured hv) (by rw [s.visit_settings v, configured]) hvisits

/-- From the empty store on, whatever is requested and whichever commands fail, every course, chapter and lesson has a
name and a description of a length that is allowed, every attachment a clean name and a key that begins with an
identifier, every grant a user with a name, and no blob is longer than an upload may be. -/
theorem requests_keep_store_wellFormed (s : Server) (ids keys : Nat → Uuid) (plan : List PlannedFault)
    (visits : List Visit) (outside : ∀ v ∈ visits, v.isDirect = false) :
    ((s.opened ids keys plan).visitAll visits).2.backend.store.WellFormed s.settings.maxUploadBytes :=
  visitAll_wellFormed (Store.wellFormed_empty _) rfl outside

/-- A school where the administrator's token is good from the start, and up to 64 bytes are taken at once. -/
def sampleHall : Server :=
  { sampleRelay with
    settings := { Verifier.sampleSettings with maxUploadBytes := 64 }
    verifier := some (.fixed Verifier.sampleSettings [sampleOtherKey]) }

/-- The administrator posts a body. -/
def samplePosting (path query kind body : String) : Request where
  method := "POST"
  target := ⟨Bytes.ofText path, Bytes.ofText query⟩
  headers := [⟨"Authorization", scheme ++ sampleAdminToken⟩, ⟨"Content-Type", Bytes.ofText kind⟩]
  body := Bytes.ofText body

def samplePart (disposition content : String) : String :=
  "--b\r\nContent-Disposition: form-data; " ++ disposition ++ "\r\n\r\n" ++ content ++ "\r\n"

/-- A course with a chapter and a lesson, slides for the lesson, and a grant of them: what is posted, and the
operations that it comes to. -/
def samplePostings : List (Request × Operation) :=
  [(samplePosting "/courses" "" "application/json" "\x7b\"name\":\"Logic\"\x7d", .createCourse ⟨"Logic", ""⟩),
    (samplePosting "/chapters" ("course_id=" ++ (Uuid.numbered 0).text) "application/json"
      "\x7b\"name\":\"Sets\",\"order\":1\x7d", .addChapter (Uuid.numbered 0).text ⟨"Sets", "", 1, none⟩),
    (samplePosting "/lessons" ("chapter_id=" ++ (Uuid.numbered 1).text) "application/json"
      "\x7b\"name\":\"Unions\",\"order\":1\x7d", .addLesson (Uuid.numbered 1).text ⟨"Unions", "", "", 1, none⟩),
    (samplePosting "/attachments/upload" "" "multipart/form-data; boundary=b"
      (samplePart "name=\"lesson_id\"" (Uuid.numbered 2).text ++
        samplePart "name=\"file\"; filename=\"../slides.pdf \"" "pdf" ++ "--b--\r\n"),
      .upload (Uuid.numbered 2).text "../slides.pdf " (Bytes.ofText "pdf")),
    (samplePosting ("/lessons/" ++ (Uuid.numbered 2).text ++ "/access") "" "application/json"
      "\x7b\"user_id\":\" u \"\x7d", .grant " u " (Uuid.numbered 2).text)]

/-- The visits do no more than the operations. -/
theorem samplePostings_backend :
    ((sampleHall.opened .numbered .numbered []).visitAll
        (samplePostings.map fun a => .request ⟨60, 0⟩ a.1)).2.backend =
      ((History.start .numbered .numbered []).serveAll
        (samplePostings.map fun a => (Timestamp.ofUnix 60, a.2))).backend := by
  have hheader : ∀ a ∈ samplePostings, a.1.header? "authorization" = some (scheme ++ sampleAdminToken) := by
    decide +kernel
  have hplans : ∀ a ∈ samplePostings, (sampleHall.plan (some sampleAdmin) a.1).toOption = some (.perform a.2) := by
    decide +kernel
  have known : ∀ t : Server, t.verifier = sampleHall.verifier → ∀ a ∈ samplePostings,
      t.authenticate ⟨60, 0⟩ a.1 = (.ok (some sampleAdmin), t) := fun t ht a ha =>
    authenticate_of_verifies ht (hheader a ha) adminPass.isToken adminPass.verified
  refine visitAll_of_plans known fun a ha => ?_
  have hplan := hplans a ha
  cases hcomes : sampleHall.plan (some sampleAdmin) a.1 with
  | error e =>
    rw [hcomes] at hplan
    cases hplan
  | ok action =>
    rw [hcomes] at hplan
    cases hplan
    exact hcomes

theorem requests_keep_store_wellFormed_sample :
    let s := ((sampleHall.opened .numbered .numbered []).visitAll
      (samplePostings.map fun a => .request ⟨60, 0⟩ a.1)).2.backend.store
    (s.courses.map Course.name = ["Logic"] ∧ s.chapters.map Chapter.name = ["Sets"] ∧
        s.lessons.map Lesson.name = ["Unions"] ∧ s.attachments.map Attachment.name = ["slides.pdf"] ∧
        s.blobs.map Blob.bytes = [Bytes.ofText "pdf"] ∧ s.grants.map Grant.userId = ["u"]) ∧
      s.WellFormed 64 := by
  have outside : ∀ v ∈ samplePostings.map fun a => Visit.request ⟨60, 0⟩ a.1, v.isDirect = false := by
    intro v hv
    obtain ⟨a, -, rfl⟩ := List.mem_map.mp hv
    rfl
  refine ⟨?_, requests_keep_store_wellFormed sampleHall .numbered .numbered [] _ outside⟩
  rw [samplePostings_backend]
  decide +kernel

end Server

end Coursework
