import Coursework.Proofs.Download
import Coursework.Proofs.Integrity
import Coursework.Proofs.Visits
import Mathlib.Data.List.DropRight

/-!
# Admission

A download asks for one thing only, a grant of the lesson to the user.  Grants come from acknowledged requests to grant
and from nothing else, and nothing takes them away.  They are kept for the trimmed user, while a download asks for the
user as it is.
-/
namespace Coursework

open Operation

namespace Text

theorem trim_idempotent (cs : List Char) : trim (trim cs) = trim cs := by
  have hfront : trim cs <+: cs.dropWhile isBlank := List.rdropWhile_prefix isBlank _
  -- what is left begins where the trimmed start began
  have hstart : trimStart (trim cs) = trim cs := by
    refine List.dropWhile_eq_self_iff.mpr fun hl => ?_
    rw [hfront.getElem hl]
    exact List.dropWhile_get_zero_not isBlank cs _
  have hend : trimEnd (trim cs) = trim cs := List.rdropWhile_idempotent isBlank _
  rw [show trim (trim cs) = trimEnd (trimStart (trim cs)) from rfl, hstart, hend]

theorem trimmed_idempotent (s : String) : trimmed (trimmed s) = trimmed s := by
  simp only [trimmed, String.toList_ofList, trim_idempotent]

end Text

/-- Whether an event acknowledged a grant of a lesson to a user. -/
def Event.Acknowledges (e : Event) (user lessonId : String) : Prop :=
  ∃ rawUser isNew, e = ⟨.grant rawUser lessonId, .ok isNew⟩ ∧ Text.trimmed rawUser = user

namespace Store

variable {m : Mishaps} {now : Timestamp} {id key : Uuid} {s t : Store}

theorem hasGrant_iff {user lessonId : String} :
    s.hasGrant user lessonId = true ↔ ∃ g ∈ s.grants, g.userId = user ∧ g.lessonId = lessonId := by
  simp [hasGrant, isGrantFor]

theorem outcome_grants {op : Operation} {r : Except Failure op.Result} (h : op.Outcome m now id key s r t) :
    t.grants = s.grants ∨ ∃ rawUser lessonId, (⟨op, r⟩ : Event) = ⟨.grant rawUser lessonId, .ok true⟩ ∧
      t.grants = s.grants ++ [⟨Text.trimmed rawUser, lessonId, now⟩] := by
  cases h with
  | granted _ _ _ => exact Or.inr ⟨_, _, rfl, rfl⟩
  | _ => exact Or.inl rfl

end Store

namespace History

variable {h : History} {m : Mishaps} {now : Timestamp} {op : Operation} {user lessonId rawUser : String}

theorem serve_grants (h : History) (now : Timestamp) (op : Operation) :
    (h.serve now op).store.grants = h.store.grants ∨
      ∃ rawUser lessonId, (⟨op, h.result now op⟩ : Event) = ⟨.grant rawUser lessonId, .ok true⟩ ∧
        (h.serve now op).store.grants = h.store.grants ++ [⟨Text.trimmed rawUser, lessonId, now⟩] :=
  Store.outcome_grants (serve_outcome (h.servesWithin_anything now op))

theorem serve_keeps_grant (hg : h.store.hasGrant user lessonId = true) :
    (h.serve now op).store.hasGrant user lessonId = true := by
  obtain ⟨g, hmem, hpair⟩ := Store.hasGrant_iff.mp hg
  refine Store.hasGrant_iff.mpr ⟨g, ?_, hpair⟩
  rcases h.serve_grants now op with hsame | ⟨_, _, _, hadded⟩
  · exact hsame ▸ hmem
  · exact hadded ▸ List.mem_append_left _ hmem

/-- A user who is admitted now was admitted before, unless the operation acknowledged the grant. -/
theorem serve_opens (hg : (h.serve now op).store.hasGrant user lessonId = true) :
    h.store.hasGrant user lessonId = true ∨ (⟨op, h.result now op⟩ : Event).Acknowledges user lessonId := by
  obtain ⟨g, hmem, rfl, rfl⟩ := Store.hasGrant_iff.mp hg
  rcases h.serve_grants now op with hsame | ⟨rawUser, lessonId, he, hadded⟩
  · exact Or.inl (Store.hasGrant_iff.mpr ⟨g, hsame ▸ hmem, rfl, rfl⟩)
  · rw [hadded] at hmem
    rcases List.mem_append.mp hmem with hmem | hmem
    · exact Or.inl (Store.hasGrant_iff.mpr ⟨g, hmem, rfl, rfl⟩)
    · obtain rfl := List.mem_singleton.mp hmem
      exact Or.inr ⟨rawUser, true, he, rfl⟩

/-- Whether every grant was in a store before, or goes back to an event that acknowledged it. -/
def RecordedSince (h : History) (s : Store) : Prop :=
  ∀ user lessonId, h.store.hasGrant user lessonId = true →
    s.hasGrant user lessonId = true ∨ ∃ e ∈ h.events, e.Acknowledges user lessonId

/-- Whether every grant is kept for a trimmed user. -/
def GrantsTrimmed (h : History) : Prop := ∀ g ∈ h.store.grants, Text.trimmed g.userId = g.userId

theorem serve_recorded {s : Store} (hr : h.RecordedSince s) (now : Timestamp) (op : Operation) :
    (h.serve now op).RecordedSince s := by
  intro user lessonId hg
  rcases serve_opens hg with hg | hnow
  · refine (hr user lessonId hg).imp_right ?_
    rintro ⟨e, hmem, he⟩
    exact ⟨e, List.mem_append_left _ hmem, he⟩
  · exact Or.inr ⟨_, List.mem_append_right _ (List.mem_singleton_self _), hnow⟩

theorem serve_trimmed (ht : h.GrantsTrimmed) (now : Timestamp) (op : Operation) : (h.serve now op).GrantsTrimmed := by
  intro g hmem
  rcases h.serve_grants now op with hsame | ⟨rawUser, _, _, hadded⟩
  · exact ht g (hsame ▸ hmem)
  · rw [hadded] at hmem
    rcases List.mem_append.mp hmem with hmem | hmem
    · exact ht g hmem
    · obtain rfl := List.mem_singleton.mp hmem
      exact Text.trimmed_idempotent rawUser

/-- An acknowledged grant is there, unless it was taken for a duplicate of none. -/
theorem hasGrant_of_acknowledged {isNew : Bool} (truthful : h.ServesWithin .truthful now (.grant rawUser lessonId))
    (acknowledged : h.result now (.grant rawUser lessonId) = .ok isNew) :
    (h.serve now (.grant rawUser lessonId)).store.hasGrant (Text.trimmed rawUser) lessonId = true := by
  have ho := serve_outcome truthful
  rw [acknowledged] at ho
  generalize (h.serve now (.grant rawUser lessonId)).store = t at ho ⊢
  cases ho with
  | granted _ _ _ =>
    exact Store.hasGrant_iff.mpr ⟨_, List.mem_append_right _ (List.mem_singleton_self _), rfl, rfl⟩
  | grantedBefore _ _ present => exact present.resolve_right id

/-- A download succeeds only for a user with an acknowledged grant, and without one it asks nothing of the blob
store. -/
theorem download_recorded (hr : h.RecordedSince .empty) (now : Timestamp) (user id : String) :
    (∀ d, h.result now (.download user id) = .ok d →
      ∃ row, h.store.attachment? id = some row ∧ ∃ e ∈ h.events, e.Acknowledges user row.lessonId) ∧
    ((∀ row, h.store.attachment? id = some row → ∀ e ∈ h.events, ¬ e.Acknowledges user row.lessonId) →
      (∃ f, h.result now (.download user id) = .error f) ∧
        (h.serve now (.download user id)).backend.blobLog = h.backend.blobLog) := by
  obtain ⟨hfetched, hsilent⟩ := Attachments.download_fetched user id
    (h.servesWithin_anything now (.download user id)).within
  -- from here on the store is not looked at: whoever it admits is on record
  have hadmits : Attachments.Admits h.store user id →
      ∃ row, h.store.attachment? id = some row ∧ ∃ e ∈ h.events, e.Acknowledges user row.lessonId := by
    rintro ⟨row, found, hg⟩
    exact ⟨row, found, (hr user row.lessonId hg).resolve_left fun h => by cases h⟩
  constructor
  · intro d hd
    have hfetched' : Attachments.Fetched .anything h.store user id (.ok d) := hd ▸ hfetched
    exact hadmits hfetched'.admits
  · intro hnone
    have hshut : ¬ Attachments.Admits h.store user id := by
      intro ha
      obtain ⟨row, found, e, hmem, he⟩ := hadmits ha
      exact hnone row found e hmem he
    refine ⟨?_, hsilent hshut⟩
    cases hresult : h.result now (.download user id) with
    | error f => exact ⟨f, rfl⟩
    | ok d =>
      have hfetched' : Attachments.Fetched .anything h.store user id (.ok d) := hresult ▸ hfetched
      exact absurd hfetched'.admits hshut

theorem serveAll_keeps_grant (hg : h.store.hasGrant user lessonId = true) (steps : List (Timestamp × Operation)) :
    (h.serveAll steps).store.hasGrant user lessonId = true :=
  serveAll_induction (P := fun h => h.store.hasGrant user lessonId = true) hg
    (fun _ _ _ hg => serve_keeps_grant hg) steps

theorem serveAll_trimmed (ht : h.GrantsTrimmed) (steps : List (Timestamp × Operation)) :
    (h.serveAll steps).GrantsTrimmed :=
  serveAll_induction ht (fun _ now op ht => serve_trimmed ht now op) steps

theorem GrantsTrimmed.hasGrant_eq_false (ht : h.GrantsTrimmed) (huser : Text.trimmed user ≠ user) :
    h.store.hasGrant user lessonId = false := by
  refine eq_false_of_ne_true fun hg => ?_
  obtain ⟨g, hmem, rfl, -⟩ := Store.hasGrant_iff.mp hg
  exact huser (ht g hmem)

/-- An acknowledged grant admits the trimmed user ever after.  Under a name with blanks around it the very user who was
granted access is refused whenever nothing else fails. -/
theorem acknowledged_grant_admits_trimmed (ids keys : Nat → Uuid) (plan : List PlannedFault)
    (before after : List (Timestamp × Operation)) (now : Timestamp) (rawUser lessonId : String) (isNew : Bool)
    (truthful : ((start ids keys plan).serveAll before).ServesWithin .truthful now (.grant rawUser lessonId))
    (acknowledged : ((start ids keys plan).serveAll before).result now (.grant rawUser lessonId) = .ok isNew) :
    let h := (((start ids keys plan).serveAll before).serve now (.grant rawUser lessonId)).serveAll after
    ∀ row ∈ h.store.attachments, row.lessonId = lessonId → ∀ later,
      (∀ user, Text.trimmed rawUser = user → h.ServesWithin .ofDatabase later (.download user row.id) →
        ¬ Attachments.Denied (h.result later (.download user row.id))) ∧
      (Text.trimmed rawUser ≠ rawUser → h.ServesWithin .nothing later (.download rawUser row.id) →
        Attachments.Denied (h.result later (.download rawUser row.id))) := by
  intro h row hrow hlesson later
  have hintact : h.store.Intact :=
    serveAll_intact (serve_intact (serveAll_intact Store.intact_empty before) now (.grant rawUser lessonId)) after
  have found : h.store.attachment? row.id = some row := Table.find?_eq_some_of_mem hintact.attachmentIds hrow
  constructor
  · rintro user rfl hw
    have hg : h.store.hasGrant (Text.trimmed rawUser) row.lessonId = true :=
      hlesson ▸ serveAll_keeps_grant (hasGrant_of_acknowledged truthful acknowledged) after
    have hfetched := (Attachments.download_fetched (Text.trimmed rawUser) row.id hw.within).1
    exact hfetched.not_denied found hg fun _ => Mishaps.ofDatabase_ne_accessDenied
  · intro huser hw
    have hstart : (start ids keys plan).GrantsTrimmed := fun g hg => by cases hg
    have ht : h.GrantsTrimmed := serveAll_trimmed (serve_trimmed (serveAll_trimmed hstart before) _ _) after
    have hfetched := (Attachments.download_fetched rawUser row.id hw.within).1
    exact ⟨_, hfetched.eq_noAccess found (ht.hasGrant_eq_false huser), rfl⟩

/-- A padded user is granted access and refused. -/
theorem padded_user_refused :
    sample.result sampleTime (.grant " u " (Uuid.numbered 2).text) = .ok true ∧
      (sample.serve sampleTime (.grant " u " (Uuid.numbered 2).text)).result sampleTime
        (.download " u " (Uuid.numbered 3).text) = .error (Attachments.noAccess (Uuid.numbered 3).text) := by
  constructor <;> decide +kernel

theorem acknowledged_grant_admits_trimmed_sample :
    sample.ServesWithin .truthful sampleTime (.grant " u " (Uuid.numbered 2).text) ∧
      sample.result sampleTime (.grant " u " (Uuid.numbered 2).text) = .ok true ∧
      (sample.serve sampleTime (.grant " u " (Uuid.numbered 2).text)).store.attachments.map Attachment.id =
        [(Uuid.numbered 3).text] ∧
      ∀ row ∈ (sample.serve sampleTime (.grant " u " (Uuid.numbered 2).text)).store.attachments,
        row.lessonId = (Uuid.numbered 2).text →
        ¬ Attachments.Denied ((sample.serve sampleTime (.grant " u " (Uuid.numbered 2).text)).result sampleTime
          (.download "u" row.id)) := by
  have truthful := (serve_allows (sample_allows .truthful) sampleTime (.grant " u " (Uuid.numbered 2).text)).1
  have acknowledged : sample.result sampleTime (.grant " u " (Uuid.numbered 2).text) = .ok true := by decide +kernel
  have hallows := (serve_allows (sample_allows .ofDatabase) sampleTime (.grant " u " (Uuid.numbered 2).text)).2
  refine ⟨truthful, acknowledged, by decide +kernel, fun row hrow hlesson => ?_⟩
  obtain ⟨hadmitted, -⟩ := acknowledged_grant_admits_trimmed .numbered .numbered [] _ [] sampleTime " u "
    (Uuid.numbered 2).text true truthful acknowledged row hrow hlesson sampleTime
  exact hadmitted "u" (by decide +kernel) (serve_allows hallows sampleTime (.download "u" row.id)).1

end History

namespace Server

/-- A server whose store is empty. -/
def opened (s : Server) (ids keys : Nat → Uuid) (plan : List PlannedFault) : Server :=
  { s with backend := .start ids keys plan }

theorem visitAll_recorded (s : Server) (visits : List Visit) :
    History.RecordedSince ⟨(s.visitAll visits).1, (s.visitAll visits).2.backend⟩ s.backend.store := by
  have hstart : History.RecordedSince ⟨[], s.backend⟩ s.backend.store := fun _ _ hg => Or.inl hg
  exact visitAll_induction (P := fun h => h.RecordedSince s.backend.store)
    (fun _ now op hr => History.serve_recorded hr now op) (fun _ hr => hr) visits hstart

/-- Whatever visits there have been: a download succeeds only for a user to whom a grant of the lesson was acknowledged,
without one it fails and asks nothing of the blob store, and whatever visits follow, they admit no other user than they
acknowledge a grant to. -/
theorem downloads_need_grants (s : Server) (ids keys : Nat → Uuid) (plan : List PlannedFault) (visits : List Visit) :
    let past := ((s.opened ids keys plan).visitAll visits).1
    let t := ((s.opened ids keys plan).visitAll visits).2
    (∀ v user id r, (t.visit v).1 = some ⟨.download user id, r⟩ →
      (∀ d, r = .ok d →
        ∃ row, t.backend.store.attachment? id = some row ∧ ∃ e ∈ past, e.Acknowledges user row.lessonId) ∧
      ((∀ row, t.backend.store.attachment? id = some row → ∀ e ∈ past, ¬ e.Acknowledges user row.lessonId) →
        (∃ f, r = .error f) ∧ (t.visit v).2.backend.blobLog = t.backend.blobLog)) ∧
    ∀ later user lessonId, (t.visitAll later).2.backend.store.hasGrant user lessonId = true →
      t.backend.store.hasGrant user lessonId = true ∨
        ∃ e ∈ (t.visitAll later).1, e.Acknowledges user lessonId := by
  intro past t
  have hr : History.RecordedSince ⟨past, t.backend⟩ .empty := (s.opened ids keys plan).visitAll_recorded visits
  refine ⟨?_, fun later => t.visitAll_recorded later⟩
  intro v user id r he
  rcases t.visit_serves v past with ⟨now, op, hserved, hbackend⟩ | ⟨hnone, -⟩
  · rw [hserved] at he
    cases he
    rw [hbackend]
    exact History.download_recorded hr now user id
  · rw [hnone] at he
    cases he

def sampleServer : Server where
  settings := default
  backend := .start .numbered .numbered []
  verifier := none
  provider := .ofSettings default []
  database := .absent
  requestIds := .numbered
  requests := 0

def sampleMoment : Moment := ⟨0, 0⟩

def sampleVisits : List Visit :=
  (History.sampleOperations ++ [Operation.grant " u " (Uuid.numbered 2).text]).map (.operate sampleMoment)

theorem downloads_need_grants_sample :
    let past := ((sampleServer.opened .numbered .numbered []).visitAll sampleVisits).1
    let t := ((sampleServer.opened .numbered .numbered []).visitAll sampleVisits).2
    (t.visit (.operate sampleMoment (.download "u" (Uuid.numbered 3).text))).1 =
        some ⟨.download "u" (Uuid.numbered 3).text, .ok ⟨"slides.pdf", [0, 255, 16]⟩⟩ ∧
      ∃ row, t.backend.store.attachment? (Uuid.numbered 3).text = some row ∧
        ∃ e ∈ past, e.Acknowledges "u" row.lessonId := by
  intro past t
  have hresult : (t.nextStep.operate sampleMoment (.download "u" (Uuid.numbered 3).text)).1 =
      .ok ⟨"slides.pdf", [0, 255, 16]⟩ := by decide +kernel
  have hvisit : (t.visit (.operate sampleMoment (.download "u" (Uuid.numbered 3).text))).1 =
      some ⟨.download "u" (Uuid.numbered 3).text, .ok ⟨"slides.pdf", [0, 255, 16]⟩⟩ := by
    rw [← hresult]
    rfl
  obtain ⟨hdownload, -⟩ := downloads_need_grants sampleServer .numbered .numbered [] sampleVisits
  exact ⟨hvisit, (hdownload _ _ _ _ hvisit).1 _ rfl⟩

end Server

end Coursework
