import Coursework.Proofs.Admission
import Coursework.Proofs.Rekeying

/-!
# Nobody sees a storage key

A server is run twice with different identifiers for its storage keys, and everything else equal.  Clients get the
same answers both times, and one renaming of keys takes what the first run leaves behind to what the second leaves.
-/
namespace Coursework

open Program

-- whether a program draws keys does not hang on how names are trimmed
attribute [local irreducible] Text.trimmed

namespace Program

variable {α β : Type}

/-- Whether a program draws no storage key, and makes no call in which one occurs. -/
def Keyless : Program α → Prop
  | done _ => True
  | call c next => c.isKeyless = true ∧ ∀ r, (next r).Keyless
  | drawId next => ∀ u, (next u).Keyless
  | drawKey _ => False

theorem keyless_andThen {p : Program α} {f : Except Failure α → Program β} (h : p.Keyless)
    (rest : ∀ r, (f r).Keyless) : (p.andThen f).Keyless := by
  induction p with
  | done r => exact rest r
  | call c next ih => exact ⟨h.1, fun r => ih r (h.2 r)⟩
  | drawId next ih => exact fun u => ih u (h u)
  | drawKey next => exact h.elim

theorem keyless_bind {p : Program α} {f : α → Program β} (h : p.Keyless) (rest : ∀ x, (f x).Keyless) :
    (p >>= f).Keyless :=
  keyless_andThen h fun r => by
    cases r with
    | ok x => exact rest x
    | error e => exact trivial

theorem keyless_ask {c : Call} (h : c.isKeyless = true) : (ask c).Keyless := ⟨h, fun _ => trivial⟩

theorem keyless_require (condition : Bool) (e : Failure) : (require condition e).Keyless := by
  cases condition <;> exact trivial

theorem keyless_ofExcept (r : Except Failure α) : (ofExcept r).Keyless := trivial

theorem keyless_freshId : freshId.Keyless := fun _ => trivial

end Program

theorem Courses.details_keyless (cs : List Chapter) : (Courses.details cs).Keyless := by
  induction cs with
  | nil => exact trivial
  | cons c cs ih => exact keyless_bind (keyless_ask rfl) fun lessons => keyless_bind ih fun _ => trivial

theorem Lessons.place_keyless (now : Timestamp) (known : List String) (n : Nat) (ids : List String) :
    (Lessons.place now known n ids).Keyless := by
  induction ids generalizing n with
  | nil => exact trivial
  | cons id ids ih =>
    simp only [Lessons.place]
    split
    · split
      · exact keyless_bind (keyless_ask rfl) fun _ => ih (n + 1)
      · exact trivial
    · exact ih (n + 1)

theorem Grants.ensure_keyless (now : Timestamp) (user lessonId : String) :
    (Grants.ensure now user lessonId).Keyless := by
  refine keyless_bind (keyless_bind (keyless_ask rfl) fun found => ?_) fun _ => keyless_ofExcept _
  match found with
  | .ok true | .error _ => exact trivial
  | .ok false => exact keyless_bind (keyless_ask rfl) fun _ => trivial

/-- Operations that have nothing to do with attachments. -/
def Operation.isKeyless : Operation → Bool
  | upload _ _ _ | download _ _ | listAttachments _ | deleteAttachment _ => false
  | _ => true

theorem Courses.update_keyless (now : Timestamp) (id : String) (r : CourseUpdate) :
    (Courses.update now id r).Keyless := by
  refine keyless_bind (keyless_ofExcept _) fun _ => ?_
  have rest : (ask (.findCourse id) >>= fun course => ask (.replaceCourse (r.revise now course))).Keyless :=
    keyless_bind (keyless_ask rfl) fun _ => keyless_ask rfl
  cases r.id with
  | none => exact rest
  | some bodyId => exact keyless_bind (keyless_require _ _) fun _ => rest

theorem Operation.program_keyless {op : Operation} (h : op.isKeyless = true) (now : Timestamp) :
    (op.program now).Keyless := by
  cases op with
  | upload _ _ _ | download _ _ | listAttachments _ | deleteAttachment _ => cases h
  | getCourse id =>
    refine keyless_bind (keyless_ask rfl) fun _ => keyless_bind (keyless_ask rfl) fun chapters => ?_
    exact keyless_bind (Courses.details_keyless chapters) fun _ => trivial
  | getChapter id => exact keyless_bind (keyless_ask rfl) fun _ => keyless_bind (keyless_ask rfl) fun _ => trivial
  | createCourse r =>
    exact keyless_bind (keyless_ofExcept _) fun _ => keyless_bind keyless_freshId fun _ => keyless_ask rfl
  | updateCourse id r => exact Courses.update_keyless now id r
  | addChapter _ _ | addLesson _ _ =>
    refine keyless_bind (keyless_ofExcept _) fun _ => keyless_bind (keyless_ask rfl) fun _ => ?_
    exact keyless_bind (keyless_require _ _) fun _ => keyless_bind keyless_freshId fun _ => keyless_ask rfl
  | deleteCourse _ | deleteChapter _ | deleteLesson _ =>
    refine keyless_bind (keyless_ask rfl) fun _ => keyless_bind (keyless_require _ _) fun _ => ?_
    exact keyless_bind (keyless_ask rfl) fun _ => keyless_bind (keyless_require _ _) fun _ => keyless_ask rfl
  | reorderLessons chapterId ids =>
    exact keyless_bind (keyless_ask rfl) fun _ => Lessons.place_keyless now _ 1 ids
  | grant user lessonId =>
    refine keyless_bind (keyless_require _ _) fun _ => keyless_bind (keyless_ask rfl) fun _ => ?_
    exact Grants.ensure_keyless now _ lessonId
  | listGrants lessonId =>
    exact keyless_bind (keyless_ask rfl) fun _ => keyless_bind (keyless_require _ _) fun _ => keyless_ask rfl
  | _ => exact keyless_ask rfl

namespace Rekeying

variable {keys keys' : Nat → Uuid} {n : Nat} (ρ : Rekeying keys keys' n) {α β γ δ : Type}

/-- Programs that go on alike whenever their calls are answered alike, as long as no more than `n` storage keys are
drawn. -/
inductive TwinPrograms (R : Except Failure α → Except Failure β → Prop) : Program α → Program β → Prop
  | done {r : Except Failure α} {r' : Except Failure β} (h : R r r') : TwinPrograms R (.done r) (.done r')
  | call {c c' : Call} {S : Except Failure c.Answer → Except Failure c'.Answer → Prop}
      {next : Except Failure c.Answer → Program α} {next' : Except Failure c'.Answer → Program β}
      (h : ρ.TwinCalls c c' S) (rest : ∀ r r', S r r' → TwinPrograms R (next r) (next' r')) :
      TwinPrograms R (.call c next) (.call c' next')
  | drawId {next : Uuid → Program α} {next' : Uuid → Program β} (rest : ∀ u, TwinPrograms R (next u) (next' u)) :
      TwinPrograms R (.drawId next) (.drawId next')
  | drawKey {next : Uuid → Program α} {next' : Uuid → Program β}
      (rest : ∀ i < n, TwinPrograms R (next (keys i)) (next' (keys' i))) :
      TwinPrograms R (.drawKey next) (.drawKey next')

variable {R : Except Failure α → Except Failure β → Prop} {S : Except Failure γ → Except Failure δ → Prop}

/-- As long as no more than `n` storage keys are drawn, twin programs end alike. -/
theorem run_twin {p : Program α} {p' : Program β} (h : ρ.TwinPrograms R p p') {b : Backend} (hkeys : b.keys = keys)
    (hdrawn : (b.run p).2.keysDrawn ≤ n) : Mirrored ρ.backend R (b.run p) ((ρ.backend b).run p') := by
  induction h generalizing b with
  | done h => exact ⟨h, rfl⟩
  | @call c c' S next next' h rest ih =>
    obtain ⟨outcome, state⟩ := ρ.perform_twin h b
    obtain ⟨plan, armed, hasked⟩ := Backend.perform_eq_asked b c
    have hkeys' : (b.perform c).2.keys = keys := by
      rw [hasked]
      exact hkeys
    have hrest := ih _ _ outcome hkeys' hdrawn
    rw [← state] at hrest
    exact hrest
  | drawId rest ih => exact ih _ (b := { b with idsDrawn := b.idsDrawn + 1 }) hkeys hdrawn
  | @drawKey next next' rest ih =>
    subst hkeys
    -- the key was among the first `n`, as no more than these have been drawn in the end
    have hi : b.keysDrawn < n :=
      Nat.lt_of_lt_of_le (Backend.run_keys { b with keysDrawn := b.keysDrawn + 1 } (next (b.keys b.keysDrawn))).2 hdrawn
    exact ih b.keysDrawn hi (b := { b with keysDrawn := b.keysDrawn + 1 }) rfl hdrawn

variable {ρ}

theorem twin_weaken {p : Program α} {p' : Program β} {R' : Except Failure α → Except Failure β → Prop}
    (h : ρ.TwinPrograms R p p') (weaker : ∀ r r', R r r' → R' r r') : ρ.TwinPrograms R' p p' := by
  induction h with
  | done h => exact .done (weaker _ _ h)
  | call h _ ih => exact .call h ih
  | drawId _ ih => exact .drawId ih
  | drawKey _ ih => exact .drawKey ih

theorem twin_andThen {p : Program γ} {p' : Program δ} {f : Except Failure γ → Program α}
    {f' : Except Failure δ → Program β} (h : ρ.TwinPrograms S p p')
    (rest : ∀ r r', S r r' → ρ.TwinPrograms R (f r) (f' r')) : ρ.TwinPrograms R (p.andThen f) (p'.andThen f') := by
  induction h with
  | done h => exact rest _ _ h
  | call h _ ih => exact .call h ih
  | drawId _ ih => exact .drawId ih
  | drawKey _ ih => exact .drawKey ih

theorem twin_keyless {p : Program α} (h : p.Keyless) : ρ.TwinPrograms Eq p p := by
  induction p with
  | done r => exact .done rfl
  | call c next ih =>
    refine .call (.keyless c h.1) ?_
    rintro r _ rfl
    exact ih r (h.2 r)
  | drawId next ih => exact .drawId fun u => ih u (h u)
  | drawKey next => exact h.elim

theorem twin_attempt {c c' : Call} {S : Except Failure c.Answer → Except Failure c'.Answer → Prop}
    {f : Except Failure c.Answer → Program α} {f' : Except Failure c'.Answer → Program β} (h : ρ.TwinCalls c c' S)
    (rest : ∀ r r', S r r' → ρ.TwinPrograms R (f r) (f' r')) :
    ρ.TwinPrograms R (attempt (ask c) >>= f) (attempt (ask c') >>= f') := .call h rest

variable {V : α → β → Prop}

/-- A call that fails ends both programs, with failures that are told alike. -/
theorem twin_ask {c c' : Call} {W : c.Answer → c'.Answer → Prop} {f : c.Answer → Program α}
    {f' : c'.Answer → Program β} (h : ρ.TwinCalls c c' (Told W))
    (rest : ∀ x y, W x y → ρ.TwinPrograms (Told V) (f x) (f' y)) :
    ρ.TwinPrograms (Told V) (ask c >>= f) (ask c' >>= f') := by
  refine .call h fun r r' told => ?_
  cases told with
  | ok hxy => exact rest _ _ hxy
  | error he => exact .done (.error he)

theorem twin_keyless_bind {p : Program γ} {f : γ → Program α} {f' : γ → Program β} (h : p.Keyless)
    (rest : ∀ x, ρ.TwinPrograms (Told V) (f x) (f' x)) : ρ.TwinPrograms (Told V) (p >>= f) (p >>= f') := by
  refine twin_andThen (twin_keyless h) ?_
  rintro r _ rfl
  cases r with
  | ok x => exact rest x
  | error e => exact .done (.error (.refl e))

theorem twin_freshKey {f : Uuid → Program α} {f' : Uuid → Program β}
    (rest : ∀ i < n, ρ.TwinPrograms R (f (keys i)) (f' (keys' i))) :
    ρ.TwinPrograms R (freshKey >>= f) (freshKey >>= f') := .drawKey rest

theorem upload_twin (now : Timestamp) (lessonId rawName : String) (bytes : Bytes) :
    ρ.TwinPrograms (Told fun x y => y = ρ.row x) (Attachments.upload now lessonId rawName bytes)
      (Attachments.upload now lessonId rawName bytes) := by
  refine twin_keyless_bind (keyless_ask rfl) fun _ => ?_
  refine twin_keyless_bind (keyless_ofExcept _) fun name => ?_
  refine twin_freshKey fun i hi => ?_
  rw [← ρ.drawn i hi name]
  refine twin_ask (.putBlob _ bytes now) fun _ _ _ => ?_
  refine twin_keyless_bind keyless_freshId fun id => ?_
  refine twin_attempt (.addAttachment _) fun r r' told => ?_
  cases told with
  | ok h => exact .done (.ok h)
  | error he => exact twin_attempt (.removeBlob _) fun _ _ _ => .done (.error he)

theorem download_twin (user id : String) :
    ρ.TwinPrograms (Told Eq) (Attachments.download user id) (Attachments.download user id) := by
  refine twin_ask (.findAttachment id) ?_
  rintro a _ rfl
  refine twin_keyless_bind (keyless_ask rfl) fun admitted => ?_
  refine twin_keyless_bind (keyless_require admitted _) fun _ => ?_
  refine twin_ask (.getBlob a.storageKey) ?_
  rintro bytes _ rfl
  exact .done (.ok rfl)

theorem list_twin (lessonId : String) :
    ρ.TwinPrograms (Told Eq) (Attachments.list lessonId) (Attachments.list lessonId) := by
  refine twin_keyless_bind (keyless_ask rfl) fun known => ?_
  refine twin_keyless_bind (keyless_require known _) fun _ => ?_
  refine twin_ask (.attachmentsOf lessonId) ?_
  rintro rows _ rfl
  refine .done (.ok ?_)
  -- views have no keys
  rw [List.map_map]
  rfl

theorem delete_twin (id : String) :
    ρ.TwinPrograms (Told Eq) (Attachments.delete id) (Attachments.delete id) := by
  refine twin_ask (.findAttachment id) ?_
  rintro a _ rfl
  refine twin_keyless_bind (keyless_ask rfl) fun _ => ?_
  exact twin_attempt (.removeBlob a.storageKey) fun _ _ _ => .done (.ok rfl)

/-- Every operation is its own counterpart, and its results are told alike. -/
theorem program_twin (op : Operation) (now : Timestamp) :
    ρ.TwinPrograms (Told fun x y => op.respond x = op.respond y) (op.program now) (op.program now) := by
  have same : ∀ r r' : Except Failure op.Result, Told Eq r r' → Told (fun x y => op.respond x = op.respond y) r r' :=
    fun _ _ told => told.imp fun _ _ h => congrArg op.respond h
  cases hop : op.isKeyless with
  | true =>
    refine twin_weaken (twin_keyless (op.program_keyless hop now)) ?_
    rintro r _ rfl
    exact same r r (.refl r)
  | false =>
    cases op with
    | upload lessonId rawName bytes =>
      exact twin_weaken (upload_twin now lessonId rawName bytes) fun _ _ told => told.imp fun _ _ h => h ▸ rfl
    | download user id => exact twin_weaken (download_twin user id) same
    | listAttachments lessonId => exact twin_weaken (list_twin lessonId) same
    | deleteAttachment id => exact twin_weaken (delete_twin id) same
    | _ => cases hop

variable (ρ) (requestIds : Nat → Uuid)

/-- A server with its keys renamed, and with these identifiers for its requests. -/
def server (s : Server) : Server := { s with backend := ρ.backend s.backend, requestIds }

end Rekeying

theorem Told.tell_eq {α β : Type} {f : α → Response} {g : β → Response} {r : Except Failure α} {r' : Except Failure β}
    (h : Told (fun x y => f x = g y) r r') : Server.tell f r = Server.tell g r' := by
  cases h with
  | ok h => exact h
  | error he =>
    obtain ⟨hkind, hmessage⟩ := he
    simp only [Server.tell, Response.refused, Failure.status, hkind, hmessage]

namespace Server

/-- The answer to a visit that is a request, but for the identifier of the request. -/
def answer? (s : Server) : Visit → Option Response
  | .request now r => some { (s.nextStep.respond now r).1 with requestId := none }
  | _ => none

/-- The answers to those visits that are requests. -/
def answers (s : Server) : List Visit → List Response
  | [] => []
  | v :: vs => (s.answer? v).toList ++ (s.visit v).2.answers vs

variable {s : Server}

theorem visit_keys (s : Server) (v : Visit) :
    (s.visit v).2.backend.keys = s.backend.keys ∧ s.backend.keysDrawn ≤ (s.visit v).2.backend.keysDrawn := by
  rcases s.visit_serves v [] with ⟨now, op, -, hbackend⟩ | ⟨-, hbackend⟩
  · rw [hbackend]
    exact History.serve_keys ⟨[], s.backend⟩ now op
  · rw [hbackend]
    exact ⟨rfl, Nat.le_refl _⟩

theorem visitAll_keys (s : Server) (vs : List Visit) : s.backend.keysDrawn ≤ (s.visitAll vs).2.backend.keysDrawn := by
  induction vs generalizing s with
  | nil => exact Nat.le_refl _
  | cons v vs ih => exact Nat.le_trans (s.visit_keys v).2 (ih _)

variable {keys keys' : Nat → Uuid} {n : Nat} (ρ : Rekeying keys keys' n) (requestIds : Nat → Uuid)

/-- Callers are established without the store. -/
theorem authenticate_renamed (s : Server) (now : Moment) (r : Request) :
    (ρ.server requestIds s).authenticate now r = Prod.map id (ρ.server requestIds) (s.authenticate now r) := by
  simp only [authenticate, Rekeying.server]
  split
  · rfl
  · split <;> rfl

theorem operate_renamed (hkeys : s.backend.keys = keys) {now : Moment} {op : Operation}
    (hdrawn : (s.operate now op).2.backend.keysDrawn ≤ n) :
    tell op.respond ((ρ.server requestIds s).operate now op).1 = tell op.respond (s.operate now op).1 ∧
      ((ρ.server requestIds s).operate now op).2 = ρ.server requestIds (s.operate now op).2 := by
  obtain ⟨told, state⟩ := ρ.run_twin (Rekeying.program_twin op now.stamp) hkeys hdrawn
  exact ⟨told.tell_eq.symm, congrArg (fun b => { s with backend := b, requestIds }) state⟩

theorem perform_renamed (hkeys : s.backend.keys = keys) {now : Moment} {a : Action}
    (hdrawn : (s.perform now a).2.backend.keysDrawn ≤ n) :
    (ρ.server requestIds s).perform now a = Prod.map id (ρ.server requestIds) (s.perform now a) := by
  cases a with
  | perform op =>
    obtain ⟨hanswer, hstate⟩ := operate_renamed ρ requestIds hkeys hdrawn
    exact Prod.ext hanswer hstate
  | _ => rfl

theorem handle_renamed (hkeys : s.backend.keys = keys) {now : Moment} {r : Request}
    (hdrawn : (s.handle now r).2.backend.keysDrawn ≤ n) :
    (ρ.server requestIds s).handle now r = Prod.map id (ρ.server requestIds) (s.handle now r) := by
  have hbackend := s.authenticate_backend now r
  unfold handle at hdrawn ⊢
  rw [authenticate_renamed]
  rcases hcaller : s.authenticate now r with ⟨_ | caller, t⟩
  · rfl
  · rw [hcaller] at hdrawn hbackend
    have hplan : (ρ.server requestIds t).plan caller r = t.plan caller r := rfl
    simp only [Prod.map, id, hplan] at hdrawn ⊢
    cases haction : t.plan caller r with
    | error answer => rfl
    | ok action =>
      rw [haction] at hdrawn
      have hkeys' : t.backend.keys = keys := (congrArg Backend.keys hbackend).trans hkeys
      exact perform_renamed ρ requestIds hkeys' hdrawn

theorem respond_renamed (hkeys : s.backend.keys = keys) {now : Moment} {r : Request}
    (hdrawn : (s.respond now r).2.backend.keysDrawn ≤ n) :
    ({ ((ρ.server requestIds s).respond now r).1 with requestId := none } : Response) =
        { (s.respond now r).1 with requestId := none } ∧
      ((ρ.server requestIds s).respond now r).2 = ρ.server requestIds (s.respond now r).2 := by
  unfold respond
  rw [handle_renamed ρ requestIds hkeys hdrawn]
  exact ⟨rfl, rfl⟩

/-- A visit to either server is answered the same, and leaves the one as the image of the other. -/
theorem visit_renamed (hkeys : s.backend.keys = keys) {v : Visit} (hdrawn : (s.visit v).2.backend.keysDrawn ≤ n) :
    (ρ.server requestIds s).answer? v = s.answer? v ∧
      ((ρ.server requestIds s).visit v).2 = ρ.server requestIds (s.visit v).2 := by
  cases v with
  | operate now op => exact ⟨rfl, (operate_renamed ρ requestIds (s := s.nextStep) hkeys hdrawn).2⟩
  | request now r =>
    obtain ⟨hanswer, hstate⟩ := respond_renamed ρ requestIds (s := s.nextStep) hkeys hdrawn
    exact ⟨congrArg some hanswer, hstate⟩
  | identify _ _ | refreshKeys _ =>
    simp only [visit, nextStep, Rekeying.server]
    split <;> exact ⟨rfl, rfl⟩
  | login username password => exact ⟨rfl, rfl⟩
  | refresh token => exact ⟨rfl, rfl⟩
  | ping database => exact ⟨rfl, rfl⟩

theorem visitAll_renamed (hkeys : s.backend.keys = keys) {visits : List Visit}
    (hdrawn : (s.visitAll visits).2.backend.keysDrawn ≤ n) :
    (ρ.server requestIds s).answers visits = s.answers visits ∧
      ((ρ.server requestIds s).visitAll visits).2 = ρ.server requestIds (s.visitAll visits).2 := by
  induction visits generalizing s with
  | nil => exact ⟨rfl, rfl⟩
  | cons v vs ih =>
    obtain ⟨hanswer, hstate⟩ := visit_renamed ρ requestIds hkeys (Nat.le_trans (visitAll_keys _ vs) hdrawn)
    obtain ⟨hanswers, hend⟩ := ih ((s.visit_keys v).1.trans hkeys) hdrawn
    simp only [answers, visitAll, hanswer, hstate, hanswers, hend, and_self]

/-- Whatever is asked and whatever fails: if two servers draw different identifiers for their storage keys, neither of
them one twice, then they give the same answers, and one renaming of keys takes what the first has become to what the
second has become.  Requests may have other identifiers, too, which are left out of the answers. -/
theorem answers_hide_storage_keys (s : Server) (ids keys keys' requestIds : Nat → Uuid) (plan : List PlannedFault)
    (visits : List Visit) {n : Nat} (drawn : ((s.opened ids keys plan).visitAll visits).2.backend.keysDrawn ≤ n)
    (apart : Uuid.Apart keys n) (apart' : Uuid.Apart keys' n) :
    let t : Server := { s with requestIds }
    (t.opened ids keys' plan).answers visits = (s.opened ids keys plan).answers visits ∧
      ∃ ρ : Rekeying keys keys' n,
        ((t.opened ids keys' plan).visitAll visits).2 =
          ρ.server requestIds ((s.opened ids keys plan).visitAll visits).2 := by
  obtain ⟨ρ⟩ := Rekeying.exists_rekeying apart apart'
  obtain ⟨hanswers, hend⟩ := visitAll_renamed ρ requestIds (s := s.opened ids keys plan) rfl drawn
  exact ⟨hanswers, ρ, hend⟩

/-- A request for the attachments of the sample lesson. -/
def sampleListing : Request where
  method := "GET"
  target := ⟨Bytes.ofText ("/lessons/" ++ (Uuid.numbered 2).text ++ "/attachments"), []⟩
  headers := []
  body := []

/-- The sample server with other storage keys. -/
def sampleTwin : Server := sampleServer.opened .numbered (fun i => .numbered (0x900 - i)) []

def sampleDay : List Visit :=
  sampleVisits ++
    [.operate sampleMoment (.upload (Uuid.numbered 2).text "notes" [7]), .request sampleMoment sampleListing]

theorem answers_hide_storage_keys_sample :
    ((sampleServer.answers sampleDay).map Response.status = [200] ∧
      (sampleServer.visitAll sampleDay).2.backend.store.attachments.map Attachment.storageKey ≠
        (sampleTwin.visitAll sampleDay).2.backend.store.attachments.map Attachment.storageKey) ∧
      sampleTwin.answers sampleDay = sampleServer.answers sampleDay ∧
      ∃ ρ : Rekeying .numbered (fun i => .numbered (0x900 - i)) 2,
        (sampleTwin.visitAll sampleDay).2 = ρ.server .numbered (sampleServer.visitAll sampleDay).2 := by
  have drawn : (sampleServer.visitAll sampleDay).2.backend.keysDrawn ≤ 2 := by decide +kernel
  have apart : ∀ i < 2, ∀ j < 2, Uuid.numbered i = Uuid.numbered j → i = j := by decide +kernel
  have apart' : ∀ i < 2, ∀ j < 2, Uuid.numbered (0x900 - i) = Uuid.numbered (0x900 - j) → i = j := by decide +kernel
  refine ⟨⟨by decide +kernel, by decide +kernel⟩, ?_⟩
  exact answers_hide_storage_keys sampleServer .numbered .numbered _ .numbered [] sampleDay drawn
    (fun i j hi hj => apart i hi j hj) (fun i j hi hj => apart' i hi j hj)

end Server

end Coursework
