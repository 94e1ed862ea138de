import Coursework.Proofs.Gates
import Coursework.Proofs.Learning

/-!
# What roles decide

The roles of a caller are looked at by the gate of an endpoint and by nothing behind it, and there it only matters
whether one of them is among those that the gate takes.  So two requests that differ in their tokens alone, and come
from one subject, are answered alike and leave the same rows and blobs, if the gate makes no difference between them.
Only what is passed on from the provider depends on more, for to verify a token may have cost a reply.
-/
namespace Coursework

theorem Header.sameName_of_common {a b c : String} (hb : sameName a b = true) (hc : sameName a c = true) :
    sameName b c = true := by
  simp only [sameName, decide_eq_true_eq] at hb hc ⊢
  exact hb.symm.trans hc

namespace Request

/-- The request as it is read behind the gate. -/
def withoutCredentials (r : Request) : Request :=
  { r with headers := r.headers.filter fun h => !Header.sameName h.name "authorization" }

theorem header?_withoutCredentials (r : Request) {name : String}
    (other : Header.sameName name "authorization" = false) : r.withoutCredentials.header? name = r.header? name := by
  simp only [header?, Header.find?, withoutCredentials, List.find?_filter]
  congr 2
  funext h
  cases hname : Header.sameName h.name name with
  | false => simp
  | true =>
    cases hcredentials : Header.sameName h.name "authorization" with
    | false => simp
    | true => simp [Header.sameName_of_common hname hcredentials] at other

theorem contentType_withoutCredentials (r : Request) :
    r.withoutCredentials.header? "content-type" = r.header? "content-type" :=
  r.header?_withoutCredentials rfl

theorem jsonBody_withoutCredentials {α : Type} (r : Request) (codec : Json.Codec α) :
    r.withoutCredentials.jsonBody codec = r.jsonBody codec := by
  simp only [jsonBody, isJson, contentType_withoutCredentials]
  rfl

theorem upload_withoutCredentials (r : Request) (limit : Nat) :
    r.withoutCredentials.upload limit = r.upload limit := by
  simp only [upload, Upload.boundary, contentType_withoutCredentials]
  rfl

end Request

theorem Gate.check_congr {required : List String} {c c' : Caller}
    (alike : (∃ r ∈ c.roles, r ∈ required) ↔ ∃ r ∈ c'.roles, r ∈ required) :
    check required (some c') = check required (some c) := by
  have hany : (c'.roles.any fun r => r ∈ required) = c.roles.any fun r => r ∈ required := by
    rw [Bool.eq_iff_iff]
    simpa using alike.symm
  simp only [check, hany]

namespace Endpoint

/-- What is answered here comes from the provider. -/
def asksProvider : Endpoint → Bool
  | login | refresh => true
  | _ => false

/-- The gate makes no difference between two callers. -/
def Levels (e : Endpoint) (c c' : Caller) : Prop :=
  ∀ roles, e.gate? = some roles → ((∃ r ∈ c.roles, r ∈ roles) ↔ ∃ r ∈ c'.roles, r ∈ roles)

variable {e : Endpoint} {c c' : Caller} {r r' : Request} {limit : Nat} {a : Action}

theorem allow_congr (h : e.Levels c c') : e.allow (some c') = e.allow (some c) := by
  unfold allow
  cases hgate : e.gate? with
  | none => rfl
  | some roles => exact Gate.check_congr (h roles hgate)

/-- Whoever has more roles is let through wherever the other was. -/
theorem levels_of_subset (more : c.roles ⊆ c'.roles) (through : e.allow (some c) = .ok ()) : e.Levels c c' := by
  intro roles hgate
  obtain ⟨_, hc, role, hrole, htaken⟩ := allow_ok_iff.mp through roles hgate
  cases hc
  exact iff_of_true ⟨role, hrole, htaken⟩ ⟨role, more hrole, htaken⟩

theorem action_withoutCredentials (e : Endpoint) (r : Request) (caller : Option Caller) (limit : Nat) :
    e.action r.withoutCredentials caller limit = e.action r caller limit := by
  cases e <;> simp only [action, Request.jsonBody_withoutCredentials, Request.upload_withoutCredentials] <;> rfl

/-- Behind the gate nothing but the subject counts, unless callers ask who they are. -/
theorem action_congr (subject : c'.subject = c.subject) (other : e ≠ .me)
    (same : r'.withoutCredentials = r.withoutCredentials) :
    e.action r' (some c') limit = e.action r (some c) limit := by
  rw [← action_withoutCredentials, same, action_withoutCredentials]
  cases e with
  | me => exact absurd rfl other
  | download id =>
    simp only [action]
    cases Request.pathId id with
    | error f => rfl
    | ok id =>
      change Except.ok _ = Except.ok _
      rw [subject]
  | _ => rfl

end Endpoint

theorem Provider.requestTokens_fst (p : Provider) (grant : List (String × String)) :
    (p.requestTokens grant).1 = readReply TokenReply.codec tokensRefused p.nextReply := by
  rw [← p.send_fst ⟨p.tokenUrl, some (Form.write (p.clientFields ++ grant))⟩]
  rfl

/-- What is answered to it comes from the provider. -/
def Action.asksProvider : Action → Bool
  | login _ | refresh _ => true
  | _ => false

theorem Endpoint.asksProvider_of_action {e : Endpoint} {r : Request} {caller : Option Caller} {limit : Nat}
    {a : Action} (h : e.action r caller limit = .ok a) : a.asksProvider = e.asksProvider := by
  cases e <;>
    simp only [action, bind_eq_ok, pure, Except.pure, Except.ok.injEq] at h <;>
    first
    | (subst h; rfl)
    | (obtain ⟨_, -, rfl⟩ := h; rfl)
    | (obtain ⟨_, -, _, -, rfl⟩ := h; rfl)
    | (obtain ⟨_, -, _, -, _, -, rfl⟩ := h; rfl)

namespace Server

variable {s t : Server} {now : Moment} {a : Action}

/-- What an action does to rows and blobs depends on nothing else. -/
theorem perform_backend_congr (hbackend : t.backend = s.backend) :
    (t.perform now a).2.backend = (s.perform now a).2.backend := by
  cases a with
  | perform op => simp only [perform, operate, hbackend]
  | _ => exact hbackend

theorem perform_answer_congr (hbackend : t.backend = s.backend) (hdatabase : t.database = s.database)
    (hreply : a.asksProvider = true → t.provider.nextReply = s.provider.nextReply) :
    (t.perform now a).1 = (s.perform now a).1 := by
  cases a with
  | perform op => simp only [perform, operate, hbackend]
  | login l =>
    have hlogin : (t.provider.login l.username l.password).1 = (s.provider.login l.username l.password).1 := by
      simp only [Provider.login, Provider.requestTokens_fst, hreply rfl]
    exact congrArg tokens hlogin
  | refresh l =>
    have hrefresh : (t.provider.refresh l.refreshToken).1 = (s.provider.refresh l.refreshToken).1 := by
      simp only [Provider.refresh, Provider.requestTokens_fst, hreply rfl]
    exact congrArg tokens hrefresh
  | ready => simp only [perform, hdatabase]
  | _ => rfl

/-- The server with other identifiers for its answers. -/
def renumbered (s : Server) (ids : Nat → Uuid) : Server := { s with requestIds := ids }

theorem authenticate_renumbered (s : Server) (ids : Nat → Uuid) (now : Moment) (r : Request) :
    (s.renumbered ids).authenticate now r =
      ((s.authenticate now r).1, (s.authenticate now r).2.renumbered ids) := by
  simp only [authenticate, renumbered]
  split
  · rfl
  · split <;> rfl

/-- What is passed on to either request is one reply. -/
def RelaysAlike (s : Server) (now : Moment) (r r' : Request) : Prop :=
  ∀ e, Endpoint.route r.method r.target.segments = some e → e.asksProvider = true →
    (s.authenticate now r').2.provider.nextReply = (s.authenticate now r).2.provider.nextReply

section TwoRequests

variable {r r' : Request} {c c' : Caller} (same : r'.withoutCredentials = r.withoutCredentials)
  (subject : c'.subject = c.subject) (other : Endpoint.route r.method r.target.segments ≠ some .me)
  (level : ∀ e, Endpoint.route r.method r.target.segments = some e → e.Levels c c')

include same subject other level

theorem plan_congr (hsettings : t.settings = s.settings) : t.plan (some c') r' = s.plan (some c) r := by
  have hmethod : r'.method = r.method := by injection same
  have htarget : r'.target = r.target := by injection same
  unfold plan
  rw [hmethod, htarget, hsettings]
  cases hroute : Endpoint.route r.method r.target.segments with
  | none => rfl
  | some e =>
    have hne : e ≠ .me := by
      rintro rfl
      exact other hroute
    dsimp only
    rw [Endpoint.allow_congr (level e hroute), Endpoint.action_congr subject hne same]

theorem handle_congr (shown : s.Identifies now r c) (shown' : s.Identifies now r' c') (ids : Nat → Uuid) :
    ((s.renumbered ids).handle now r').2.backend = (s.handle now r).2.backend ∧
      (s.RelaysAlike now r r' → ((s.renumbered ids).handle now r').1 = (s.handle now r).1) := by
  have hcaller := authenticate_eq_ok.mpr (Or.inr ⟨c, shown, rfl⟩)
  have hcaller' := authenticate_eq_ok.mpr (Or.inr ⟨c', shown', rfl⟩)
  obtain ⟨v, p, hs⟩ := s.authenticate_snd now r
  obtain ⟨v', p', hs'⟩ := s.authenticate_snd now r'
  have hauthenticated : s.authenticate now r = (.ok (some c), { s with verifier := v, provider := p }) :=
    Prod.ext hcaller hs
  have hauthenticated' : s.authenticate now r' = (.ok (some c'), { s with verifier := v', provider := p' }) :=
    Prod.ext hcaller' hs'
  -- behind the gate the two servers are one but for their keys and the replies they have left
  have hplan : (renumbered { s with verifier := v', provider := p' } ids).plan (some c') r' =
      plan { s with verifier := v, provider := p } (some c) r := plan_congr same subject other level rfl
  unfold handle
  rw [authenticate_renumbered, hauthenticated, hauthenticated']
  dsimp only
  rw [hplan]
  cases hplanned : plan { s with verifier := v, provider := p } (some c) r with
  | error answer => exact ⟨rfl, fun _ => rfl⟩
  | ok a =>
    obtain ⟨e, hroute, -, haction⟩ := plan_eq_ok.mp hplanned
    refine ⟨perform_backend_congr rfl, fun relay => perform_answer_congr rfl rfl fun asks => ?_⟩
    have hreply := relay e hroute (Endpoint.asksProvider_of_action haction ▸ asks)
    rwa [hauthenticated, hauthenticated'] at hreply

end TwoRequests

end Server

/-- An answer without the identifier of its request. -/
def Response.unnumbered (answer : Response) : Response := { answer with requestId := none }

namespace Server

/-- Two requests that differ in nothing but their tokens, from callers with one subject, and to any endpoint but the
one that tells callers who they are: if the gate makes no difference between the callers, they have one answer and
leave the same rows and blobs, where an answer of the provider's is the same if its reply is.  So the roles make no
difference to a download, and none to whoever has been let through and has others besides. -/
theorem roles_count_only_at_gates (s : Server) (ids : Nat → Uuid) (now : Moment) (r r' : Request) (c c' : Caller)
    (same : r'.withoutCredentials = r.withoutCredentials) (subject : c'.subject = c.subject)
    (shown : s.Identifies now r c) (shown' : s.Identifies now r' c')
    (other : Endpoint.route r.method r.target.segments ≠ some .me) :
    let first := s.respond now r
    let second := (s.renumbered ids).respond now r'
    let alike := second.2.backend.store = first.2.backend.store ∧
      (s.RelaysAlike now r r' → second.1.unnumbered = first.1.unnumbered)
    ((∀ e, Endpoint.route r.method r.target.segments = some e → e.Levels c c') → alike) ∧
    (∀ id, Endpoint.route r.method r.target.segments = some (.download id) →
      second.2.backend.store = first.2.backend.store ∧ second.1.unnumbered = first.1.unnumbered) ∧
    (c.roles ⊆ c'.roles → ∀ e, Endpoint.route r.method r.target.segments = some e → e.allow (some c) = .ok () →
      alike) := by
  intro first second alike
  have main : (∀ e, Endpoint.route r.method r.target.segments = some e → e.Levels c c') → alike := by
    intro level
    obtain ⟨hbackend, hanswer⟩ := handle_congr same subject other level shown shown' ids
    refine ⟨congrArg Backend.store hbackend, fun relay => ?_⟩
    exact (congrArg Response.unnumbered (hanswer relay) :)
  refine ⟨main, fun id hroute => ?_, fun more e hroute through => main fun e' hroute' => ?_⟩
  · have hlevel : ∀ e, Endpoint.route r.method r.target.segments = some e → e.Levels c c' := by
      intro e he roles hgate
      cases hroute.symm.trans he
      cases hgate
    obtain ⟨hstore, hanswer⟩ := main hlevel
    refine ⟨hstore, hanswer fun e he asks => ?_⟩
    cases hroute.symm.trans he
    cases asks
  · cases hroute.symm.trans hroute'
    exact Endpoint.levels_of_subset more through

/-- A token of the teacher `u` that names another key, and has another role besides. -/
def sampleAdminToken : Bytes :=
  Bytes.ofText ("eyJhbGciOiJIUzI1NiIsImtpZCI6ImwifQ." ++
    "eyJzdWIiOiJ1IiwiZXhwIjowLCJyZXNvdXJjZV9hY2Nlc3MiOnsibG1zIjp7InJvbGVzIjpbImFkbWluIiwidGVhY2hlciJdfX19" ++
    ".FJBSctVAdzNpUFpGQrdWuwHV9AWKYxAOf_IwO-3bHoc")

def sampleOtherKey : Key := ⟨some "l", none, .secret "a2V5"⟩

def sampleVerifier : Verifier := .learning Verifier.sampleSettings Verifier.sampleKeys none

/-- The provider will hand out the other key, and then tokens. -/
def sampleRelay : Server where
  settings := Verifier.sampleSettings
  backend := History.sample.backend
  verifier := some sampleVerifier
  provider := .ofSettings Verifier.sampleSettings [
    .answer 200 (Bytes.ofText "\x7b\"keys\":[\x7b\"kty\":\"oct\",\"kid\":\"l\",\"k\":\"a2V5\"\x7d]\x7d"),
    .answer 200 (Bytes.ofText "\x7b\"access_token\":\"a\",\"expires_in\":60,\"token_type\":\"Bearer\"\x7d")]
  database := .reachable
  requestIds := .numbered
  requests := 0

def sampleTeacher : Caller := ⟨"u", none, ["teacher"]⟩

def sampleAdmin : Caller := ⟨"u", none, ["admin", "teacher"]⟩

/-- A token that the school accepts, and what its verifier and its provider become by that. -/
structure Pass where
  token : Bytes
  caller : Caller
  verifier : Verifier
  provider : Provider
  isToken : bearer? (scheme ++ token) = some token
  left : (sampleVerifier.verify sampleRelay.provider ⟨60, 0⟩ token).2 = (verifier, provider)
  verified : Token.verify verifier.keys (.ofSettings Verifier.sampleSettings) 60 token = .ok caller

def teacherPass : Pass where
  token := Verifier.sampleToken
  caller := sampleTeacher
  verifier := sampleVerifier
  provider := sampleRelay.provider
  isToken := sampleCredentials.property
  left := by decide +kernel
  verified := Verifier.sample_verifies

/-- The key of the administrator's token is fetched first. -/
def adminPass : Pass where
  token := sampleAdminToken
  caller := sampleAdmin
  verifier := .learning Verifier.sampleSettings [sampleOtherKey] (some 0)
  provider := sampleRelay.provider.fetchKeys.2
  isToken := by decide +kernel
  left := by decide +kernel
  verified := by decide +kernel

theorem Pass.authenticate (pass : Pass) {s : Server} {r : Request} (configured : s.verifier = some sampleVerifier)
    (provided : s.provider = sampleRelay.provider)
    (header : r.header? "authorization" = some (scheme ++ pass.token)) :
    s.authenticate ⟨60, 0⟩ r =
      (.ok (some pass.caller), { s with verifier := some pass.verifier, provider := pass.provider }) := by
  have hverify : sampleVerifier.verify sampleRelay.provider ⟨60, 0⟩ pass.token =
      (.ok pass.caller, pass.verifier, pass.provider) := by
    refine Prod.ext ?_ pass.left
    rw [Verifier.verify_fst, pass.left]
    exact pass.verified
  simp [Server.authenticate, header, configured, provided, pass.isToken, identify, hverify, Except.map]

theorem identifies_of_authenticate {s t : Server} {now : Moment} {r : Request} {c : Caller}
    (h : s.authenticate now r = (.ok (some c), t)) : s.Identifies now r c := by
  rcases authenticate_eq_ok.mp (congrArg Prod.fst h) with ⟨-, hnone⟩ | ⟨c', hidentifies, hc⟩
  · cases hnone
  · cases hc
    exact hidentifies

theorem handle_of_authenticate {α : Type} (f : Response × Server → α) {s t : Server} {now : Moment} {r : Request}
    {caller : Option Caller} (h : s.authenticate now r = (.ok caller, t)) :
    f (s.handle now r) = match t.plan caller r with
      | .error answer => f (answer, t)
      | .ok action => f (t.perform now action) := by
  rw [handle, h]
  dsimp only
  cases t.plan caller r <;> rfl

theorem status_of_authenticate {s t : Server} {now : Moment} {r : Request} {caller : Option Caller}
    (h : s.authenticate now r = (.ok caller, t)) :
    (s.respond now r).1.status = match t.plan caller r with
      | .error answer => answer.status
      | .ok action => (t.perform now action).1.status :=
  handle_of_authenticate (fun answer => answer.1.status) h

/-- Adds a chapter to the course, as teachers may. -/
def sampleAddition (token : Bytes) : Request where
  method := "POST"
  target := ⟨Bytes.ofText "/chapters", Bytes.ofText ("course_id=" ++ (Uuid.numbered 0).text)⟩
  headers := [⟨"Authorization", scheme ++ token⟩, ⟨"Content-Type", Bytes.ofText "application/json"⟩]
  body := Bytes.ofText "\x7b\"name\":\"Outlook\",\"order\":2\x7d"

theorem roles_count_only_at_gates_sample :
    (sampleRelay.respond ⟨60, 0⟩ (sampleAddition Verifier.sampleToken)).1.status = 201 ∧
      ((sampleRelay.renumbered fun n => .numbered (n + 1)).respond ⟨60, 0⟩
          (sampleAddition sampleAdminToken)).2.backend.store =
        (sampleRelay.respond ⟨60, 0⟩ (sampleAddition Verifier.sampleToken)).2.backend.store ∧
      ((sampleRelay.renumbered fun n => .numbered (n + 1)).respond ⟨60, 0⟩
          (sampleAddition sampleAdminToken)).1.unnumbered =
        (sampleRelay.respond ⟨60, 0⟩ (sampleAddition Verifier.sampleToken)).1.unnumbered := by
  have teacher := teacherPass.authenticate (s := sampleRelay) (r := sampleAddition Verifier.sampleToken) rfl rfl
    (by decide +kernel)
  have admin := adminPass.authenticate (s := sampleRelay) (r := sampleAddition sampleAdminToken) rfl rfl
    (by decide +kernel)
  have same : (sampleAddition sampleAdminToken).withoutCredentials =
      (sampleAddition Verifier.sampleToken).withoutCredentials := by decide +kernel
  have hroute : Endpoint.route (sampleAddition Verifier.sampleToken).method
      (sampleAddition Verifier.sampleToken).target.segments = some .createChapter := by decide +kernel
  have status : (sampleRelay.respond ⟨60, 0⟩ (sampleAddition Verifier.sampleToken)).1.status = 201 := by
    rw [status_of_authenticate teacher]
    decide +kernel
  obtain ⟨-, -, larger⟩ := roles_count_only_at_gates sampleRelay (fun n => .numbered (n + 1)) ⟨60, 0⟩ _ _
    sampleTeacher sampleAdmin same rfl (identifies_of_authenticate teacher) (identifies_of_authenticate admin)
    (by rw [hroute]; decide)
  obtain ⟨hstore, hanswer⟩ := larger (by decide) _ hroute (by decide +kernel)
  have relay : sampleRelay.RelaysAlike ⟨60, 0⟩ (sampleAddition Verifier.sampleToken)
      (sampleAddition sampleAdminToken) := by
    intro e he asks
    cases hroute.symm.trans he
    cases asks
  exact ⟨status, hstore, hanswer relay⟩

def sampleLogin (token : Bytes) : Request where
  method := "POST"
  target := ⟨Bytes.ofText "/auth/login", []⟩
  headers := [⟨"Authorization", scheme ++ token⟩, ⟨"Content-Type", Bytes.ofText "application/json"⟩]
  body := Bytes.ofText "\x7b\"username\":\"u\",\"password\":\"p\"\x7d"

/-- One subject gets two answers at an endpoint without a gate, for the key of the second token has to be fetched
first. -/
theorem login_depends_on_token :
    (sampleLogin sampleAdminToken).withoutCredentials = (sampleLogin Verifier.sampleToken).withoutCredentials ∧
      Endpoint.route (sampleLogin Verifier.sampleToken).method
        (sampleLogin Verifier.sampleToken).target.segments = some .login ∧ Endpoint.login.gate? = none ∧
      sampleRelay.Identifies ⟨60, 0⟩ (sampleLogin Verifier.sampleToken) ⟨"u", none, ["teacher"]⟩ ∧
      sampleRelay.Identifies ⟨60, 0⟩ (sampleLogin sampleAdminToken) ⟨"u", none, ["admin", "teacher"]⟩ ∧
      (sampleRelay.respond ⟨60, 0⟩ (sampleLogin Verifier.sampleToken)).1.status = 502 ∧
      (sampleRelay.respond ⟨60, 0⟩ (sampleLogin sampleAdminToken)).1.status = 200 := by
  have teacher := teacherPass.authenticate (s := sampleRelay) (r := sampleLogin Verifier.sampleToken) rfl rfl
    (by decide +kernel)
  have admin := adminPass.authenticate (s := sampleRelay) (r := sampleLogin sampleAdminToken) rfl rfl
    (by decide +kernel)
  refine ⟨by decide +kernel, by decide +kernel, rfl, identifies_of_authenticate teacher,
    identifies_of_authenticate admin, ?_, ?_⟩
  · rw [status_of_authenticate teacher]
    decide +kernel
  · rw [status_of_authenticate admin]
    decide +kernel

end Server

end Coursework
