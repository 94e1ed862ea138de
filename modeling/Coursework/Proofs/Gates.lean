import Coursework.Proofs.Acceptance
import Coursework.Proofs.Visits

/-!
# Gates

Whoever does not show a token with a role that an endpoint takes changes nothing there, and learns nothing: the gate
answers before the store, the path or the body is looked at.  The endpoints without a gate only ever read.
-/
namespace Coursework

namespace Operation

/-- Operations that have no business with the store but to read it. -/
def isRead : Operation → Bool
  | listCourses | getCourse _ | listChapters | getChapter _ | listLessons | getLesson _ | listAttachments _
  | download _ _ | listGrants _ => true
  | _ => false

theorem Outcome.store_of_isRead {m : Mishaps} {now : Timestamp} {id key : Uuid} {s t : Store} {op : Operation}
    {r : Except Failure op.Result} (h : op.Outcome m now id key s r t) (hread : op.isRead = true) : t = s := by
  cases h <;> first | rfl | cases hread

theorem store_of_isRead {op : Operation} (hread : op.isRead = true) (b : Backend) (now : Timestamp) :
    (b.run (op.program now)).2.store = b.store :=
  have hwithin := (Backend.within_of_allows b.allows_anything (op.program now)).1
  (program_ends op hwithin).store_of_isRead hread

end Operation

namespace Endpoint

/-- An open endpoint leads to nothing but reading, as far as the store is concerned. -/
theorem isRead_of_open {e : Endpoint} {r : Request} {caller : Option Caller} {limit : Nat} {op : Operation}
    (hopen : e.gate? = none) (h : e.action r caller limit = .ok (.perform op)) : op.isRead = true := by
  cases e with
  | health | ready => cases h
  | listCourses | listChapters | listLessons =>
    cases h
    rfl
  | me =>
    obtain ⟨_, -, h⟩ := bind_eq_ok.mp h
    cases h
  | login | refresh =>
    obtain ⟨_, -, h⟩ := bind_eq_ok.mp h
    obtain ⟨_, -, h⟩ := bind_eq_ok.mp h
    cases h
  | getCourse _ | getChapter _ | getLesson _ | listAttachments _ =>
    obtain ⟨_, -, h⟩ := bind_eq_ok.mp h
    cases h
    rfl
  | download _ =>
    obtain ⟨_, -, h⟩ := bind_eq_ok.mp h
    obtain ⟨_, -, h⟩ := bind_eq_ok.mp h
    cases h
    rfl
  | _ => cases hopen

end Endpoint

namespace Server

variable {s t : Server} {now : Moment} {r : Request}

/-- The caller whom the credentials of a request show, if it has any. -/
def callerOf (verifier : Option Verifier) (p : Provider) (now : Moment) :
    Option Bytes → Except Failure (Option Caller)
  | none => .ok none
  | some value =>
    match verifier, bearer? value with
    | none, _ => .error noVerifier
    | some _, none => .error noBearer
    | some v, some token => (v.verify p now token).1.map some

/-- Nothing but its credentials says who the caller of a request is. -/
theorem authenticate_fst (s : Server) (now : Moment) (r : Request) :
    (s.authenticate now r).1 = callerOf s.verifier s.provider now (r.header? "authorization") := by
  unfold authenticate callerOf
  cases r.header? "authorization" with
  | none => rfl
  | some value =>
    dsimp only
    cases s.verifier with
    | none => rfl
    | some v => cases bearer? value <;> rfl

/-- The request shows a token, and it is this caller's. -/
def Identifies (s : Server) (now : Moment) (r : Request) (c : Caller) : Prop :=
  ∃ v value token, s.verifier = some v ∧ r.header? "authorization" = some value ∧ bearer? value = some token ∧
    (v.verify s.provider now token).1 = .ok c

theorem authenticate_eq_ok {caller : Option Caller} :
    (s.authenticate now r).1 = .ok caller ↔
      r.header? "authorization" = none ∧ caller = none ∨ ∃ c, s.Identifies now r c ∧ caller = some c := by
  rw [authenticate_fst]
  unfold Identifies callerOf
  cases r.header? "authorization" with
  | none => simp [eq_comm]
  | some value =>
    cases s.verifier with
    | none => simp
    | some v =>
      cases hb : bearer? value with
      | none => simp [hb]
      | some token => cases hc : (v.verify s.provider now token).1 <;> simp [hb, hc, Except.map, eq_comm]

/-- A server that has a verifier turns nobody away but for their credentials. -/
theorem kind_of_authenticate_error {v : Verifier} (configured : s.verifier = some v) {f : Failure}
    (h : (s.authenticate now r).1 = .error f) : f.kind = .unauthorized := by
  rw [authenticate_fst, configured] at h
  unfold callerOf at h
  split at h
  · cases h
  · split at h
    · contradiction
    · cases h
      rfl
    · rename_i v' token _ _
      cases hverify : (v'.verify s.provider now token).1 with
      | ok c =>
        rw [hverify] at h
        cases h
      | error e =>
        rw [hverify] at h
        cases h
        rw [v'.verify_fst] at hverify
        exact Token.kind_of_verify_error hverify

/-- The request comes from a caller who holds a role that its endpoint takes. -/
def Entitled (s : Server) (now : Moment) (r : Request) : Prop :=
  ∃ e roles c, Endpoint.route r.method r.target.segments = some e ∧ e.gate? = some roles ∧ s.Identifies now r c ∧
    ∃ role ∈ c.roles, role ∈ roles

theorem not_entitled_of_anonymous (anonymous : r.header? "authorization" = none) : ¬ s.Entitled now r := by
  rintro ⟨_, _, _, _, _, ⟨_, _, _, _, hvalue, _⟩, _⟩
  rw [anonymous] at hvalue
  cases hvalue

theorem plan_eq_ok {caller : Option Caller} {a : Action} :
    s.plan caller r = .ok a ↔ ∃ e, Endpoint.route r.method r.target.segments = some e ∧ e.allow caller = .ok () ∧
      e.action r caller s.settings.maxUploadBytes = .ok a := by
  unfold plan
  cases Endpoint.route r.method r.target.segments with
  | none => simp
  | some e => cases ha : e.allow caller <;> simp [ha, mapError_eq_ok]

/-- Only those who are entitled are admitted to an operation that is more than reading. -/
theorem entitled_of_admitted {op : Operation} (h : s.admitted? now r = some (op, t)) (hwrites : op.isRead = false) :
    s.Entitled now r := by
  unfold admitted? at h
  rcases hcaller : s.authenticate now r with ⟨_ | caller, u⟩
  · rw [hcaller] at h
    cases h
  · rw [hcaller] at h
    simp only at h
    split at h
    · rename_i op' hplan
      cases h
      obtain ⟨e, hroute, hallow, haction⟩ := plan_eq_ok.mp hplan
      cases hgate : e.gate? with
      | none =>
        rw [Endpoint.isRead_of_open hgate haction] at hwrites
        cases hwrites
      | some roles =>
        obtain ⟨c, rfl, hrole⟩ := Endpoint.allow_ok_iff.mp hallow roles hgate
        have hidentified := authenticate_eq_ok.mp (congrArg Prod.fst hcaller)
        obtain ⟨c', hidentifies, hc⟩ := hidentified.resolve_left (by simp)
        cases hc
        exact ⟨e, roles, c, hroute, hgate, hidentifies, hrole⟩
    · cases h

theorem store_of_not_entitled (h : ¬ s.Entitled now r) :
    (s.respond now r).2.backend.store = s.backend.store := by
  change (s.handle now r).2.backend.store = s.backend.store
  cases hadmitted : s.admitted? now r with
  | none => exact congrArg Backend.store (handle_of_not_admitted hadmitted)
  | some admitted =>
    obtain ⟨op, t⟩ := admitted
    obtain ⟨hbackend, hhandle⟩ := handle_of_admitted hadmitted
    -- what anybody is admitted to only reads
    cases hread : op.isRead with
    | false => exact absurd (entitled_of_admitted hadmitted hread) h
    | true =>
      rw [hhandle, ← hbackend]
      exact Operation.store_of_isRead hread t.backend now.stamp

/-- The judgement of the gate with these roles on a request. -/
def judge (s : Server) (now : Moment) (r : Request) (roles : List String) : Except Failure Unit :=
  (s.authenticate now r).1 >>= Gate.check roles

/-- The gate looks at nothing but the credentials. -/
theorem judge_congr {b : Backend} {r' : Request} {roles : List String}
    (same : r'.header? "authorization" = r.header? "authorization") :
    judge { s with backend := b } now r' roles = s.judge now r roles := by
  simp only [judge, authenticate_fst, same]

theorem handle_of_judge_error {e : Endpoint} {roles : List String} {f : Failure}
    (hroute : Endpoint.route r.method r.target.segments = some e) (hgate : e.gate? = some roles)
    (h : s.judge now r roles = .error f) : (s.handle now r).1 = .refused f := by
  unfold judge at h
  unfold handle
  rcases hcaller : s.authenticate now r with ⟨g | caller, t⟩
  · rw [hcaller] at h
    cases h
    rfl
  · rw [hcaller] at h
    have hallow : e.allow caller = .error f := by
      rw [Endpoint.allow, hgate]
      exact h
    simp [plan, hroute, hallow]

theorem judge_of_unidentified {v : Verifier} (configured : s.verifier = some v) (h : ¬ ∃ c, s.Identifies now r c)
    (roles : List String) : ∃ f, s.judge now r roles = .error f ∧ f.kind = .unauthorized := by
  unfold judge
  cases hcaller : (s.authenticate now r).1 with
  | error f => exact ⟨f, rfl, kind_of_authenticate_error configured hcaller⟩
  | ok caller =>
    rcases authenticate_eq_ok.mp hcaller with ⟨-, rfl⟩ | ⟨c, hc, -⟩
    · exact ⟨_, rfl, rfl⟩
    · exact absurd ⟨c, hc⟩ h

theorem judge_of_identified {c : Caller} (h : s.Identifies now r c) {roles : List String}
    (lacks : ¬ ∃ role ∈ c.roles, role ∈ roles) : ∃ f, s.judge now r roles = .error f ∧ f.kind = .forbidden := by
  have hcaller := authenticate_eq_ok.mpr (Or.inr ⟨c, h, rfl⟩)
  have hany : (c.roles.any fun r => r ∈ roles) = false := by simpa using lacks
  have hcheck : Gate.check roles (some c) =
      .error (.forbidden ("Requires one of the roles: " ++ ", ".intercalate roles)) := by
    simp only [Gate.check, hany]
    rfl
  exact ⟨_, by rw [judge, hcaller, ← hcheck]; rfl, rfl⟩

/-- A request without a role that its endpoint takes leaves every row and every blob as it was.  At a gate it is told
why, and that does not depend on the store, nor on anything in the request but its credentials.  A caller without
credentials can change nothing anywhere. -/
theorem unentitled_requests_change_nothing (s : Server) (now : Moment) (r : Request) :
    (¬ s.Entitled now r →
      (s.respond now r).2.backend.store = s.backend.store ∧
      ∀ v e roles, s.verifier = some v → Endpoint.route r.method r.target.segments = some e → e.gate? = some roles →
        ((¬ ∃ c, s.Identifies now r c) → (s.respond now r).1.status = 401) ∧
        ((∃ c, s.Identifies now r c) → (s.respond now r).1.status = 403) ∧
        ∀ b r' e', r'.header? "authorization" = r.header? "authorization" →
          Endpoint.route r'.method r'.target.segments = some e' → e'.gate? = some roles →
          (respond { s with backend := b } now r').1 = (s.respond now r).1) ∧
    (r.header? "authorization" = none → (s.respond now r).2.backend.store = s.backend.store) := by
  refine ⟨fun unentitled => ⟨store_of_not_entitled unentitled, ?_⟩,
    fun anonymous => store_of_not_entitled (not_entitled_of_anonymous anonymous)⟩
  intro v e roles configured hroute hgate
  have status_of_judge : ∀ f, s.judge now r roles = .error f → (s.respond now r).1.status = f.status := by
    intro f hf
    exact congrArg Response.status (handle_of_judge_error hroute hgate hf)
  have lacks : ∀ c, s.Identifies now r c → ¬ ∃ role ∈ c.roles, role ∈ roles := fun c hc hrole =>
    unentitled ⟨e, roles, c, hroute, hgate, hc, hrole⟩
  refine ⟨fun unidentified => ?_, ?_, fun b r' e' same hroute' hgate' => ?_⟩
  · obtain ⟨f, hf, hkind⟩ := judge_of_unidentified configured unidentified roles
    rw [status_of_judge f hf, Failure.status, hkind]
    rfl
  · rintro ⟨c, hc⟩
    obtain ⟨f, hf, hkind⟩ := judge_of_identified hc (lacks c hc)
    rw [status_of_judge f hf, Failure.status, hkind]
    rfl
  · obtain ⟨f, hf⟩ : ∃ f, s.judge now r roles = .error f := by
      by_cases identified : ∃ c, s.Identifies now r c
      · obtain ⟨c, hc⟩ := identified
        exact (judge_of_identified hc (lacks c hc)).imp fun _ h => h.1
      · exact (judge_of_unidentified configured identified roles).imp fun _ h => h.1
    have hf' : judge { s with backend := b } now r' roles = .error f := by rw [judge_congr same, hf]
    simp only [respond, handle_of_judge_error hroute hgate hf, handle_of_judge_error hroute' hgate' hf']

/-- A caller whose token is good under the keys that a server has from the start. -/
theorem authenticate_of_verifies {settings : Settings} {keys : KeySet} {value token : Bytes} {c : Caller}
    (fixed : s.verifier = some (.fixed settings keys)) (header : r.header? "authorization" = some value)
    (isToken : bearer? value = some token)
    (verifies : Token.verify keys (.ofSettings settings) now.unix token = .ok c) :
    s.authenticate now r = (.ok (some c), s) := by
  have hverify : (Verifier.fixed settings keys).verify s.provider now token =
      (.ok c, .fixed settings keys, s.provider) := by
    rw [Verifier.verify_fixed, verifies]
  obtain ⟨_, _, verifier, _⟩ := s
  cases fixed
  simp only [authenticate, header, isToken, identify, hverify, Except.map]

/-- A server with some courses, where the sample token is a teacher's. -/
def sampleSchool : Server where
  settings := Verifier.sampleSettings
  backend := History.sample.backend
  verifier := some (.fixed Verifier.sampleSettings Verifier.sampleKeys)
  provider := .ofSettings Verifier.sampleSettings []
  database := .reachable
  requestIds := .numbered
  requests := 0

/-- What the teacher shows. -/
def sampleCredentials : { value : Bytes // bearer? value = some Verifier.sampleToken } :=
  ⟨scheme ++ Verifier.sampleToken, by decide +kernel⟩

/-- The teacher asks for the deletion of a course, which only administrators may delete. -/
def sampleDeletion : Request where
  method := "DELETE"
  target := ⟨Bytes.ofText "/courses/1", []⟩
  headers := [⟨"Authorization", scheme ++ Verifier.sampleToken⟩]
  body := []

theorem sample_identifies {c : Caller} :
    sampleSchool.Identifies ⟨60, 0⟩ sampleDeletion c ↔ c = ⟨"u", none, ["teacher"]⟩ := by
  have hheader : sampleDeletion.header? "authorization" = some sampleCredentials.val := rfl
  have hverify : ((Verifier.fixed Verifier.sampleSettings Verifier.sampleKeys).verify sampleSchool.provider ⟨60, 0⟩
      Verifier.sampleToken).1 = .ok ⟨"u", none, ["teacher"]⟩ := by
    rw [Verifier.verify_fixed]
    exact Verifier.sample_verifies
  constructor
  · rintro ⟨v, value, token, hv, hvalue, htoken, hc⟩
    cases hv
    cases hheader.symm.trans hvalue
    cases sampleCredentials.property.symm.trans htoken
    exact Except.ok.inj (hc.symm.trans hverify)
  · rintro rfl
    exact ⟨_, _, _, rfl, hheader, sampleCredentials.property, hverify⟩

theorem unentitled_requests_change_nothing_sample :
    ¬ sampleSchool.Entitled ⟨60, 0⟩ sampleDeletion ∧
      (sampleSchool.respond ⟨60, 0⟩ sampleDeletion).2.backend.store = sampleSchool.backend.store ∧
      (sampleSchool.respond ⟨60, 0⟩ sampleDeletion).1.status = 403 := by
  have hroute : Endpoint.route sampleDeletion.method sampleDeletion.target.segments = some (.deleteCourse "1") := by
    decide +kernel
  have unentitled : ¬ sampleSchool.Entitled ⟨60, 0⟩ sampleDeletion := by
    rintro ⟨e, roles, c, he, hgate, hc, hrole⟩
    cases hroute.symm.trans he
    cases hgate
    rw [sample_identifies.mp hc] at hrole
    revert hrole
    decide
  obtain ⟨hstore, hgate⟩ := (unentitled_requests_change_nothing sampleSchool ⟨60, 0⟩ sampleDeletion).1 unentitled
  exact ⟨unentitled, hstore, (hgate _ _ _ rfl hroute rfl).2.1 ⟨_, sample_identifies.mpr rfl⟩⟩

end Server

end Coursework
