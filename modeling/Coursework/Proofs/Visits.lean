import Coursework.Proofs.History
import Coursework.Server.Basic

/-!
# Visits to a server

Operations reach a server directly or as requests, between logins, tokens and pings that have nothing to do with the
store.  Whichever it is, a visit serves at most one operation, so what every served operation keeps is kept by every
visit.
-/
namespace Coursework.Server

/-- The operation that a request is admitted to, with the server that is to carry it out. -/
def admitted? (s : Server) (now : Moment) (r : Request) : Option (Operation × Server) :=
  match s.authenticate now r with
  | (.error _, _) => none
  | (.ok caller, t) =>
    match t.plan caller r with
    | .ok (.perform op) => some (op, t)
    | _ => none

/-- What can happen at a server. -/
inductive Visit
  | operate (now : Moment) (op : Operation)
  | request (now : Moment) (r : Request)
  | identify (now : Moment) (token : Bytes)
  | refreshKeys (now : Moment)
  | login (username password : String)
  | refresh (token : String)
  | ping (database : DatabaseStatus)

def nextStep (s : Server) : Server := { s with backend := s.backend.nextStep }

/-- Carries out a visit in a step of its own, and tells which operation was served, if any. -/
def visit (s : Server) (v : Visit) : Option Event × Server :=
  let s := s.nextStep
  match v with
  | .operate now op => (some ⟨op, (s.operate now op).1⟩, (s.operate now op).2)
  | .request now r =>
    ((s.admitted? now r).map fun (op, t) => ⟨op, (t.operate now op).1⟩, (s.respond now r).2)
  | .identify now token =>
    match s.verifier with
    | none => (none, s)
    | some verifier => (none, (s.identify verifier now token).2)
  | .refreshKeys now =>
    match s.verifier with
    | none => (none, s)
    | some verifier =>
      let (_, verifier, provider) := verifier.refreshKeys s.provider now
      (none, { s with verifier := some verifier, provider })
  | .login username password => (none, (s.login username password).2)
  | .refresh token => (none, (s.refresh token).2)
  | .ping database => (none, { s with database })

/-- Carries out visits one after another, and tells which operations were served. -/
def visitAll (s : Server) : List Visit → List Event × Server
  | [] => ([], s)
  | v :: vs => ((s.visit v).1.toList ++ ((s.visit v).2.visitAll vs).1, ((s.visit v).2.visitAll vs).2)

variable {s t : Server} {now : Moment} {r : Request} {op : Operation}

/-- To establish a caller costs a server nothing but keys and replies. -/
theorem authenticate_snd (s : Server) (now : Moment) (r : Request) :
    ∃ verifier provider, (s.authenticate now r).2 = { s with verifier, provider } := by
  unfold authenticate
  split
  · exact ⟨_, _, rfl⟩
  · split <;> exact ⟨_, _, rfl⟩

theorem authenticate_backend (s : Server) (now : Moment) (r : Request) :
    (s.authenticate now r).2.backend = s.backend := by
  unfold authenticate
  split
  · rfl
  · split <;> rfl

/-- A request that is admitted to an operation is answered with what comes of it. -/
theorem handle_of_admitted (h : s.admitted? now r = some (op, t)) :
    t.backend = s.backend ∧ s.handle now r = (tell op.respond (t.operate now op).1, (t.operate now op).2) := by
  have hbackend := s.authenticate_backend now r
  unfold admitted? at h
  unfold handle
  rcases hc : s.authenticate now r with ⟨_ | caller, u⟩
  · rw [hc] at h
    cases h
  · rw [hc] at h hbackend
    simp only at h ⊢
    split at h
    · rename_i op' hplan
      obtain ⟨rfl, rfl⟩ := Prod.mk.inj (Option.some.inj h)
      refine ⟨hbackend, ?_⟩
      rw [hplan]
      rfl
    · cases h

theorem handle_of_not_admitted (h : s.admitted? now r = none) : (s.handle now r).2.backend = s.backend := by
  have hbackend := s.authenticate_backend now r
  unfold admitted? at h
  unfold handle
  rcases hc : s.authenticate now r with ⟨_ | caller, u⟩
  · rw [hc] at hbackend
    exact hbackend
  · rw [hc] at h hbackend
    simp only at h ⊢
    cases hplan : u.plan caller r with
    | error answer => exact hbackend
    | ok action =>
      rw [hplan] at h
      cases action with
      | perform op => cases h
      | _ => exact hbackend

theorem visit_serves (s : Server) (v : Visit) (past : List Event) :
    (∃ now op, (s.visit v).1 = some ⟨op, History.result ⟨past, s.backend⟩ now op⟩ ∧
      (s.visit v).2.backend = (History.serve ⟨past, s.backend⟩ now op).backend) ∨
    (s.visit v).1 = none ∧ (s.visit v).2.backend = s.backend.nextStep := by
  cases v with
  | operate now op => exact Or.inl ⟨now.stamp, op, rfl, rfl⟩
  | request now r =>
    simp only [visit]
    cases hadmitted : s.nextStep.admitted? now r with
    | none => exact Or.inr ⟨rfl, handle_of_not_admitted hadmitted⟩
    | some admitted =>
      obtain ⟨op, t⟩ := admitted
      obtain ⟨hbackend, hhandle⟩ := handle_of_admitted hadmitted
      -- the caller was established without the backend, so the operation finds it as it was
      have hresult : (t.operate now op).1 = History.result ⟨past, s.backend⟩ now.stamp op := by
        rw [operate, hbackend]
        rfl
      have hserved : (s.nextStep.respond now r).2.backend = (t.operate now op).2.backend :=
        congrArg (fun p => p.2.backend) hhandle
      refine Or.inl ⟨now.stamp, op, by rw [← hresult]; rfl, ?_⟩
      rw [hserved, operate, hbackend]
      rfl
  | identify now token =>
    simp only [visit]
    split <;> exact Or.inr ⟨rfl, rfl⟩
  | refreshKeys now =>
    simp only [visit]
    split <;> exact Or.inr ⟨rfl, rfl⟩
  | login username password => exact Or.inr ⟨rfl, rfl⟩
  | refresh token => exact Or.inr ⟨rfl, rfl⟩
  | ping database => exact Or.inr ⟨rfl, rfl⟩

/-- What is kept by every operation, and by the passing of a step, is kept by all visits. -/
theorem visitAll_induction {P : History → Prop} (serve : ∀ h now op, P h → P (h.serve now op))
    (pass : ∀ h : History, P h → P ⟨h.events, h.backend.nextStep⟩) (vs : List Visit) {past : List Event}
    (first : P ⟨past, s.backend⟩) : P ⟨past ++ (s.visitAll vs).1, (s.visitAll vs).2.backend⟩ := by
  induction vs generalizing s past with
  | nil => simpa [visitAll] using first
  | cons v vs ih =>
    have hstep : P ⟨past ++ (s.visit v).1.toList, (s.visit v).2.backend⟩ := by
      rcases s.visit_serves v past with ⟨now, op, he, hb⟩ | ⟨he, hb⟩
      · rw [he, hb]
        exact serve _ now op first
      · rw [he, hb]
        simpa using pass _ first
    have hrest := ih hstep
    rw [List.append_assoc] at hrest
    exact hrest

/-- The requests of a caller who is known serve the operations that they come to. -/
theorem visitAll_of_plans {caller : Option Caller} {asked : List (Request × Operation)} {past : List Event}
    (known : ∀ t : Server, t.verifier = s.verifier → ∀ a ∈ asked, t.authenticate now a.1 = (.ok caller, t))
    (comes : ∀ a ∈ asked, s.plan caller a.1 = .ok (.perform a.2)) :
    (s.visitAll (asked.map fun a => .request now a.1)).2.backend =
      (History.serveAll ⟨past, s.backend⟩ (asked.map fun a => (now.stamp, a.2))).backend := by
  induction asked generalizing s past with
  | nil => rfl
  | cons a asked ih =>
    have hplan : s.nextStep.plan caller a.1 = .ok (.perform a.2) := comes a List.mem_cons_self
    have hvisit : (s.visit (.request now a.1)).2 =
        { s with backend := (History.serve ⟨past, s.backend⟩ now.stamp a.2).backend, requests := s.requests + 1 } := by
      simp only [visit, respond, handle, known s.nextStep rfl a List.mem_cons_self, hplan]
      rfl
    simp only [List.map_cons, visitAll, History.serveAll, hvisit]
    exact ih (fun t ht a ha => known t ht a (List.mem_cons_of_mem _ ha)) fun a ha =>
      comes a (List.mem_cons_of_mem _ ha)

end Coursework.Server
