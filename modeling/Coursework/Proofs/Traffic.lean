import Coursework.Proofs.Failures

/-!
# Traffic

Operations under way beside each other.  A schedule says whose turn it is, and at its turn an operation makes one call
or draws one identifier, so that between two calls of one operation any calls of others can lie.  What holds however
they meet follows from what each operation may call after the answers it has got, and from what one call can do.
-/
namespace Coursework

open Program

namespace Program

variable {α β : Type} {may : List Exchange → Call → Prop} {ends : List Exchange → Except Failure α → Prop}
  {past : List Exchange}

/-- Whatever its calls are answered and whatever it draws, a program makes only the calls that it may make after the
exchanges it has had, and ends only as it may. -/
def Keeps (may : List Exchange → Call → Prop) (ends : List Exchange → Except Failure α → Prop) :
    List Exchange → Program α → Prop
  | past, .done r => ends past r
  | past, .call c next => may past c ∧ ∀ r, Keeps may ends (past ++ [⟨c, r⟩]) (next r)
  | past, .drawId next => ∀ u, Keeps may ends past (next u)
  | past, .drawKey next => ∀ u, Keeps may ends past (next u)

theorem keeps_weaken {p : Program α} {ends' : List Exchange → Except Failure α → Prop} (h : p.Keeps may ends past)
    (weaker : ∀ past' r, ends past' r → ends' past' r) : p.Keeps may ends' past := by
  induction p generalizing past with
  | done r => exact weaker past r h
  | call c rest ih => exact ⟨h.1, fun r => ih r (h.2 r)⟩
  | drawId rest ih => exact fun u => ih u (h u)
  | drawKey rest ih => exact fun u => ih u (h u)

theorem keeps_andThen {p : Program β} {f : Except Failure β → Program α} {mid : List Exchange → Except Failure β → Prop}
    (h : p.Keeps may mid past) (next : ∀ past' r, mid past' r → (f r).Keeps may ends past') :
    (p.andThen f).Keeps may ends past := by
  induction p generalizing past with
  | done r => exact next past r h
  | call c rest ih => exact ⟨h.1, fun r => ih r (h.2 r)⟩
  | drawId rest ih => exact fun u => ih u (h u)
  | drawKey rest ih => exact fun u => ih u (h u)

theorem keeps_bind {p : Program β} {f : β → Program α} {mid : List Exchange → Except Failure β → Prop}
    (h : p.Keeps may mid past) (ok : ∀ past' x, mid past' (.ok x) → (f x).Keeps may ends past')
    (error : ∀ past' e, mid past' (.error e) → ends past' (.error e)) : (p >>= f).Keeps may ends past := by
  refine keeps_andThen h fun past' r hr => ?_
  cases r with
  | ok x => exact ok past' x hr
  | error e => exact error past' e hr

theorem keeps_ask {c : Call} {f : c.Answer → Program α} (call : may past c)
    (ok : ∀ x, (f x).Keeps may ends (past ++ [⟨c, .ok x⟩]))
    (error : ∀ e, ends (past ++ [⟨c, .error e⟩]) (.error e)) : (ask c >>= f).Keeps may ends past := by
  refine ⟨call, fun r => ?_⟩
  cases r with
  | ok x => exact ok x
  | error e => exact error e

theorem keeps_last {c : Call} {ends : List Exchange → Except Failure c.Answer → Prop} (call : may past c)
    (last : ∀ r, ends (past ++ [⟨c, r⟩]) r) : (ask c).Keeps may ends past := ⟨call, last⟩

theorem keeps_attempt {c : Call} {f : Except Failure c.Answer → Program α} (call : may past c)
    (next : ∀ r, (f r).Keeps may ends (past ++ [⟨c, r⟩])) : (attempt (ask c) >>= f).Keeps may ends past :=
  ⟨call, next⟩

theorem keeps_require {condition : Bool} {e : Failure} {f : Unit → Program α}
    (holds : condition = true → (f ()).Keeps may ends past) (fails : condition = false → ends past (.error e)) :
    (require condition e >>= f).Keeps may ends past := by
  cases condition with
  | true => exact holds rfl
  | false => exact fails rfl

theorem keeps_ofExcept {r : Except Failure β} {f : β → Program α} (ok : ∀ x, r = .ok x → (f x).Keeps may ends past)
    (error : ∀ e, r = .error e → ends past (.error e)) : (ofExcept r >>= f).Keeps may ends past := by
  cases r with
  | ok x => exact ok x rfl
  | error e => exact error e rfl

theorem keeps_freshId {f : Uuid → Program α} (h : ∀ u, (f u).Keeps may ends past) :
    (freshId >>= f).Keeps may ends past := h

theorem keeps_freshKey {f : Uuid → Program α} (h : ∀ u, (f u).Keeps may ends past) :
    (freshKey >>= f).Keeps may ends past := h

end Program

namespace Backend

variable {m : Mishaps} {b : Backend} {α : Type}

/-- One step of a program: what is left of it, what it called if it did, and the backend after it. -/
def turn (b : Backend) : Program α → Program α × Option Exchange × Backend
  | .done r => (.done r, none, b)
  | .call c next => (next (b.perform c).1, some ⟨c, (b.perform c).1⟩, (b.perform c).2)
  | .drawId next => (next (b.ids b.idsDrawn), none, { b with idsDrawn := b.idsDrawn + 1 })
  | .drawKey next => (next (b.keys b.keysDrawn), none, { b with keysDrawn := b.keysDrawn + 1 })

theorem turn_keeps {may : List Exchange → Call → Prop} {ends : List Exchange → Except Failure α → Prop}
    {past : List Exchange} {p : Program α} (b : Backend) (h : p.Keeps may ends past) :
    (b.turn p).1.Keeps may ends (past ++ (b.turn p).2.1.toList) := by
  cases p with
  | done r => exact (List.append_nil past).symm ▸ h
  | call c next => exact h.2 _
  | drawId next => exact (List.append_nil past).symm ▸ h _
  | drawKey next => exact (List.append_nil past).symm ▸ h _

/-- A turn leaves the store alone, or answers the one call that is due. -/
theorem turn_answers (h : b.Allows m) (p : Program α) :
    (b.turn p).2.2.Allows m ∧
      (((b.turn p).2.1 = none ∧ (b.turn p).2.2.store = b.store) ∨
        ∃ c next r, p = .call c next ∧ (b.turn p).2.1 = some ⟨c, r⟩ ∧
          b.store.Answers m c r (b.turn p).2.2.store) := by
  cases p with
  | call c next =>
    obtain ⟨store, plan, armed, he, ha, hr⟩ := perform_replies h c
    have hs : (b.perform c).2.store = store := by rw [he]; rfl
    exact ⟨ha, Or.inr ⟨c, next, _, rfl, rfl, hs ▸ hr⟩⟩
  | _ => exact ⟨h, Or.inl ⟨rfl, rfl⟩⟩

end Backend

/-- An operation under way: when it was asked, and what is left of its program. -/
structure Task where
  now : Timestamp
  op : Operation
  rest : Program op.Result

namespace Task

def start (request : Timestamp × Operation) : Task := ⟨request.1, request.2, request.2.program request.1⟩

/-- What was asked, and when. -/
def request (task : Task) : Timestamp × Operation := (task.now, task.op)

def isDone (task : Task) : Bool :=
  match task.rest with
  | .done _ => true
  | _ => false

theorem rest_of_isDone {task : Task} (h : task.isDone = true) : ∃ r, task.rest = .done r := by
  unfold isDone at h
  split at h
  · exact ⟨_, ‹_›⟩
  · cases h

end Task

/-- Operations under way, the calls that they have made so far with their answers, and the backend. -/
structure Traffic where
  tasks : List Task
  log : List (Nat × Exchange)
  backend : Backend

namespace Traffic

def start (b : Backend) (requests : List (Timestamp × Operation)) : Traffic := ⟨requests.map Task.start, [], b⟩

/-- The operation at a place has its turn; where there is none, or none that goes on, nothing happens. -/
def turn (t : Traffic) (i : Nat) : Traffic :=
  match t.tasks[i]? with
  | none => t
  | some task =>
    let (rest, said, b) := t.backend.turn task.rest
    ⟨t.tasks.set i { task with rest }, t.log ++ (said.map fun e => (i, e)).toList, b⟩

/-- Everyone has a turn in the order of the schedule. -/
def run (t : Traffic) (schedule : List Nat) : Traffic := schedule.foldl turn t

def isFinished (t : Traffic) : Bool := t.tasks.all Task.isDone

abbrev store (t : Traffic) : Store := t.backend.store

/-- The exchanges of one operation. -/
def own (i : Nat) (log : List (Nat × Exchange)) : List Exchange :=
  log.filterMap fun (j, e) => if j = i then some e else none

variable {t : Traffic} {i j : Nat} {log : List (Nat × Exchange)}

theorem own_append (i : Nat) (log log' : List (Nat × Exchange)) : own i (log ++ log') = own i log ++ own i log' :=
  List.filterMap_append

theorem own_said (i : Nat) (said : Option Exchange) : own i (said.map fun e => (i, e)).toList = said.toList := by
  cases said <;> simp [own]

theorem own_said_of_ne (h : i ≠ j) (said : Option Exchange) : own j (said.map fun e => (i, e)).toList = [] := by
  cases said <;> simp [own, h]

theorem mem_own {e : Exchange} : e ∈ own i log ↔ (i, e) ∈ log := by
  simp [own, List.mem_filterMap]

theorem run_cons (t : Traffic) (i : Nat) (schedule : List Nat) : t.run (i :: schedule) = (t.turn i).run schedule := rfl

theorem run_append (t : Traffic) (schedule later : List Nat) :
    t.run (schedule ++ later) = (t.run schedule).run later := List.foldl_append

theorem turn_log (t : Traffic) (i : Nat) : t.log <+: (t.turn i).log := by
  unfold turn
  split
  · exact List.prefix_refl _
  · exact List.prefix_append _ _

/-- What has been called stays on record. -/
theorem run_log (t : Traffic) (schedule : List Nat) : t.log <+: (t.run schedule).log := by
  induction schedule generalizing t with
  | nil => exact List.prefix_refl _
  | cons i schedule ih => exact (t.turn_log i).trans (ih (t.turn i))

section

variable {m : Mishaps} {may : Timestamp → Operation → List Exchange → Call → Prop}
  {ends : Timestamp → (op : Operation) → List Exchange → Except Failure op.Result → Prop}
  {requests : List (Timestamp × Operation)}

/-- The tasks are those of the requests, and each keeps to what it may call and how it may end, after its own
exchanges. -/
structure Follows (may : Timestamp → Operation → List Exchange → Call → Prop)
    (ends : Timestamp → (op : Operation) → List Exchange → Except Failure op.Result → Prop)
    (requests : List (Timestamp × Operation)) (t : Traffic) : Prop where
  asked : t.tasks.map Task.request = requests
  keeps : ∀ (i : Nat) (task : Task), t.tasks[i]? = some task →
    task.rest.Keeps (may task.now task.op) (ends task.now task.op) (own i t.log)

theorem start_follows (b : Backend)
    (h : ∀ now op, (now, op) ∈ requests → (op.program now).Keeps (may now op) (ends now op) []) :
    (start b requests).Follows may ends requests where
  asked := by
    have hid : Task.request ∘ Task.start = id := rfl
    rw [start, List.map_map, hid, List.map_id]
  keeps := by
    intro i task htask
    rw [start, List.getElem?_map, Option.map_eq_some_iff] at htask
    obtain ⟨⟨now, op⟩, hrequest, rfl⟩ := htask
    exact h now op (List.mem_of_getElem? hrequest)

theorem Follows.request {task : Task} (h : t.Follows may ends requests) (htask : t.tasks[i]? = some task) :
    requests[i]? = some (task.now, task.op) := by
  rw [← h.asked, List.getElem?_map, htask]
  rfl

theorem Follows.task {now : Timestamp} {op : Operation} (h : t.Follows may ends requests)
    (hrequest : requests[i]? = some (now, op)) : ∃ rest, t.tasks[i]? = some ⟨now, op, rest⟩ := by
  rw [← h.asked, List.getElem?_map, Option.map_eq_some_iff] at hrequest
  obtain ⟨task, htask, he⟩ := hrequest
  cases he
  exact ⟨task.rest, htask⟩

theorem Follows.turn (h : t.Follows may ends requests) (i : Nat) : (t.turn i).Follows may ends requests := by
  unfold Traffic.turn
  split
  · exact h
  rename_i task htask
  obtain ⟨hi, -⟩ := List.getElem?_eq_some_iff.mp htask
  refine ⟨?_, fun j task' htask' => ?_⟩
  · have hrequest : (t.tasks.map Task.request)[i]? = some (task.now, task.op) := by
      rw [List.getElem?_map, htask]
      rfl
    obtain ⟨hi', hsame⟩ := List.getElem?_eq_some_iff.mp hrequest
    rw [← h.asked, List.map_set, Task.request, ← hsame]
    exact List.set_getElem_self hi'
  · simp only [own_append]
    by_cases hj : i = j
    · subst hj
      rw [List.getElem?_set_self hi] at htask'
      cases htask'
      rw [own_said]
      exact Backend.turn_keeps t.backend (h.keeps i task htask)
    · rw [List.getElem?_set_ne hj] at htask'
      rw [own_said_of_ne hj, List.append_nil]
      exact h.keeps j task' htask'

theorem Follows.run (h : t.Follows may ends requests) (schedule : List Nat) :
    (t.run schedule).Follows may ends requests := by
  induction schedule generalizing t with
  | nil => exact h
  | cons i schedule ih => exact ih (h.turn i)

/-- How an operation has ended is one of the ways in which it may end. -/
theorem Follows.ended {now : Timestamp} {op : Operation} {r : Except Failure op.Result}
    (h : t.Follows may ends requests) (hdone : t.tasks[i]? = some ⟨now, op, .done r⟩) :
    ends now op (own i t.log) r := h.keeps i _ hdone

theorem turn_allows (h : t.backend.Allows m) (i : Nat) : (t.turn i).backend.Allows m := by
  unfold Traffic.turn
  split
  · exact h
  · exact (Backend.turn_answers h _).1

/-- What holds of the calls so far and the store, and is kept by every call that an operation may make, holds however
the operations meet. -/
theorem run_induction {P : List (Nat × Exchange) → Store → Prop} (hf : t.Follows may ends requests)
    (hb : t.backend.Allows m) (first : P t.log t.store)
    (step : ∀ log s i now op c r s', requests[i]? = some (now, op) → may now op (own i log) c → s.Answers m c r s' →
      P log s → P (log ++ [(i, ⟨c, r⟩)]) s') (schedule : List Nat) :
    P (t.run schedule).log (t.run schedule).store := by
  induction schedule generalizing t with
  | nil => exact first
  | cons i schedule ih =>
    refine ih (hf.turn i) (turn_allows hb i) ?_
    unfold turn
    split
    · exact first
    rename_i task htask
    obtain ⟨-, ⟨hsaid, hstore⟩ | ⟨c, next, r, hrest, hsaid, hanswer⟩⟩ := Backend.turn_answers hb task.rest
    · simpa [hsaid, store, hstore] using first
    · have hmay : may task.now task.op (own i t.log) c := by
        have hkeeps := hf.keeps i task htask
        rw [hrest] at hkeeps
        exact hkeeps.1
      simpa [hsaid] using step t.log t.store i _ _ c r _ (hf.request htask) hmay hanswer first

/-- A finished operation has a result. -/
theorem Follows.result {now : Timestamp} {op : Operation} (h : t.Follows may ends requests)
    (finished : t.isFinished = true) (hrequest : requests[i]? = some (now, op)) :
    ∃ r, t.tasks[i]? = some ⟨now, op, .done r⟩ := by
  obtain ⟨rest, htask⟩ := h.task hrequest
  obtain ⟨r, hr : rest = .done r⟩ :=
    Task.rest_of_isDone (List.all_eq_true.mp finished _ (List.mem_of_getElem? htask))
  exact ⟨r, htask.trans (congrArg (fun rest => some (Task.mk now op rest)) hr)⟩

end

end Traffic

end Coursework
