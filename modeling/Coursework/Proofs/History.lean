import Coursework.Proofs.Operations

/-!
# Histories

Operations are served one after another, each in a step of its own.  A history keeps what was asked and what came of
it beside the backend, so that a property of the backend can speak about the past.
-/
namespace Coursework

/-- An operation that was served, with what came of it. -/
structure Event where
  op : Operation
  result : Except Failure op.Result

/-- A backend with everything it has served. -/
structure History where
  events : List Event
  backend : Backend

namespace History

def start (ids keys : Nat → Uuid) (plan : List PlannedFault) : History := ⟨[], .start ids keys plan⟩

/-- What comes of an operation that is served next. -/
def result (h : History) (now : Timestamp) (op : Operation) : Except Failure op.Result :=
  (h.backend.nextStep.run (op.program now)).1

def serve (h : History) (now : Timestamp) (op : Operation) : History :=
  ⟨h.events ++ [⟨op, h.result now op⟩], (h.backend.nextStep.run (op.program now)).2⟩

def serveAll (h : History) : List (Timestamp × Operation) → History
  | [] => h
  | (now, op) :: steps => (h.serve now op).serveAll steps

/-- Nothing but these mishaps befalls an operation that is served next. -/
structure ServesWithin (h : History) (m : Mishaps) (now : Timestamp) (op : Operation) : Prop where
  within : h.backend.nextStep.Within m (op.program now)

/-- Whether nothing but these mishaps befalls any of the operations that are served next. -/
def AllWithin (h : History) (m : Mishaps) : List (Timestamp × Operation) → Prop
  | [] => True
  | (now, op) :: steps => h.ServesWithin m now op ∧ (h.serve now op).AllWithin m steps

abbrev store (h : History) : Store := h.backend.store

variable {h : History} {m : Mishaps} {now : Timestamp} {op : Operation}

@[simp] theorem serve_events (h : History) (now : Timestamp) (op : Operation) :
    (h.serve now op).events = h.events ++ [⟨op, h.result now op⟩] := rfl

theorem servesWithin_anything (h : History) (now : Timestamp) (op : Operation) : h.ServesWithin .anything now op :=
  ⟨(Backend.within_of_allows (Backend.allows_anything _) _).1⟩

theorem serve_outcome (hw : h.ServesWithin m now op) :
    op.Outcome m now (h.backend.ids h.backend.idsDrawn) (h.backend.keys h.backend.keysDrawn) h.store
      (h.result now op) (h.serve now op).store :=
  program_ends op hw.within

theorem serve_allows (ha : h.backend.Allows m) (now : Timestamp) (op : Operation) :
    h.ServesWithin m now op ∧ (h.serve now op).backend.Allows m := by
  have hnext : h.backend.nextStep.Allows m := ⟨ha.1, fun f hf => by cases hf⟩
  obtain ⟨hw, hend⟩ := Backend.within_of_allows hnext (op.program now)
  exact ⟨⟨hw⟩, hend⟩

/-- What holds at first and is kept by every operation holds at the end. -/
theorem serveAll_induction {P : History → Prop} (first : P h)
    (step : ∀ h now op, P h → P (h.serve now op)) (steps : List (Timestamp × Operation)) : P (h.serveAll steps) := by
  induction steps generalizing h with
  | nil => exact first
  | cons s steps ih => exact ih (step h s.1 s.2 first)

theorem serveAll_append (h : History) (first second : List (Timestamp × Operation)) :
    h.serveAll (first ++ second) = (h.serveAll first).serveAll second := by
  induction first generalizing h with
  | nil => rfl
  | cons step first ih => exact ih (h.serve step.1 step.2)

/-- Where only such faults are planned, only such mishaps befall the operations. -/
theorem serveAll_allows (ha : h.backend.Allows m) (steps : List (Timestamp × Operation)) :
    h.AllWithin m steps ∧ (h.serveAll steps).backend.Allows m := by
  induction steps generalizing h with
  | nil => exact ⟨trivial, ha⟩
  | cons step steps ih =>
    obtain ⟨hw, ha'⟩ := serve_allows ha step.1 step.2
    obtain ⟨hrest, hend⟩ := ih ha'
    exact ⟨⟨hw, hrest⟩, hend⟩

theorem serve_keys (h : History) (now : Timestamp) (op : Operation) :
    (h.serve now op).backend.keys = h.backend.keys ∧ h.backend.keysDrawn ≤ (h.serve now op).backend.keysDrawn :=
  Backend.run_keys h.backend.nextStep (op.program now)

theorem serveAll_keys (h : History) (steps : List (Timestamp × Operation)) :
    (h.serveAll steps).backend.keys = h.backend.keys ∧
      h.backend.keysDrawn ≤ (h.serveAll steps).backend.keysDrawn := by
  induction steps generalizing h with
  | nil => exact ⟨rfl, Nat.le_refl _⟩
  | cons step steps ih =>
    obtain ⟨hkeys, hdrawn⟩ := h.serve_keys step.1 step.2
    obtain ⟨hkeys', hdrawn'⟩ := ih (h.serve step.1 step.2)
    exact ⟨hkeys'.trans hkeys, Nat.le_trans hdrawn hdrawn'⟩

def sampleTime : Timestamp := .ofUnix 0

def sampleOperations : List Operation :=
  [.createCourse ⟨"Logic", ""⟩,
    .addChapter (Uuid.numbered 0).text ⟨"Sets", "", 1, none⟩,
    .addLesson (Uuid.numbered 1).text ⟨"Unions", "", "", 1, none⟩,
    .upload (Uuid.numbered 2).text "week 1/slides.pdf" [0, 255, 16]]

/-- What the sample operations lead to when nothing fails. -/
def sample : History := (start .numbered .numbered []).serveAll (sampleOperations.map fun op => (sampleTime, op))

theorem sample_allows (m : Mishaps) : sample.backend.Allows m := by
  have hstart : (start .numbered .numbered []).backend.Allows m :=
    ⟨List.forall_mem_nil _, List.forall_mem_nil _⟩
  exact (serveAll_allows hstart _).2

end History

end Coursework
