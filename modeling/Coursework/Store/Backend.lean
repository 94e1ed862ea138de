import Coursework.Program
import Coursework.Store.Fault

/-!
# The backend

The store with everything that decides how calls are answered: the identifiers still to be drawn and the faults
still to come.  It also remembers what was asked of the blob store.
-/

namespace Coursework

/-- What was asked of the blob store. -/
inductive BlobEvent
  | put (key : String) (size : Nat)
  | get (key : String)
  | remove (key : String)
  deriving DecidableEq, Repr

structure Backend where
  store : Store
  /-- Identifiers for rows, in the order in which they are drawn. -/
  ids : Nat → Uuid
  idsDrawn : Nat
  /-- Identifiers for storage keys. -/
  keys : Nat → Uuid
  keysDrawn : Nat
  blobLog : List BlobEvent
  plan : List PlannedFault
  /-- Faults that wait for their command in the current step. -/
  armed : List CommandFault

namespace Backend

def start (ids keys : Nat → Uuid) (plan : List PlannedFault) : Backend :=
  { store := .empty, ids, idsDrawn := 0, keys, keysDrawn := 0, blobLog := [], plan, armed := [] }

/-- The error that a command meets, if any. -/
def issue (b : Backend) (c : Command) : Option DatabaseError × Backend :=
  match CommandFault.take? c b.armed with
  | some (e, rest) => (some e, { b with armed := rest })
  | none => (none, b)

/-- Carries a call out on the store. -/
def commit (b : Backend) (c : Call) : Except Failure c.Answer × Backend :=
  let (r, s) := b.store.apply c
  (r, { b with store := s })

def blobFailed (key : String) : Failure := .storage ("Failed to reach blob '" ++ key ++ "'")

/-- A command before something else. -/
def after {α : Type} (b : Backend) (c : Command) (failed : DatabaseError → Except Failure α)
    (next : Backend → Except Failure α × Backend) : Except Failure α × Backend :=
  match b.issue c with
  | (some e, b) => (failed e, b)
  | (none, b) => next b

/-- An empty blob has no chunks. -/
def afterChunks {α : Type} (b : Backend) (verb : Verb) (bytes : Bytes) (failed : DatabaseError → Except Failure α)
    (next : Backend → Except Failure α × Backend) : Except Failure α × Backend :=
  if bytes = [] then next b else b.after ⟨verb, .blobChunks⟩ failed next

/-- Carries a call out command by command. -/
def execute (b : Backend) : (c : Call) → Except Failure c.Answer × Backend
  | .putBlob key bytes now =>
    b.afterChunks .insert bytes (fun _ => .error (blobFailed key)) fun b =>
      b.after ⟨.insert, .blobFiles⟩ (fun _ => .error (blobFailed key)) fun b =>
        b.commit (.putBlob key bytes now)
  | .getBlob key =>
    b.after ⟨.find, .blobFiles⟩ (fun _ => .error (blobFailed key)) fun b =>
      match b.store.blob? key with
      | none => (.error (Store.noBlob key), b)
      | some blob =>
        b.afterChunks .find blob.bytes (fun _ => .error (blobFailed key)) fun b => b.commit (.getBlob key)
  | .removeBlob key =>
    b.after ⟨.find, .blobFiles⟩ (fun _ => .error (blobFailed key)) fun b =>
      if (b.store.blob? key).isNone then (.ok false, b)
      else b.after ⟨.delete, .blobFiles⟩ (fun _ => .error (blobFailed key)) fun b =>
        let (r, b) := b.commit (.removeBlob key)
        b.after ⟨.delete, .blobChunks⟩ (fun _ => .error (blobFailed key)) fun b => (r, b)
  | .seekGrant user lesson =>
    b.after ⟨.update, .grants⟩ (fun e => .ok (.error e)) fun b => b.commit (.seekGrant user lesson)
  | c =>
    match c.command? with
    | some command => b.after command (fun e => .error e.failure) fun b => b.commit c
    | none => b.commit c

/-- What a call leaves in the log of the blob store. -/
def event? : Call → Option BlobEvent
  | .putBlob key bytes _ => some (.put key bytes.length)
  | .getBlob key => some (.get key)
  | .removeBlob key => some (.remove key)
  | _ => none

/-- Counts a call and arms the faults due at it; a refusal is answered at once. -/
def strike (b : Backend) (c : Call) : Option Failure × Backend :=
  match c.site? with
  | none => (none, b)
  | some site =>
    let (due, plan) := PlannedFault.strike site b.plan
    let b := { b with plan, blobLog := b.blobLog ++ (event? c).toList }
    match FaultEffect.refusal? due with
    | some f => (some f, b)
    | none => (none, { b with armed := b.armed ++ FaultEffect.commands due })

/-- Answers one call. -/
def perform (b : Backend) (c : Call) : Except Failure c.Answer × Backend :=
  match b.strike c with
  | (some f, b) => (.error f, b)
  | (none, b) => b.execute c

/-- Runs a program to its end. -/
def run {α : Type} (b : Backend) : Program α → Except Failure α × Backend
  | .done r => (r, b)
  | .call c next => let (r, b) := b.perform c; b.run (next r)
  | .drawId next => { b with idsDrawn := b.idsDrawn + 1 }.run (next (b.ids b.idsDrawn))
  | .drawKey next => { b with keysDrawn := b.keysDrawn + 1 }.run (next (b.keys b.keysDrawn))

/-- Faults that found no command are gone with their step. -/
def nextStep (b : Backend) : Backend := { b with armed := [] }

end Backend

end Coursework
