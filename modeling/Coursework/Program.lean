import Coursework.Store.Call

/-!
# Programs over the store

What a request does is a program: it calls the store, draws fresh identifiers, and ends with a value or a failure.
A program says nothing about how its calls are answered, so it can be run alone, with failing calls, or call by call
beside others.
-/

namespace Coursework

inductive Program (α : Type) : Type
  | done (r : Except Failure α)
  | call (c : Call) (next : Except Failure c.Answer → Program α)
  | drawId (next : Uuid → Program α)
  | drawKey (next : Uuid → Program α)

namespace Program

/-- Goes on with the outcome of a program, whatever it is. -/
def andThen {α β : Type} (p : Program α) (f : Except Failure α → Program β) : Program β :=
  match p with
  | done r => f r
  | call c next => call c fun r => (next r).andThen f
  | drawId next => drawId fun u => (next u).andThen f
  | drawKey next => drawKey fun u => (next u).andThen f

def ok {α : Type} (x : α) : Program α := done (.ok x)

def fail {α : Type} (f : Failure) : Program α := done (.error f)

/-- Goes on with the value of a program, unless it failed. -/
def bind {α β : Type} (p : Program α) (f : α → Program β) : Program β :=
  p.andThen fun
    | .ok x => f x
    | .error e => fail e

instance : Monad Program where
  pure := ok
  bind := bind

/-- The outcome of a program as a value. -/
def attempt {α : Type} (p : Program α) : Program (Except Failure α) := p.andThen ok

/-- One call. -/
def ask (c : Call) : Program c.Answer := call c done

def freshId : Program Uuid := drawId ok

def freshKey : Program Uuid := drawKey ok

def ofExcept {α : Type} (r : Except Failure α) : Program α := done r

/-- Fails unless the condition holds. -/
def require (condition : Bool) (f : Failure) : Program Unit := if condition then ok () else fail f

theorem andThen_done {α : Type} (p : Program α) : p.andThen done = p := by
  induction p with
  | done r => rfl
  | call c next ih => simp only [andThen]; congr; funext r; exact ih r
  | drawId next ih => simp only [andThen]; congr; funext u; exact ih u
  | drawKey next ih => simp only [andThen]; congr; funext u; exact ih u

end Program

end Coursework
