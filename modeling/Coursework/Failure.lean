/-!
# Failures

Every refusal of the course server is one of eleven kinds with a detail.  A kind fixes the HTTP status and the
heading of the message; failures on the server's side keep their detail to themselves.
-/

namespace Coursework

inductive FailureKind
  | invalidInput
  | notFound
  | parentNotFound
  | conflict
  | unauthorized
  | forbidden
  | accessDenied
  | storage
  | database
  | identityProvider
  | internal
  deriving DecidableEq, Repr, Inhabited

namespace FailureKind

def heading : FailureKind → String
  | invalidInput => "Invalid input: "
  | notFound => "Not found: "
  | parentNotFound => "Parent not found: "
  | conflict => "Conflict: "
  | unauthorized => "Unauthorized: "
  | forbidden => "Forbidden: "
  | accessDenied => "Access denied: "
  | storage => "Storage error: "
  | database => "Database error: "
  | identityProvider => "Identity provider error: "
  | internal => "Internal server error: "

def status : FailureKind → Nat
  | invalidInput => 400
  | notFound => 404
  | parentNotFound => 404
  | conflict => 409
  | unauthorized => 401
  | forbidden => 403
  | accessDenied => 403
  | storage => 500
  | database => 500
  | identityProvider => 502
  | internal => 500

/-- Failures with a status of 500 or more are the server's own. -/
def isServerSide (k : FailureKind) : Bool := 500 ≤ k.status

end FailureKind

structure Failure where
  kind : FailureKind
  detail : String
  deriving DecidableEq, Repr, Inhabited

namespace Failure

/-- The full message, meant for the server's own eyes. -/
def display (f : Failure) : String := f.kind.heading ++ f.detail

/-- The message a client sees: nothing of a server-side failure but that it happened. -/
def publicMessage (f : Failure) : String :=
  match f.kind with
  | .storage | .database | .internal => "Internal server error"
  | .identityProvider => "Identity provider unavailable"
  | _ => f.display

def status (f : Failure) : Nat := f.kind.status

def invalidInput (detail : String) : Failure := ⟨.invalidInput, detail⟩
def notFound (detail : String) : Failure := ⟨.notFound, detail⟩
def parentNotFound (detail : String) : Failure := ⟨.parentNotFound, detail⟩
def conflict (detail : String) : Failure := ⟨.conflict, detail⟩
def unauthorized (detail : String) : Failure := ⟨.unauthorized, detail⟩
def forbidden (detail : String) : Failure := ⟨.forbidden, detail⟩
def accessDenied (detail : String) : Failure := ⟨.accessDenied, detail⟩
def storage (detail : String) : Failure := ⟨.storage, detail⟩
def database (detail : String) : Failure := ⟨.database, detail⟩
def identityProvider (detail : String) : Failure := ⟨.identityProvider, detail⟩
def internal (detail : String) : Failure := ⟨.internal, detail⟩

end Failure

end Coursework
