import Coursework.Server.Basic

/-!
# The gatehouse

A server with a single page, which tells callers who hold one of some roles who they are.  Its requests have no
identifiers.
-/

namespace Coursework.Gatehouse

def page (caller : Option Caller) : Response :=
  .json 200 (.obj [("subject", (caller.map fun c => Json.str c.subject).getD .null), ("has_request_id", .bool false)])

/-- Answers a request of this caller. -/
def answer (gate : List String) (caller : Option Caller) (r : Request) : Response :=
  if r.target.segments ≠ [""] then .bare 404
  else match Gate.check gate caller with
    | .error f => .refused f
    | .ok () => if r.method = "GET" then page caller else .bare 405

def respond (gate : List String) (s : Server) (now : Moment) (r : Request) : Response × Server :=
  match s.authenticate now r with
  | (.error f, s) => (.refused f, s)
  | (.ok caller, s) => (answer gate caller r, s)

end Coursework.Gatehouse
