import Coursework.Server.Answer
import Coursework.Store.Backend
import Coursework.Token.Verifier

/-!
# The server

A request goes through four steps: its caller is established, its endpoint is found, the caller is admitted, and the
request is read.  Whichever step refuses first gives the answer; otherwise the action is carried out.
-/

namespace Coursework

structure Server where
  settings : Settings
  backend : Backend
  verifier : Option Verifier
  provider : Provider
  database : DatabaseStatus
  /-- Identifiers of requests, in the order in which these come. -/
  requestIds : Nat → Uuid
  requests : Nat

namespace Server

def noVerifier : Failure := .internal "JWT verifier not configured"

def noBearer : Failure := .unauthorized "Authorization header must carry a bearer token"

def scheme : Bytes := Bytes.ofText "Bearer "

def shortestBearer : Nat := 8

/-- The token of a header that carries one. -/
def bearer? (value : Bytes) : Option Bytes :=
  if shortestBearer ≤ value.length && Header.isPrintable value && scheme.isPrefixOf value then
    some (value.drop scheme.length)
  else none

/-- Verifies a token. -/
def identify (s : Server) (v : Verifier) (now : Moment) (token : Bytes) : Except Failure Caller × Server :=
  let (r, v, p) := v.verify s.provider now token
  (r, { s with verifier := some v, provider := p })

/-- The caller of a request; one without credentials has none. -/
def authenticate (s : Server) (now : Moment) (r : Request) : Except Failure (Option Caller) × Server :=
  match r.header? "authorization" with
  | none => (.ok none, s)
  | some value =>
    match s.verifier, bearer? value with
    | none, _ => (.error noVerifier, s)
    | some _, none => (.error noBearer, s)
    | some v, some token =>
      let (c, s) := s.identify v now token
      (c.map some, s)

def tell {α : Type} (f : α → Response) : Except Failure α → Response
  | .ok v => f v
  | .error e => .refused e

/-- Carries out an operation. -/
def operate (s : Server) (now : Moment) (op : Operation) : Except Failure op.Result × Server :=
  let (r, b) := s.backend.run (op.program now.stamp)
  (r, { s with backend := b })

def login (s : Server) (username password : String) : Except Failure TokenReply × Server :=
  let (r, p) := s.provider.login username password
  (r, { s with provider := p })

def refresh (s : Server) (token : String) : Except Failure TokenReply × Server :=
  let (r, p) := s.provider.refresh token
  (r, { s with provider := p })

def tokens (r : Except Failure TokenReply) : Response := tell (.encoded 200 TokenReply.codec) r

def perform (s : Server) (now : Moment) : Action → Response × Server
  | .perform op => let (r, s) := s.operate now op; (tell op.respond r, s)
  | .login l => let (r, s) := s.login l.username l.password; (tokens r, s)
  | .refresh l => let (r, s) := s.refresh l.refreshToken; (tokens r, s)
  | .me c => (.json 200 c.encode, s)
  | .health => (Health.alive, s)
  | .ready => (Health.readiness s.database, s)

/-- What a request of this caller comes to. -/
def plan (s : Server) (caller : Option Caller) (r : Request) : Except Response Action :=
  match Endpoint.route r.method r.target.segments with
  | none => .error (.bare 404)
  | some e =>
    match e.allow caller with
    | .error f => .error (.refused f)
    | .ok () => (e.action r caller s.settings.maxUploadBytes).mapError Refusal.response

/-- Answers a request. -/
def handle (s : Server) (now : Moment) (r : Request) : Response × Server :=
  match s.authenticate now r with
  | (.error f, s) => (.refused f, s)
  | (.ok caller, s) =>
    match s.plan caller r with
    | .error answer => (answer, s)
    | .ok action => s.perform now action

/-- Answers a request and numbers it. -/
def respond (s : Server) (now : Moment) (r : Request) : Response × Server :=
  let (answer, t) := s.handle now r
  ({ answer with requestId := some (s.requestIds s.requests) }, { t with requests := s.requests + 1 })

end Server

end Coursework
