import Coursework.Failure
import Coursework.Http.Form
import Coursework.Provider.TokenReply
import Coursework.Settings
import Coursework.Token.Key

/-!
# The identity provider

The server asks the provider for its keys and exchanges credentials for tokens.  What the provider will answer is a
script of replies; what it was sent is remembered.  There is one script for both of its endpoints, which are served in
the order in which they are asked.
-/

namespace Coursework

/-- What the server sees of an exchange in the end: it has followed all redirections, so a reply names no other place to
ask, and one with a status of 300 or more just has no success. -/
inductive ProviderReply
  | answer (status : Nat) (body : Bytes)
  | dropped
  deriving DecidableEq, Repr

structure ProviderRequest where
  url : String
  /-- The form of a token request; a request for keys has none. -/
  form : Option String
  deriving DecidableEq, Repr

structure Provider where
  keysUrl : String
  tokenUrl : String
  clientId : String
  clientSecret : Option String
  script : List ProviderReply
  sent : List ProviderRequest
  deriving DecidableEq

namespace Provider

def ofSettings (s : Settings) (script : List ProviderReply) : Provider where
  keysUrl := s.keysUrl
  tokenUrl := s.tokenUrl
  clientId := s.clientId
  clientSecret := s.clientSecret
  script := script
  sent := []

/-- Sends a request and takes the next reply; a provider without a script is out of order. -/
def send (p : Provider) (r : ProviderRequest) : ProviderReply × Provider :=
  let p := { p with sent := p.sent ++ [r] }
  match p.script with
  | [] => (.answer 500 [], p)
  | reply :: rest => (reply, { p with script := rest })

def isSuccess (status : Nat) : Bool := 200 ≤ status && status < 300

def unreachable : Failure := .identityProvider "connection closed"

def unreadable (d : Json.Defect) : Failure := .identityProvider d.message

/-- Reads the body of a reply, or says what a reply without success means. -/
def readReply {α : Type} (codec : Json.Codec α) (refused : Nat → Failure) : ProviderReply → Except Failure α
  | .dropped => .error unreachable
  | .answer status body =>
    if isSuccess status then (codec.read body).mapError unreadable else .error (refused status)

def keysRefused (status : Nat) : Failure := .identityProvider ("JWKS endpoint returned " ++ toString status)

def fetchKeys (p : Provider) : Except Failure KeySet × Provider :=
  let (reply, p) := p.send ⟨p.keysUrl, none⟩
  (readReply KeySet.codec keysRefused reply, p)

/-- Refused credentials are the caller's fault, anything else the provider's. -/
def tokensRefused (status : Nat) : Failure :=
  if status = 400 ∨ status = 401 then .unauthorized "Invalid credentials"
  else .identityProvider ("Token endpoint returned " ++ toString status)

/-- The fields that every token request begins with. -/
def clientFields (p : Provider) : List (String × String) :=
  ("client_id", p.clientId) :: (p.clientSecret.map fun s => ("client_secret", s)).toList

def requestTokens (p : Provider) (grant : List (String × String)) : Except Failure TokenReply × Provider :=
  let (reply, p) := p.send ⟨p.tokenUrl, some (Form.write (p.clientFields ++ grant))⟩
  (readReply TokenReply.codec tokensRefused reply, p)

def login (p : Provider) (username password : String) : Except Failure TokenReply × Provider :=
  p.requestTokens [("grant_type", "password"), ("username", username), ("password", password)]

def refresh (p : Provider) (token : String) : Except Failure TokenReply × Provider :=
  p.requestTokens [("grant_type", "refresh_token"), ("refresh_token", token)]

end Provider

end Coursework
