import Coursework.Settings
import Coursework.Token.Claims
import Coursework.Token.Header

/-!
# Verification of tokens

A token passes under a key when its algorithm is one that the key allows, its signature is right, its payload holds
the claims, it has not expired, and it does not name another issuer.
-/

namespace Coursework

open Json

/-- What a verifier expects of every token. -/
structure TokenPolicy where
  issuer : Option String
  rolesClient : String
  deriving DecidableEq, Repr

def TokenPolicy.ofSettings (s : Settings) : TokenPolicy where
  issuer := if s.checksIssuer then some s.issuerUrl else none
  rolesClient := s.rolesClient

/-- Seconds for which an expired token is still good. -/
def leeway : Int := 60

namespace RegisteredClaims

/-- The claims that every token may have.  The payload is read a second time for them: a value of the wrong type counts
as absent there, but one that was left half read spoils what follows it. -/
def names : List String := ["exp", "nbf", "sub", "iss", "aud"]

/-- Whether a value of the wrong type is left half read. -/
def isHalfRead (name : String) (n : Node) : Bool :=
  match name, n with
  | "nbf", .array (_ :: _) _ => true
  | "nbf", .object (_ :: _) _ => true
  | "iss", n => n.wholeFault?.isSome
  | "aud", n => n.wholeFault?.isSome
  | _, _ => false

def memberDefect? (seen : List String) : List (StringToken × Node) → Option Defect
  | [] => none
  | (k, n) :: ms =>
    match k.text with
    | .error _ => memberDefect? seen ms
    | .ok name =>
      if name ∈ names then
        if name ∈ seen then some (.duplicateField name)
        else if isHalfRead name n then some (.fault .expectedObjectComma)
        else memberDefect? (name :: seen) ms
      else memberDefect? seen ms

/-- The issuers that a payload names; none when it says nothing of the kind. -/
def issuers? : Node → Option (List String)
  | .string t => t.text.toOption.map fun s => [s]
  | .array items .closed => (items.mapM Codec.text.decode).toOption
  | _ => none

/-- A token is good if it does not expire before this.  The difference is taken in 64 bits without a sign, so within the
leeway of the epoch it wraps around. -/
def cutoff (now : Int) : Int := if leeway ≤ now then now - leeway else now - leeway + 0x10000000000000000

/-- Looks at the payload of a token whose claims were already read. -/
def check (policy : TokenPolicy) (now : Int) (claims : Claims) (payload : Bytes) : Except TokenError Unit :=
  match (Node.read payload).1 with
  | .object ms _ =>
    match memberDefect? [] ms with
    | some d => .error (.json d)
    | none =>
      if (claims.exp.toNat : Int) < cutoff now then .error .expired
      else match policy.issuer, (Fields.find? "iss" ms).bind issuers? with
        | some expected, some named => if expected ∈ named then .ok () else .error .issuer
        | _, _ => .ok ()
  | .array items _ => .error (if items.length = 5 then .missingClaim "exp" else .json (.fault .trailingCharacters))
  | _ => .error (.missingClaim "exp")

end RegisteredClaims

namespace Token

/-- Whether the last part of a token is a signature of the rest. -/
def signatureOk (material : KeyMaterial) (algorithm : Algorithm) (p : TokenParts) : Bool :=
  match Base64.decode p.signature with
  | .ok signature => material.verifies algorithm p.message signature
  | .error _ => false

/-- Reads the claims of a token signed with this key. -/
def claims (material : KeyMaterial) (allowed : List Algorithm) (policy : TokenPolicy) (now : Int) (token : Bytes) :
    Except TokenError Claims := do
  if allowed.any fun a => a.family ≠ material.family then throw .algorithm
  let some p := TokenParts.ofToken? token | throw .malformed
  let header ← readPart TokenHeader.codec p.header
  if header.algorithm ∉ allowed then throw .algorithm
  if !signatureOk material header.algorithm p then throw .signature
  let claims ← readPart Claims.codec p.payload
  let payload ← (Base64.decode p.payload).mapError .base64
  RegisteredClaims.check policy now claims payload
  return claims

/-- The header of a token and the name of its key. -/
def header (token : Bytes) : Except Failure (TokenHeader × String) :=
  match TokenHeader.ofToken token with
  | .error e => .error (.unauthorized ("Malformed token: " ++ e.message))
  | .ok h =>
    match h.kid with
    | none => .error (.unauthorized "Token has no key id")
    | some kid => .ok (h, kid)

def unknownKey (kid : String) : Failure := .unauthorized ("Unknown signing key '" ++ kid ++ "'")

/-- Verifies a token whose header was read against its key. -/
def verifyWith (policy : TokenPolicy) (now : Int) (token : Bytes) (h : TokenHeader) (kid : String) (key : Key) :
    Except Failure Caller :=
  match key.parameters.material with
  | .error e => .error (.unauthorized ("Unusable signing key '" ++ kid ++ "': Base64 error: " ++ e.message))
  | .ok material =>
    if h.algorithm ∈ key.allowed then
      match claims material key.allowed policy now token with
      | .ok c => .ok (c.caller policy.rolesClient)
      | .error e => .error (.unauthorized ("Invalid token: " ++ e.message))
    else .error (.unauthorized
      ("Algorithm " ++ h.algorithm.name ++ " is not accepted for signing key '" ++ kid ++ "'"))

/-- Verifies a token against a fixed key set. -/
def verify (keys : KeySet) (policy : TokenPolicy) (now : Int) (token : Bytes) : Except Failure Caller := do
  let (h, kid) ← header token
  match Key.find? keys kid with
  | none => .error (unknownKey kid)
  | some key => verifyWith policy now token h kid key

end Token

end Coursework
