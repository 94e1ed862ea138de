import Coursework.Token.Key

/-!
# Token headers

The first part of a token says with which algorithm and which key it was signed.
-/

namespace Coursework

open Json

/-- Why a token is refused, apart from its key. -/
inductive TokenError
  | malformed
  | base64 (e : Base64.Error)
  | json (d : Defect)
  | algorithm
  | signature
  | missingClaim (name : String)
  | expired
  | issuer
  deriving DecidableEq, Repr

def TokenError.message : TokenError → String
  | malformed => "InvalidToken"
  | base64 e => "Base64 error: " ++ e.message
  | json d => "JSON error: " ++ d.message
  | algorithm => "InvalidAlgorithm"
  | signature => "InvalidSignature"
  | missingClaim name => "Missing required claim: " ++ name
  | expired => "ExpiredSignature"
  | issuer => "InvalidIssuer"

/-- A token cut at its last two dots. -/
structure TokenParts where
  header : Bytes
  payload : Bytes
  signature : Bytes
  deriving DecidableEq, Repr

namespace TokenParts

def dot : UInt8 := 46

/-- What stands before and after the last dot. -/
def cut? (bs : Bytes) : Option (Bytes × Bytes) :=
  let back := bs.reverse
  match back.dropWhile (· ≠ dot) with
  | _ :: front => some (front.reverse, (back.takeWhile (· ≠ dot)).reverse)
  | [] => none

def ofToken? (token : Bytes) : Option TokenParts := do
  let (message, signature) ← cut? token
  let (header, payload) ← cut? message
  return ⟨header, payload, signature⟩

/-- The text that was signed. -/
def message (p : TokenParts) : Bytes := p.header ++ dot :: p.payload

end TokenParts

structure TokenHeader where
  algorithm : Algorithm
  kid : Option String
  deriving DecidableEq, Repr

namespace TokenHeader

def algorithmCodec : Codec Algorithm where
  decode n := (Choice.ofText Algorithm.names n).map fun s => (Algorithm.ofName? s).getD .hs256
  encode a := .str a.name

def codec : Codec TokenHeader :=
  (Fields.optional "typ" .text <| .required "alg" algorithmCodec <| .optional "cty" .text <|
    .optional "jku" .text <| .optional "jwk" Key.codec <| .optional "kid" .text <| .optional "x5u" .text <|
    .optional "x5c" Codec.text.list <| .optional "x5t" .text <| .optional "x5t#S256" .text .nil).codec
    "struct Header"
    (fun (_, algorithm, _, _, _, kid, _) => ⟨algorithm, kid⟩)
    (fun h => (none, h.algorithm, none, none, none, h.kid, none, none, none, none, ()))

end TokenHeader

/-- Reads a part of a token that is JSON in base64. -/
def readPart {α : Type} (c : Codec α) (part : Bytes) : Except TokenError α :=
  match Base64.decode part with
  | .error e => .error (.base64 e)
  | .ok bs => (c.read bs).mapError .json

def TokenHeader.ofToken (token : Bytes) : Except TokenError TokenHeader :=
  match TokenParts.ofToken? token with
  | none => .error .malformed
  | some p => readPart TokenHeader.codec p.header

end Coursework
