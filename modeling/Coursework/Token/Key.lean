import Coursework.Json.Choice
import Coursework.Token.Algorithm
import Coursework.Token.Base64

/-!
# Signing keys

A key set lists public keys as the identity provider publishes them.  A token names its key; the first key of that
name counts.
-/

namespace Coursework

open Json

/-- The parameters of a key, still in base64. -/
inductive KeyParameters
  | elliptic (x y : String)
  | rsa (modulus exponent : String)
  | secret (value : String)
  | octetPair (x : String)
  deriving DecidableEq, Repr

structure Key where
  kid : Option String
  /-- The name of the algorithm that the key is meant for. -/
  declared : Option String
  parameters : KeyParameters
  deriving DecidableEq, Repr

abbrev KeySet := List Key

namespace KeyParameters

def family : KeyParameters → KeyFamily
  | elliptic _ _ => .elliptic
  | rsa _ _ => .rsa
  | secret _ => .secret
  | octetPair _ => .octetPair

def bytes (s : String) : Except Base64.Error Bytes := Base64.decode (Bytes.ofText s)

def material : KeyParameters → Except Base64.Error KeyMaterial
  | elliptic x y => do
    let x ← bytes x
    let y ← bytes y
    return .elliptic (x ++ y)
  | rsa n e => do
    let n ← bytes n
    let e ← bytes e
    return .rsa ⟨n, e⟩
  | secret k => (bytes k).map .secret
  | octetPair x => (bytes x).map .octetPair

end KeyParameters

namespace Key

/-- The algorithms that a token may use with this key: the declared one if it signs, else those of its family. -/
def allowed (k : Key) : List Algorithm :=
  match k.declared.bind Algorithm.ofName? with
  | some a => [a]
  | none => Algorithm.ofFamily k.parameters.family

def find? (keys : KeySet) (kid : String) : Option Key := keys.find? fun k => k.kid = some kid

/-- A name out of a list that was read in whole before. -/
def choice (options : List String) : Codec String := ⟨Choice.ofWhole options, .str⟩

/-- Every algorithm that a key may declare, also those that do not sign. -/
def declarable : List String := Algorithm.names ++ ["RSA1_5", "RSA-OAEP", "RSA-OAEP-256"]

def commonFields : Fields (Option String × Option (List String) × Option String × Option String × Option String ×
    Option (List String) × Option String × Option String × Unit) :=
  .optional "use" .text <| .optional "key_ops" Codec.text.list <| .optional "alg" (choice declarable) <|
  .optional "kid" .text <| .optional "x5u" .text <| .optional "x5c" Codec.text.list <|
  .optional "x5t" .text <| .optional "x5t#S256" .text .nil

def curveNames : List String := ["P-256", "P-384", "P-521", "Ed25519"]

def ellipticFields : Fields (String × String × String × String × Unit) :=
  .required "kty" (choice ["EC"]) <| .required "crv" (choice curveNames) <| .required "x" .text <|
  .required "y" .text .nil

def rsaFields : Fields (String × String × String × Unit) :=
  .required "kty" (choice ["RSA"]) <| .required "n" .text <| .required "e" .text .nil

def secretFields : Fields (String × String × Unit) :=
  .required "kty" (choice ["oct"]) <| .required "k" .text .nil

def octetPairFields : Fields (String × String × String × Unit) :=
  .required "kty" (choice ["OKP"]) <| .required "crv" (choice curveNames) <| .required "x" .text .nil

abbrev Members := List (StringToken × Node)

def tried {α : Type} (ms : Members) (fs : Fields α) (make : α → KeyParameters) : Option KeyParameters :=
  (fs.decodeObject ms .closed).toOption.map make

/-- The parameters of the first type of key whose fields are all there. -/
def parameters? (ms : Members) : Option KeyParameters :=
  tried ms ellipticFields (fun (_, _, x, y, _) => .elliptic x y) <|>
  tried ms rsaFields (fun (_, n, e, _) => .rsa n e) <|>
  tried ms secretFields (fun (_, k, _) => .secret k) <|>
  tried ms octetPairFields (fun (_, _, x, _) => .octetPair x)

def isCommon (k : StringToken) : Bool := commonFields.names.any fun name => Fields.hasName name k

def noParameters : Defect := .refused "data did not match any variant of untagged enum AlgorithmParameters"

def decode : Node → Except Defect Key
  | .object ms stop =>
    match Node.wholeMembers ms <|> Node.ObjectEnd.fault? stop with
    | some f => .error (.fault f)
    | none => do
      let (_, _, declared, kid, _) ← commonFields.decodeObject ms .closed
      match parameters? (ms.filter fun (k, _) => !isCommon k) with
      | some ps => .ok ⟨kid, declared, ps⟩
      | none => .error noParameters
  | n => .error (n.mismatch "struct Jwk")

/-- The members that matter of a key as JSON. -/
def encode (k : Key) : Json :=
  let params : List (String × String) := match k.parameters with
    | .elliptic x y => [("kty", "EC"), ("crv", "P-256"), ("x", x), ("y", y)]
    | .rsa n e => [("kty", "RSA"), ("n", n), ("e", e)]
    | .secret v => [("kty", "oct"), ("k", v)]
    | .octetPair x => [("kty", "OKP"), ("crv", "Ed25519"), ("x", x)]
  let text := fun ((name, v) : String × String) => (name, Json.str v)
  .obj ((k.kid.map fun v => ("kid", Json.str v)).toList ++ (k.declared.map fun v => ("alg", Json.str v)).toList ++
    params.map text)

def codec : Codec Key := ⟨decode, encode⟩

end Key

namespace KeySet

def codec : Codec KeySet :=
  (Fields.required "keys" Key.codec.list .nil).codec "struct JwkSet" (fun (keys, _) => keys) (fun keys => (keys, ()))

end KeySet

end Coursework
