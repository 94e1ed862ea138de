import Coursework.Crypto.Ecdsa
import Coursework.Crypto.Ed25519
import Coursework.Crypto.Rsa

/-!
# Signature algorithms

The algorithms that a token's header can name.  Each belongs to the family of keys that it works with.
-/

namespace Coursework

inductive KeyFamily
  | secret
  | rsa
  | elliptic
  | octetPair
  deriving DecidableEq, Repr

inductive Algorithm
  | hs256 | hs384 | hs512
  | es256 | es384
  | rs256 | rs384 | rs512
  | ps256 | ps384 | ps512
  | edDsa
  deriving DecidableEq, Repr

namespace Algorithm

def all : List Algorithm :=
  [hs256, hs384, hs512, es256, es384, rs256, rs384, rs512, ps256, ps384, ps512, edDsa]

def name : Algorithm → String
  | hs256 => "HS256"
  | hs384 => "HS384"
  | hs512 => "HS512"
  | es256 => "ES256"
  | es384 => "ES384"
  | rs256 => "RS256"
  | rs384 => "RS384"
  | rs512 => "RS512"
  | ps256 => "PS256"
  | ps384 => "PS384"
  | ps512 => "PS512"
  | edDsa => "EdDSA"

def names : List String := all.map name

def ofName? (s : String) : Option Algorithm := all.find? fun a => a.name = s

def family : Algorithm → KeyFamily
  | hs256 | hs384 | hs512 => .secret
  | es256 | es384 => .elliptic
  | rs256 | rs384 | rs512 | ps256 | ps384 | ps512 => .rsa
  | edDsa => .octetPair

/-- The algorithms that a family of keys works with. -/
def ofFamily (f : KeyFamily) : List Algorithm := all.filter fun a => a.family = f

theorem mem_all (a : Algorithm) : a ∈ all := by cases a <;> decide

theorem mem_ofFamily {a : Algorithm} {f : KeyFamily} : a ∈ ofFamily f ↔ a.family = f := by
  simp [ofFamily, mem_all]

end Algorithm

/-- The decoded material of a key. -/
inductive KeyMaterial
  | secret (bytes : Bytes)
  | rsa (key : Crypto.RsaKey)
  | elliptic (coordinates : Bytes)
  | octetPair (point : Bytes)
  deriving DecidableEq, Repr

namespace KeyMaterial

def family : KeyMaterial → KeyFamily
  | secret _ => .secret
  | rsa _ => .rsa
  | elliptic _ => .elliptic
  | octetPair _ => .octetPair

/-- Whether these bytes are a signature of the message under an algorithm of the key's own family. -/
def verifies (k : KeyMaterial) (a : Algorithm) (message signature : Bytes) : Bool :=
  match k, a with
  | secret key, .hs256 => Crypto.Digest.sha256.keyed key message = signature
  | secret key, .hs384 => Crypto.Digest.sha384.keyed key message = signature
  | secret key, .hs512 => Crypto.Digest.sha512.keyed key message = signature
  | rsa key, .rs256 => key.verify .sha256 .fixed message signature
  | rsa key, .rs384 => key.verify .sha384 .fixed message signature
  | rsa key, .rs512 => key.verify .sha512 .fixed message signature
  | rsa key, .ps256 => key.verify .sha256 .salted message signature
  | rsa key, .ps384 => key.verify .sha384 .salted message signature
  | rsa key, .ps512 => key.verify .sha512 .salted message signature
  | elliptic coordinates, .es256 => Crypto.Curve.p256.verify coordinates message signature
  | elliptic coordinates, .es384 => Crypto.Curve.p384.verify coordinates message signature
  | octetPair point, .edDsa => Crypto.Ed25519.verify point message signature
  | _, _ => false

end KeyMaterial

end Coursework
