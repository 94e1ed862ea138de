import Coursework.Crypto.Digest

/-!
# RSA signatures

A public key is a modulus and an exponent as bytes, big end first.  A signature is raised to the exponent and the
result compared with the padded digest of the message, or checked to hold its salted digest.
-/

namespace Coursework.Crypto

structure RsaKey where
  modulus : Bytes
  exponent : Bytes
  deriving DecidableEq, Repr

inductive RsaPadding
  | fixed
  | salted
  deriving DecidableEq, Repr

namespace RsaKey

/-- A number of at most `limit` bytes without leading zeros. -/
def minimal? (limit : Nat) (bs : Bytes) : Option Nat :=
  if bs.length ≤ limit ∧ bs.head?.any (· ≠ 0) then some bs.toNat else none

/-- The modulus of a key of 2048 to 8192 bits. -/
def modulus? (k : RsaKey) : Option Nat :=
  (minimal? 1024 k.modulus).bind fun n => if n % 2 = 1 ∧ 256 ≤ k.modulus.length then some n else none

def exponent? (k : RsaKey) : Option Nat :=
  (minimal? 5 k.exponent).bind fun e => if e % 2 = 1 ∧ 3 ≤ e ∧ e < 0x200000000 then some e else none

/-- The message block that a signature hides. -/
def opened? (k : RsaKey) (signature : Bytes) : Option Bytes := do
  let n ← k.modulus?
  let e ← k.exponent?
  let s := signature.toNat
  if signature.length = k.modulus.length ∧ 0 < s ∧ s < n then
    some (Bytes.ofNat k.modulus.length (powMod s e n))
  else none

end RsaKey

/-- The bytes that announce a digest inside a block. -/
def Digest.label (d : Digest) : Bytes :=
  let kind : UInt8 := match d with
    | .sha256 => 1
    | .sha384 => 2
    | .sha512 => 3
  let n := UInt8.ofNat d.length
  [0x30, 0x11 + n, 0x30, 0x0D, 0x06, 0x09, 0x60, 0x86, 0x48, 0x01, 0x65, 0x03, 0x04, 0x02, kind, 0x05, 0x00, 0x04, n]

/-- The block of `len` bytes with fixed padding. -/
def fixedBlock (d : Digest) (len : Nat) (message : Bytes) : Bytes :=
  let tail := d.label ++ d.hash message
  [0x00, 0x01] ++ List.replicate (len - 3 - tail.length) 0xFF ++ 0x00 :: tail

/-- A mask of `len` bytes grown from a seed. -/
def mask (d : Digest) (seed : Bytes) (len : Nat) : Bytes :=
  ((List.range (len / d.length + 1)).flatMap fun i => d.hash (seed ++ Bytes.ofNat 4 i)).take len

/-- Whether a block of a key with `bits` bits holds a salted digest of the message. -/
def saltedOk (d : Digest) (bits : Nat) (block message : Bytes) : Bool :=
  let len := (bits + 6) / 8
  let lead := block.length - len
  let body := block.drop lead
  let h := d.length
  let maskedPart := body.take (len - h - 1)
  let digest := (body.drop (len - h - 1)).take h
  let unused := 8 * len - (bits - 1)
  let top := (maskedPart.headD 0).toNat
  let plain := match Bytes.xor maskedPart (mask d digest maskedPart.length) with
    | [] => []
    | b :: rest => UInt8.ofNat (b.toNat % Nat.pow 2 (8 - unused)) :: rest
  let zeros := plain.length - h - 1
  let salt := plain.drop (zeros + 1)
  2 * h + 2 ≤ len && (block.take lead).all (· = 0) && body.getLast? = some 0xBC &&
    top < Nat.pow 2 (8 - unused) && (plain.take zeros).all (· = 0) && plain[zeros]? = some 0x01 &&
    d.hash (List.replicate 8 0 ++ d.hash message ++ salt) = digest

/-- Whether the signature was made of this message with the secret half of the key. -/
def RsaKey.verify (k : RsaKey) (d : Digest) (padding : RsaPadding) (message signature : Bytes) : Bool :=
  match k.opened? signature with
  | none => false
  | some block =>
    match padding with
    | .fixed => block = fixedBlock d block.length message
    | .salted => saltedOk d (k.modulus.toNat.log2 + 1) block message

end Coursework.Crypto
