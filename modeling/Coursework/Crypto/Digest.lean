import Coursework.Bytes
import Coursework.Crypto.Modular

/-!
# Digests

SHA-256, SHA-384 and SHA-512, and the keyed digests made from them.  All three are one construction on words of
32 or 64 bits; its constants are the leading bits of the fractions of square and cube roots of primes.
-/

namespace Coursework.Crypto

inductive Digest
  | sha256
  | sha384
  | sha512
  deriving DecidableEq, Repr

namespace Digest

/-- Bits of a word. -/
def wordBits : Digest → Nat
  | sha256 => 32
  | _ => 64

def wordBytes (d : Digest) : Nat := d.wordBits / 8

/-- Bytes of a block, which is sixteen words. -/
def blockBytes (d : Digest) : Nat := 16 * d.wordBytes

/-- Bytes of the result. -/
def length : Digest → Nat
  | sha256 => 32
  | sha384 => 48
  | sha512 => 64

def isPrime (n : Nat) : Bool := 2 ≤ n && (List.range n).all fun d => d < 2 || n % d ≠ 0

/-- The primes below 410, of which there are eighty. -/
def primes : List Nat := (List.range 410).filter isPrime

/-- The leading 64 bits of the fraction of a prime's `k`-th root. -/
def rootFraction (k p : Nat) : Nat := root 72 k (p * Nat.pow 2 (64 * k)) % Nat.pow 2 64

def cubeFractions : List Nat := primes.map (rootFraction 3)

def squareFractions : List Nat := (primes.take 16).map (rootFraction 2)

/-- One constant for each round. -/
def roundConstants : Digest → List Nat
  | sha256 => (cubeFractions.take 64).map (· >>> 32)
  | _ => cubeFractions

/-- The state before the first block. -/
def start : Digest → List Nat
  | sha256 => (squareFractions.take 8).map (· >>> 32)
  | sha384 => squareFractions.drop 8
  | sha512 => squareFractions.take 8

def rotate (w n x : Nat) : Nat := ((x >>> n) ||| (x <<< (w - n))) % Nat.pow 2 w

/-- A word mixed with three rotations of itself, the last of which may be a plain shift. -/
def mix (w a b c : Nat) (shifted : Bool) (x : Nat) : Nat :=
  rotate w a x ^^^ rotate w b x ^^^ (if shifted then x >>> c else rotate w c x)

def big0 : Digest → Nat → Nat
  | sha256 => mix 32 2 13 22 false
  | _ => mix 64 28 34 39 false

def big1 : Digest → Nat → Nat
  | sha256 => mix 32 6 11 25 false
  | _ => mix 64 14 18 41 false

def small0 : Digest → Nat → Nat
  | sha256 => mix 32 7 18 3 true
  | _ => mix 64 1 8 7 true

def small1 : Digest → Nat → Nat
  | sha256 => mix 32 17 19 10 true
  | _ => mix 64 19 61 6 true

/-- One round: the eight words of the state and the next sixteen words of the schedule move on. -/
def round (d : Digest) (s : List Nat × List Nat) (k : Nat) : List Nat × List Nat :=
  match s with
  | ([a, b, c, e, f, g, h, i], w :: ws) =>
    let m := Nat.pow 2 d.wordBits
    let choice := (f &&& g) ^^^ ((m - 1 - f) &&& h)
    let t1 := i + d.big1 f + choice + k + w
    let majority := (a &&& b) ^^^ (a &&& c) ^^^ (b &&& c)
    let t2 := d.big0 a + majority
    let next := (d.small1 (ws.getD 13 0) + ws.getD 8 0 + d.small0 (ws.getD 0 0) + w) % m
    ([(t1 + t2) % m, a, b, c, (e + t1) % m, f, g, h], ws ++ [next])
  | s => s

/-- The state after one more block of sixteen words. -/
def absorb (d : Digest) (constants state block : List Nat) : List Nat :=
  let (out, _) := constants.foldl d.round (state, block)
  List.zipWith (fun a b => (a + b) % Nat.pow 2 d.wordBits) state out

/-- Pieces of `n` items each; `fuel` bounds their number. -/
def pieces {α : Type} (n : Nat) : Nat → List α → List (List α)
  | 0, _ => []
  | _, [] => []
  | fuel + 1, xs => xs.take n :: pieces n fuel (xs.drop n)

/-- The message, a one bit, zeros and the message's length in bits, filling whole blocks. -/
def padded (d : Digest) (message : Bytes) : Bytes :=
  let tail := 2 * d.wordBytes
  let used := (message.length + 1 + tail) % d.blockBytes
  message ++ 0x80 :: List.replicate ((d.blockBytes - used) % d.blockBytes) 0 ++ Bytes.ofNat tail (8 * message.length)

def words (d : Digest) (bs : Bytes) : List Nat := (pieces d.wordBytes bs.length bs).map Bytes.toNat

def hash (d : Digest) (message : Bytes) : Bytes :=
  let constants := d.roundConstants
  let blocks := pieces d.blockBytes (message.length + 2) (d.padded message)
  let state := blocks.foldl (fun s b => d.absorb constants s (d.words b)) d.start
  (state.flatMap (Bytes.ofNat d.wordBytes)).take d.length

/-- The keyed digest. -/
def keyed (d : Digest) (key message : Bytes) : Bytes :=
  let short := if d.blockBytes < key.length then d.hash key else key
  let full := short ++ List.replicate (d.blockBytes - short.length) 0
  d.hash (full.map (· ^^^ 0x5C) ++ d.hash (full.map (· ^^^ 0x36) ++ message))

end Digest

end Coursework.Crypto
