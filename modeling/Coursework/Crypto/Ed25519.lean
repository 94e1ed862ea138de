import Coursework.Crypto.Digest

/-!
# Signatures on the twisted curve Ed25519

The curve `-x² + y² = 1 + d x² y²` over the field of `2 ^ 255 - 19` elements.  Points are computed with in four
coordinates `(x / z, y / z)` with `x y = z t`.
-/

namespace Coursework.Crypto.Ed25519

def field : Nat := Nat.pow 2 255 - 19

/-- The order of the base point. -/
def order : Nat := Nat.pow 2 252 + 27742317777372353535851937790883648493

def d : Nat := 121665 * (field - invMod 121666 field) % field

structure Point where
  x : Nat
  y : Nat
  z : Nat
  t : Nat
  deriving DecidableEq, Repr

def neutral : Point := ⟨0, 1, 1, 0⟩

def add (a b : Point) : Point :=
  let p := field
  let u := subMod a.y a.x p * subMod b.y b.x p % p
  let v := (a.y + a.x) * (b.y + b.x) % p
  let w := 2 * a.t * b.t % p * d % p
  let z := 2 * a.z * b.z % p
  let e := subMod v u p
  let f := subMod z w p
  let g := (z + w) % p
  let h := (v + u) % p
  ⟨e * f % p, g * h % p, f * g % p, e * h % p⟩

/-- The multiple of a point by the lowest `bits` bits of a number. -/
def multiple : Nat → Nat → Point → Point
  | 0, _, _ => neutral
  | bits + 1, n, q =>
    let rest := multiple bits (n / 2) (add q q)
    if n % 2 = 1 then add q rest else rest

def negate (a : Point) : Point := { a with x := subMod 0 a.x field, t := subMod 0 a.t field }

/-- A square root of minus one. -/
def imaginary : Nat := powMod 2 ((field - 1) / 4) field

/-- The first coordinate for the second one, with the given lowest bit. -/
def xOf? (y sign : Nat) : Option Nat :=
  let p := field
  let ratio := subMod (y * y) 1 p * invMod (d * y % p * y + 1) p % p
  let x := powMod ratio ((p + 3) / 8) p
  let x := if x * x % p = ratio then x else x * imaginary % p
  if x * x % p ≠ ratio then none
  else if x % 2 = sign then some x
  else some (subMod 0 x p)

def littleEnd (bs : Bytes) : Nat := Bytes.toNat bs.reverse

/-- The point written in 32 bytes: the second coordinate and, in the highest bit, the sign of the first. -/
def point? (bs : Bytes) : Option Point :=
  if bs.length ≠ 32 then none
  else
    let n := littleEnd bs
    let y := n % Nat.pow 2 255 % field
    (xOf? y (n / Nat.pow 2 255)).map fun x => ⟨x, y, 1, x * y % field⟩

def baseY : Nat := 4 * invMod 5 field % field

def base : Point :=
  let x := (xOf? baseY 0).getD 0
  ⟨x, baseY, 1, x * baseY % field⟩

def bytes (a : Point) : Bytes :=
  let i := invMod a.z field
  let x := a.x * i % field
  let y := a.y * i % field
  (Bytes.ofNat 32 (y + x % 2 * Nat.pow 2 255)).reverse

/-- Whether the signature is one of this message under this public point. -/
def verify (key message signature : Bytes) : Bool :=
  match point? key with
  | none => false
  | some a =>
    let r := signature.take 32
    let s := littleEnd (signature.drop 32)
    let k := littleEnd (Digest.sha512.hash (r ++ key ++ message)) % order
    let sum := add (multiple 256 s base) (multiple 256 k (negate a))
    signature.length = 64 && s < order && bytes sum = r

end Coursework.Crypto.Ed25519
