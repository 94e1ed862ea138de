import Coursework.Crypto.Digest

/-!
# Signatures on cubic curves

The curves `y² = x³ - 3x + b` P-256 and P-384.  Points are computed with in three coordinates
`(x / z², y / z³)`, where `z = 0` is the neutral point.
-/

namespace Coursework.Crypto

structure Curve where
  /-- Bytes of a coordinate. -/
  size : Nat
  field : Nat
  b : Nat
  order : Nat
  baseX : Nat
  baseY : Nat
  digest : Digest

namespace Curve

def p256 : Curve where
  size := 32
  field := 0xffffffff00000001000000000000000000000000ffffffffffffffffffffffff
  b := 0x5ac635d8aa3a93e7b3ebbd55769886bc651d06b0cc53b0f63bce3c3e27d2604b
  order := 0xffffffff00000000ffffffffffffffffbce6faada7179e84f3b9cac2fc632551
  baseX := 0x6b17d1f2e12c4247f8bce6e563a440f277037d812deb33a0f4a13945d898c296
  baseY := 0x4fe342e2fe1a7f9b8ee7eb4a7c0f9e162bce33576b315ececbb6406837bf51f5
  digest := .sha256

def p384 : Curve where
  size := 48
  field := 0xfffffffffffffffffffffffffffffffffffffffffffffffffffffffffffffffeffffffff0000000000000000ffffffff
  b := 0xb3312fa7e23ee7e4988e056be3f82d19181d9c6efe8141120314088f5013875ac656398d8a2ed19d2a85c8edd3ec2aef
  order := 0xffffffffffffffffffffffffffffffffffffffffffffffffc7634d81f4372ddf581a0db248b0a77aecec196accc52973
  baseX := 0xaa87ca22be8b05378eb1c71ef320ad746e1d3b628ba79b9859f741e082542a385502f25dbf55296c3a545e3872760ab7
  baseY := 0x3617de4a96262c6f5d9e98bf9292dc29f8f41dbd289a147ce9da3113b5f0b8c00a60b1ce1d7e819d7a431d7c90ea0e5f
  digest := .sha384

structure Point where
  x : Nat
  y : Nat
  z : Nat
  deriving DecidableEq, Repr

def neutral : Point := ⟨1, 1, 0⟩

def base (c : Curve) : Point := ⟨c.baseX, c.baseY, 1⟩

def double (c : Curve) (q : Point) : Point :=
  let p := c.field
  let delta := q.z * q.z % p
  let gamma := q.y * q.y % p
  let beta := q.x * gamma % p
  let alpha := 3 * (subMod q.x delta p * (q.x + delta)) % p
  let x := subMod (alpha * alpha) (8 * beta) p
  let z := subMod ((q.y + q.z) * (q.y + q.z)) (gamma + delta) p
  let y := subMod (alpha * subMod (4 * beta) x p) (8 * (gamma * gamma)) p
  ⟨x, y, z⟩

def add (c : Curve) (a b : Point) : Point :=
  let p := c.field
  if a.z = 0 then b
  else if b.z = 0 then a
  else
    let az := a.z * a.z % p
    let bz := b.z * b.z % p
    let u1 := a.x * bz % p
    let u2 := b.x * az % p
    let s1 := a.y * b.z % p * bz % p
    let s2 := b.y * a.z % p * az % p
    if u1 = u2 then if s1 = s2 then c.double a else neutral
    else
      let h := subMod u2 u1 p
      let hh := h * h % p
      let hhh := h * hh % p
      let r := subMod s2 s1 p
      let v := u1 * hh % p
      let x := subMod (subMod (r * r) hhh p) (2 * v) p
      let y := subMod (r * subMod v x p) (s1 * hhh) p
      ⟨x, y, a.z * b.z % p * h % p⟩

/-- The multiple of a point by the lowest `bits` bits of a number. -/
def multiple (c : Curve) : Nat → Nat → Point → Point
  | 0, _, _ => neutral
  | bits + 1, n, q =>
    let rest := c.multiple bits (n / 2) (c.double q)
    if n % 2 = 1 then c.add q rest else rest

/-- The first coordinate of a point that is not neutral. -/
def affineX? (c : Curve) (q : Point) : Option Nat :=
  if q.z = 0 then none
  else let i := invMod q.z c.field; some (q.x * (i * i % c.field) % c.field)

def contains (c : Curve) (x y : Nat) : Bool :=
  x < c.field && y < c.field && y * y % c.field = subMod (x * x * x + c.b) (3 * x) c.field

/-- The point whose coordinates are these bytes. -/
def point? (c : Curve) (coordinates : Bytes) : Option Point :=
  let x := Bytes.toNat (coordinates.take c.size)
  let y := Bytes.toNat (coordinates.drop c.size)
  if coordinates.length = 2 * c.size ∧ c.contains x y then some ⟨x, y, 1⟩ else none

/-- Whether the signature, two numbers one after the other, is one of this message under this public point. -/
def verify (c : Curve) (coordinates message signature : Bytes) : Bool :=
  match c.point? coordinates with
  | none => false
  | some q =>
    let r := Bytes.toNat (signature.take c.size)
    let s := Bytes.toNat (signature.drop c.size)
    let bits := 8 * c.size
    let w := invMod s c.order
    let e := Bytes.toNat (c.digest.hash message) % c.order
    let sum := c.add (c.multiple bits (e * w % c.order) c.base) (c.multiple bits (r * w % c.order) q)
    signature.length = 2 * c.size && (0 < r && r < c.order) && (0 < s && s < c.order) &&
      (c.affineX? sum).any fun x => x % c.order = r

end Curve

end Coursework.Crypto
