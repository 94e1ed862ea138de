/-!
# Double precision numbers

A finite non-negative double is `mantissa * 2 ^ exponent`.  Rounding a ratio to the nearest double (ties to the
even mantissa) is exact arithmetic; the shortest text is the one with the fewest digits that rounds back.
-/

namespace Coursework

structure Binary64 where
  mantissa : Nat
  exponent : Int
  deriving DecidableEq, Repr

namespace Binary64

def zero : Binary64 := ⟨0, 0⟩

/-- The ratio of `num * 2 ^ e` to `den` with non-negative powers only. -/
def scale (num den : Nat) (e : Int) : Nat × Nat :=
  if 0 ≤ e then (num * Nat.pow 2 e.toNat, den) else (num, den * Nat.pow 2 (-e).toNat)

/-- The nearest integer to a ratio, a half going to the even one. -/
def nearest (num den : Nat) : Nat :=
  let q := num / den
  let r := num % den
  if den < 2 * r ∨ (2 * r = den ∧ q % 2 = 1) then q + 1 else q

/-- The mantissa whose only bit is the first of 53. -/
def leadBit : Nat := 0x10000000000000

/-- The largest exponent at which the ratio still fills 53 bits, but none below that of the subnormals. -/
def exponentFor (num den : Nat) : Int :=
  let guess : Int := num.log2 - den.log2 - 52
  let fits (e : Int) : Bool := let (n, d) := scale num den (-e); leadBit * d ≤ n
  max (-1074) (if fits guess then guess else guess - 1)

/-- The double nearest to a ratio; none when it is too large for a finite one. -/
def ofRatio (num den : Nat) : Option Binary64 :=
  if num = 0 then some zero
  else
    let e := exponentFor num den
    let (n, d) := scale num den (-e)
    let m := nearest n d
    let (m, e) := if m = 2 * leadBit then (leadBit, e + 1) else (m, e)
    if 971 < e then none else if m = 0 then some zero else some ⟨m, e⟩

def ofNat (n : Nat) : Option Binary64 := ofRatio n 1

def mul (a b : Binary64) : Option Binary64 :=
  let (n, d) := scale (a.mantissa * b.mantissa) 1 (a.exponent + b.exponent)
  ofRatio n d

def div (a b : Binary64) : Option Binary64 :=
  let (n, d) := scale a.mantissa b.mantissa (a.exponent - b.exponent)
  ofRatio n d

/-- The double nearest to a power of ten. -/
def tenPow (k : Nat) : Binary64 := (ofNat (Nat.pow 10 k)).getD zero

/-- Brings a number and a decimal exponent together; large exponents are applied 308 places at a time. -/
def scaleTen : Nat → Binary64 → Int → Option Binary64
  | 0, _, _ => some zero
  | fuel + 1, f, e =>
    if e.natAbs ≤ 308 then if 0 ≤ e then f.mul (tenPow e.toNat) else f.div (tenPow e.natAbs)
    else if f.mantissa = 0 then some zero
    else if 0 ≤ e then none
    else (f.div (tenPow 308)).bind fun g => scaleTen fuel g (e + 308)

/-- Where the value stands among the powers of ten: the exponent of its first digit. -/
def magnitude (f : Binary64) : Int :=
  let (n, d) := scale (f.mantissa * Nat.pow 10 400) 1 f.exponent
  ((Nat.toDigits 10 (n / d)).length : Int) - 401

/-- The ratio of a grid point `d * 10 ^ p`. -/
def gridPoint (d : Nat) (p : Int) : Nat × Nat :=
  if 0 ≤ p then (d * Nat.pow 10 p.toNat, 1) else (d, Nat.pow 10 (-p).toNat)

def readsBack (f : Binary64) (d : Nat) (p : Int) : Bool :=
  let (n, e) := gridPoint d p
  ofRatio n e = some f

/-- The value's two neighbours on the grid of `n` digits that read back, the nearer first. -/
def candidates (f : Binary64) (n : Nat) : List (Nat × Int) :=
  let p := f.magnitude - n + 1
  let (num, den) := scale f.mantissa 1 f.exponent
  let (num, den) := if 0 ≤ p then (num, den * Nat.pow 10 p.toNat) else (num * Nat.pow 10 (-p).toNat, den)
  let low := num / den
  let ordered := if nearest num den = low then [low, low + 1] else [low + 1, low]
  (ordered.filter fun d => readsBack f d p).map fun d => (d, p)

/-- The fewest digits that read back, with the exponent of the last one. -/
def shortest (f : Binary64) : Nat × Int :=
  (((List.range 17).flatMap fun n => candidates f (n + 1)).head?).getD (f.mantissa, 0)

def stripZeros : List Char → List Char := fun ds => (ds.reverse.dropWhile (· = '0')).reverse

/-- Two digits at least and a sign always. -/
def exponentText (k : Int) : List Char :=
  let ds := Nat.toDigits 10 k.natAbs
  (if k < 0 then '-' else '+') :: (if ds.length < 2 then '0' :: ds else ds)

/-- Positional from `1e-5` up to sixteen digits before the point, else with an exponent. -/
def text (f : Binary64) : String :=
  if f.mantissa = 0 then "0.0"
  else
    let (d, p) := f.shortest
    let ds := Nat.toDigits 10 d
    let k : Int := p + ds.length - 1
    let ds := stripZeros ds
    String.ofList <|
      if k < -5 ∨ 15 < k then
        (match ds with
          | [] => []
          | [c] => [c]
          | c :: rest => c :: '.' :: rest) ++ 'e' :: exponentText k
      else if k < 0 then '0' :: '.' :: List.replicate (k.natAbs - 1) '0' ++ ds
      else
        let places := k.toNat + 1
        if ds.length ≤ places then ds ++ List.replicate (places - ds.length) '0' ++ ['.', '0']
        else ds.take places ++ '.' :: ds.drop places

end Binary64

end Coursework
