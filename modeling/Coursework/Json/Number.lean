import Coursework.Binary64
import Coursework.Bytes
import Coursework.Json.Fault

/-!
# JSON numbers

A number is kept as the digits it was written with.  Its value is an integer when it has neither fraction nor
exponent and fits 64 bits, and a double otherwise; at most the digits that fit 64 bits count for a double.
-/

namespace Coursework.Json

/-- Why a number's text is no number. -/
inductive NumberFlaw
  | malformed
  | cutShort
  deriving DecidableEq, Repr

structure NumberToken where
  negative : Bool
  whole : Bytes
  fraction : Option Bytes := none
  exponent : Option (Bool × Bytes) := none
  flaw : Option NumberFlaw := none
  deriving DecidableEq, Repr

inductive Number
  | natural (n : Nat)
  | negative (n : Nat)
  | double (isNegative : Bool) (value : Binary64)
  deriving DecidableEq, Repr

namespace NumberToken

def isDigit (b : UInt8) : Bool := 48 ≤ b && b ≤ 57

def digit (b : UInt8) : Nat := b.toNat - 48

/-- Appends digits to a significand while it stays within 64 bits; answers how many were taken. -/
def accumulate : Nat → Bytes → Nat × Nat
  | s, [] => (s, 0)
  | s, d :: ds =>
    if UInt64.size ≤ s * 10 + digit d then (s, 0)
    else let (t, k) := accumulate (s * 10 + digit d) ds; (t, k + 1)

def exponentLimit : Nat := 0x7FFFFFFF

/-- The double of a number with its significand and power of ten. -/
def doubleOf (isNegative : Bool) (significand : Nat) (exponent : Int) : Except Fault Number :=
  match (Binary64.ofNat significand).bind fun f => Binary64.scaleTen (exponent.natAbs / 308 + 2) f exponent with
  | some f => .ok (.double isNegative f)
  | none => .error .numberOutOfRange

/-- The value, where a double too large for a finite one is a fault. -/
def value (t : NumberToken) : Except Fault Number :=
  match t.flaw with
  | some .malformed => .error .invalidNumber
  | some .cutShort => .error .eofValue
  | none =>
    let (s, taken) := accumulate 0 t.whole
    let surplus := t.whole.length - taken
    if t.fraction = none ∧ t.exponent = none ∧ surplus = 0 then
      if !t.negative then .ok (.natural s)
      else if 0 < s ∧ s ≤ 0x8000000000000000 then .ok (.negative s)
      else doubleOf true s 0
    else
      let (s, places) := match t.fraction with
        | some ds => accumulate s ds
        | none => (s, 0)
      let shift : Int := (surplus : Int) - places
      match t.exponent with
      | none => doubleOf t.negative s shift
      | some (down, ds) =>
        let e := ds.foldl (fun n b => n * 10 + digit b) 0
        if exponentLimit < e then
          if s ≠ 0 ∧ !down then .error .numberOutOfRange else .ok (.double t.negative Binary64.zero)
        else doubleOf t.negative s (if down then shift - e else shift + e)

def exponentPart (t : NumberToken) (bs : Bytes) : NumberToken × Bytes :=
  let (down, bs) := match bs with
    | 43 :: r => (false, r)
    | 45 :: r => (true, r)
    | r => (false, r)
  match bs.span isDigit with
  | ([], []) => ({ t with flaw := some .cutShort }, [])
  | ([], r) => ({ t with flaw := some .malformed }, r)
  | (ds, r) => ({ t with exponent := some (down, ds) }, r)

def afterFraction (t : NumberToken) : Bytes → NumberToken × Bytes
  | 101 :: r => exponentPart t r
  | 69 :: r => exponentPart t r
  | r => (t, r)

def afterWhole (t : NumberToken) : Bytes → NumberToken × Bytes
  | 46 :: r =>
    match r.span isDigit with
    | ([], []) => ({ t with flaw := some .cutShort }, [])
    | ([], r) => ({ t with flaw := some .malformed }, r)
    | (ds, r) => afterFraction { t with fraction := some ds } r
  | r => afterFraction t r

/-- Reads the number at the front of a text, its minus sign already taken off. -/
def read (negative : Bool) (bs : Bytes) : NumberToken × Bytes :=
  match bs.span isDigit with
  | ([], []) => (⟨negative, [], none, none, some .cutShort⟩, [])
  | ([], r) => (⟨negative, [], none, none, some .malformed⟩, r)
  | (48 :: d :: ds, r) => (⟨negative, 48 :: d :: ds, none, none, some .malformed⟩, r)
  | (ds, r) => afterWhole ⟨negative, ds, none, none, none⟩ r

end NumberToken

/-- The decimal text of an integer. -/
def integerBytes (n : Int) : Bytes :=
  (if n < 0 then [45] else []) ++ (Nat.toDigits 10 n.natAbs).map fun c => UInt8.ofNat c.toNat

end Coursework.Json
