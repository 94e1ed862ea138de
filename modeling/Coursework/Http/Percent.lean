import Coursework.Bytes

/-!
# Percent escapes

An escape is a percent sign and two hexadecimal digits and stands for one byte.
-/

namespace Coursework.Percent

def sign : UInt8 := 37

def upperHex (n : Nat) : Char := if n < 10 then Char.ofNat (48 + n) else Char.ofNat (55 + n)

/-- The escape of a byte. -/
def escape (b : UInt8) : List Char := ['%', upperHex (b.toNat / 16), upperHex (b.toNat % 16)]

/-- The byte that three bytes stand for if they are an escape. -/
def unescape? (p x y : UInt8) : Option UInt8 :=
  if p = sign then
    match Bytes.hexValue? x, Bytes.hexValue? y with
    | some hi, some lo => some (UInt8.ofNat (16 * hi + lo))
    | _, _ => none
  else none

/-- Undoes every escape but those of bytes that are kept; what is no escape stays as it is. -/
def decode (kept : UInt8 → Bool) : Bytes → Bytes
  | p :: x :: y :: rest =>
    match unescape? p x y with
    | some b => if kept b then p :: decode kept (x :: y :: rest) else b :: decode kept rest
    | none => p :: decode kept (x :: y :: rest)
  | bs => bs

def decodeAll (bs : Bytes) : Bytes := decode (fun _ => false) bs

end Coursework.Percent
