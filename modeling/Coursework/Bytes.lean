/-!
# Bytes and texts

A body, a token part or a blob is a list of bytes; a text is read from bytes as UTF-8.
-/

namespace Coursework

abbrev Bytes := List UInt8

namespace Bytes

/-- The UTF-8 bytes of a text. -/
def ofText (s : String) : Bytes := s.toUTF8.data.toList

/-- The text written by these bytes, unless they are not UTF-8. -/
def text? (bs : Bytes) : Option String := String.fromUTF8? ⟨bs.toArray⟩

def hexDigit (n : Nat) : Char := if n < 10 then Char.ofNat (48 + n) else Char.ofNat (87 + n)

/-- Two lower-case digits for each byte. -/
def toHex (bs : Bytes) : String :=
  String.ofList (bs.flatMap fun b => [hexDigit (b.toNat / 16), hexDigit (b.toNat % 16)])

def hexValue? (b : UInt8) : Option Nat :=
  if 48 ≤ b ∧ b ≤ 57 then some (b.toNat - 48)
  else if 97 ≤ b ∧ b ≤ 102 then some (b.toNat - 87)
  else if 65 ≤ b ∧ b ≤ 70 then some (b.toNat - 55)
  else none

/-- The number written big end first. -/
def toNat (bs : Bytes) : Nat := bs.foldl (fun n b => n * 256 + b.toNat) 0

/-- The last `len` bytes of a number, big end first. -/
def ofNat (len n : Nat) : Bytes :=
  (List.range len).map fun i => UInt8.ofNat (n >>> (8 * (len - 1 - i)))

def xor (a b : Bytes) : Bytes := List.zipWith (· ^^^ ·) a b

end Bytes

namespace Utf8

/-- How many continuation bytes follow this lead byte, and between which bounds the first of them lies. -/
def lead? (b : UInt8) : Option (Nat × UInt8 × UInt8) :=
  if 0xC2 ≤ b ∧ b ≤ 0xDF then some (1, 0x80, 0xBF)
  else if b = 0xE0 then some (2, 0xA0, 0xBF)
  else if b = 0xED then some (2, 0x80, 0x9F)
  else if 0xE1 ≤ b ∧ b ≤ 0xEF then some (2, 0x80, 0xBF)
  else if b = 0xF0 then some (3, 0x90, 0xBF)
  else if 0xF1 ≤ b ∧ b ≤ 0xF3 then some (3, 0x80, 0xBF)
  else if b = 0xF4 then some (3, 0x80, 0x8F)
  else none

def replacement : Char := Char.ofNat 0xFFFD

/-- The bytes that continue a character, up to `n` of them, the first one within its own bounds. -/
def continuation (lo hi : UInt8) : Nat → Bytes → Bytes
  | 0, _ => []
  | _, [] => []
  | n + 1, b :: rest => if lo ≤ b ∧ b ≤ hi then b :: continuation 0x80 0xBF n rest else []

/-- Reads UTF-8; each longest run of bytes that begins a character but does not complete it becomes one
replacement character. -/
def decodeLossy : Nat → Bytes → List Char
  | 0, _ => []
  | _, [] => []
  | fuel + 1, b :: rest =>
    if b < 0x80 then Char.ofNat b.toNat :: decodeLossy fuel rest
    else match lead? b with
      | none => replacement :: decodeLossy fuel rest
      | some (n, lo, hi) =>
        let more := continuation lo hi n rest
        let c :=
          if more.length = n then
            Char.ofNat (more.foldl (fun v x => v * 64 + (x.toNat - 0x80)) (b.toNat % Nat.pow 2 (6 - n)))
          else replacement
        c :: decodeLossy fuel (rest.drop more.length)

end Utf8

/-- The text of these bytes with every faulty stretch replaced. -/
def Bytes.textLossy (bs : Bytes) : String :=
  match bs.text? with
  | some s => s
  | none => String.ofList (Utf8.decodeLossy bs.length bs)

end Coursework
