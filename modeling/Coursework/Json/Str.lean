import Coursework.Bytes
import Coursework.Json.Fault

/-!
# JSON strings

A string is first found, as the bytes between its quotes, and only then understood: a reader that skips it does
not mind surrogates without a partner or bytes that are not UTF-8.
-/

namespace Coursework.Json

/-- How the search for the closing quote ended. -/
inductive StringEnd
  | closed
  | eof
  | control
  | badEscape
  | badHex
  deriving DecidableEq, Repr

structure StringToken where
  raw : Bytes
  stop : StringEnd
  deriving DecidableEq, Repr

namespace StringToken

def quote : UInt8 := 34
def backslash : UInt8 := 92

/-- The byte that a one-letter escape stands for. -/
def escape? (b : UInt8) : Option UInt8 :=
  match b with
  | 34 => some 34
  | 92 => some 92
  | 47 => some 47
  | 98 => some 8
  | 102 => some 12
  | 110 => some 10
  | 114 => some 13
  | 116 => some 9
  | _ => none

def hex4? (a b c d : UInt8) : Option Nat := do
  let a ← Bytes.hexValue? a
  let b ← Bytes.hexValue? b
  let c ← Bytes.hexValue? c
  let d ← Bytes.hexValue? d
  some (((a * 16 + b) * 16 + c) * 16 + d)

/-- Finds the end of a string whose opening quote is taken off; `seen` holds what was passed, backwards. -/
def scan (seen : Bytes) : Bytes → StringToken × Bytes
  | [] => (⟨seen.reverse, .eof⟩, [])
  | b :: r =>
    if b = quote then (⟨seen.reverse, .closed⟩, r)
    else if b < 32 then (⟨seen.reverse, .control⟩, [])
    else if b = backslash then
      match r with
      | [] => (⟨seen.reverse, .eof⟩, [])
      | 117 :: h1 :: h2 :: h3 :: h4 :: r =>
        if (hex4? h1 h2 h3 h4).isSome then scan (h4 :: h3 :: h2 :: h1 :: 117 :: backslash :: seen) r
        else (⟨seen.reverse, .badHex⟩, [])
      | 117 :: _ => (⟨seen.reverse, .eof⟩, [])
      | c :: r => if (escape? c).isSome then scan (c :: backslash :: seen) r else (⟨seen.reverse, .badEscape⟩, [])
    else scan (b :: seen) r

/-- The fault of the end itself. -/
def StringEnd.fault? : StringEnd → Option Fault
  | .closed => none
  | .eof => some .eofString
  | .control => some .controlCharacter
  | .badEscape => some .invalidEscape
  | .badHex => some .invalidEscape

/-- The fault met by a reader that only looks for the end. -/
def skipFault? (t : StringToken) : Option Fault := StringEnd.fault? t.stop

/-- What a leading surrogate without a following escape means at this end. -/
def danglingFault : StringEnd → Fault
  | .eof => .eofString
  | .badHex => .invalidEscape
  | _ => .brokenSurrogate

/-- The UTF-8 bytes of a code point. -/
def utf8 (n : Nat) : Bytes := Bytes.ofText (Char.ofNat n).toString

def isLeading (n : Nat) : Bool := 0xD800 ≤ n && n ≤ 0xDBFF
def isTrailing (n : Nat) : Bool := 0xDC00 ≤ n && n ≤ 0xDFFF

/-- Resolves the escapes of a scanned string; `done` holds the bytes so far, backwards. -/
def unescape (stop : StringEnd) (done : Bytes) : Bytes → Except Fault Bytes
  | [] => match StringEnd.fault? stop with
    | none => .ok done.reverse
    | some f => .error f
  | 92 :: 117 :: a :: b :: c :: d :: r =>
    let n := (hex4? a b c d).getD 0
    if isTrailing n then .error .unpairedSurrogate
    else if isLeading n then
      match r with
      | 92 :: 117 :: a :: b :: c :: d :: r =>
        let m := (hex4? a b c d).getD 0
        if isTrailing m then
          unescape stop ((utf8 ((n - 0xD800) * 1024 + (m - 0xDC00) + 0x10000)).reverse ++ done) r
        else .error .unpairedSurrogate
      | [] => .error (danglingFault stop)
      | _ => .error .brokenSurrogate
    else unescape stop ((utf8 n).reverse ++ done) r
  | 92 :: c :: r => unescape stop ((escape? c).getD c :: done) r
  | b :: r => unescape stop (b :: done) r

/-- The text of a string. -/
def text (t : StringToken) : Except Fault String := do
  let bs ← unescape t.stop [] t.raw
  match Bytes.text? bs with
  | some s => .ok s
  | none => .error .invalidCodePoint

def lowerHex (n : Nat) : UInt8 := if n < 10 then UInt8.ofNat (48 + n) else UInt8.ofNat (87 + n)

/-- Quotes, backslashes and control characters are escaped, everything else stands for itself. -/
def escapeByte (b : UInt8) : Bytes :=
  match b with
  | 34 => [92, 34]
  | 92 => [92, 92]
  | 8 => [92, 98]
  | 12 => [92, 102]
  | 10 => [92, 110]
  | 13 => [92, 114]
  | 9 => [92, 116]
  | b => if b < 32 then [92, 117, 48, 48, lowerHex (b.toNat / 16), lowerHex (b.toNat % 16)] else [b]

/-- The bytes of a string between its quotes. -/
def escaped (s : String) : Bytes := (Bytes.ofText s).flatMap escapeByte

def render (s : String) : Bytes := quote :: escaped s ++ [quote]

end StringToken

end Coursework.Json
