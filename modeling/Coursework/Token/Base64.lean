import Coursework.Bytes

/-!
# Base64 for tokens

The alphabet of URLs, without padding.  Reading is strict: no other symbols, no padding, no stray bits.
-/

namespace Coursework.Base64

inductive Error
  | symbol (b : UInt8) (offset : Nat)
  | length (n : Nat)
  | lastSymbol (b : UInt8) (offset : Nat)
  | padding
  deriving DecidableEq, Repr

def Error.message : Error → String
  | symbol b i => "Invalid symbol " ++ toString b.toNat ++ ", offset " ++ toString i ++ "."
  | length n => "Invalid input length: " ++ toString n
  | lastSymbol b i => "Invalid last symbol " ++ toString b.toNat ++ ", offset " ++ toString i ++ "."
  | padding => "Invalid padding"

/-- The six bits that a symbol stands for. -/
def value? (b : UInt8) : Option Nat :=
  if 65 ≤ b ∧ b ≤ 90 then some (b.toNat - 65)
  else if 97 ≤ b ∧ b ≤ 122 then some (b.toNat - 71)
  else if 48 ≤ b ∧ b ≤ 57 then some (b.toNat + 4)
  else if b = 45 then some 62
  else if b = 95 then some 63
  else none

def symbol (n : Nat) : UInt8 :=
  if n < 26 then UInt8.ofNat (n + 65)
  else if n < 52 then UInt8.ofNat (n + 71)
  else if n < 62 then UInt8.ofNat (n - 4)
  else if n = 62 then 45
  else 95

def padSymbol : UInt8 := 61

/-- Four symbols for each three bytes, and two or three for the bytes left over. -/
def encode : Bytes → Bytes
  | a :: b :: c :: rest =>
    let n := (a.toNat * 256 + b.toNat) * 256 + c.toNat
    symbol (n / 262144) :: symbol (n / 4096 % 64) :: symbol (n / 64 % 64) :: symbol (n % 64) :: encode rest
  | [a, b] =>
    let n := (a.toNat * 256 + b.toNat) * 4
    [symbol (n / 4096), symbol (n / 64 % 64), symbol (n % 64)]
  | [a] => [symbol (a.toNat / 4), symbol (a.toNat % 4 * 16)]
  | [] => []

/-- The bytes that groups of four values stand for. -/
def gather : List Nat → Bytes
  | a :: b :: c :: d :: rest =>
    let n := ((a * 64 + b) * 64 + c) * 64 + d
    UInt8.ofNat (n / 65536) :: UInt8.ofNat (n / 256) :: UInt8.ofNat n :: gather rest
  | [a, b, c] =>
    let n := (a * 64 + b) * 64 + c
    [UInt8.ofNat (n / 1024), UInt8.ofNat (n / 4)]
  | [a, b] => [UInt8.ofNat ((a * 64 + b) / 16)]
  | _ => []

/-- Reads symbols only, the first of them at the given offset. -/
def values : Nat → Bytes → Except Error (List Nat)
  | _, [] => .ok []
  | i, b :: rest =>
    match value? b with
    | none => .error (.symbol b i)
    | some v => (values (i + 1) rest).map (v :: ·)

/-- Reads the last group, whose first symbol is at `start`; `pad` is the offset of the first padding in it. -/
def lastValues (start : Nat) : Nat → Option Nat → Bytes → Except Error (List Nat × Option Nat)
  | _, pad, [] => .ok ([], pad)
  | i, pad, b :: rest =>
    if b = padSymbol then
      if i < 2 then .error (.symbol b (start + i)) else lastValues start (i + 1) (pad <|> some (start + i)) rest
    else
      match pad, value? b with
      | some p, _ => .error (.symbol padSymbol p)
      | none, none => .error (.symbol b (start + i))
      | none, some v => (lastValues start (i + 1) none rest).map fun (vs, p) => (v :: vs, p)

/-- The bits of the last symbol that no byte takes up. -/
def strayBits : List Nat → Nat
  | [_, v] => v % 16
  | [_, _, v] => v % 4
  | _ => 0

/-- The length of all groups but the last one, which may be incomplete. -/
def wholeLength (n : Nat) : Nat := if n % 4 = 0 then n - 4 else n - n % 4

/-- A single symbol behind the whole groups is reported first if it is none. -/
def dangling? (text : Bytes) : Option Error :=
  match text.getLast? with
  | some b =>
    if text.length % 4 = 1 ∧ b ≠ padSymbol ∧ value? b = none then some (.symbol b (text.length - 1)) else none
  | none => none

def decode (text : Bytes) : Except Error Bytes := do
  if let some e := dangling? text then throw e
  let start := wholeLength text.length
  let whole ← values 0 (text.take start)
  let (last, pad) ← lastValues start 0 none (text.drop start)
  if text ≠ [] ∧ last.length < 2 then throw (.length (start + last.length))
  if pad.isSome then throw .padding
  if strayBits last ≠ 0 then throw (.lastSymbol (text.getLast?.getD 0) (text.length - 1))
  return gather (whole ++ last)

end Coursework.Base64
