import Coursework.Bytes

/-!
# Identifiers

An identifier is 32 hexadecimal digits.  It is written in lower case with hyphens, and read in any case as bare
digits, with hyphens, in braces, or after `urn:uuid:`.
-/

namespace Coursework

structure Uuid where
  digits : List (Fin 16)
  length_digits : digits.length = 32
  deriving DecidableEq

namespace Uuid

def digitChar (d : Fin 16) : Char := Bytes.hexDigit d

def digit? (c : Char) : Option (Fin 16) :=
  if '0' ≤ c ∧ c ≤ '9' then some (Fin.ofNat 16 (c.toNat - 48))
  else if 'a' ≤ c ∧ c ≤ 'f' then some (Fin.ofNat 16 (c.toNat - 87))
  else if 'A' ≤ c ∧ c ≤ 'F' then some (Fin.ofNat 16 (c.toNat - 55))
  else none

/-- The five groups of 8, 4, 4, 4 and 12 characters, joined by hyphens. -/
def hyphenate (cs : List Char) : List Char :=
  cs.take 8 ++ '-' :: (cs.drop 8).take 4 ++ '-' :: (cs.drop 12).take 4 ++ '-' :: (cs.drop 16).take 4 ++
    '-' :: cs.drop 20

def chars (u : Uuid) : List Char := hyphenate (u.digits.map digitChar)

/-- The canonical text. -/
def text (u : Uuid) : String := String.ofList u.chars

inductive Error
  | length (found : Nat)
  | character (c : Char) (index : Nat)
  | groupCount (found : Nat)
  | groupLength (group expected found : Nat)
  deriving DecidableEq, Repr

def Error.message (e : Error) : String :=
  "UUID parsing failed: " ++ match e with
    | .length n => "invalid length: found " ++ toString n
    | .character c i => "invalid character: found `" ++ c.toString ++ "` at " ++ toString i
    | .groupCount n => "invalid group count: expected 5, found " ++ toString n
    | .groupLength g e n =>
      "invalid group length in group " ++ toString g ++ ": expected " ++ toString e ++ ", found " ++ toString n

def ofDigits? (ds : List (Fin 16)) : Option Uuid :=
  if h : ds.length = 32 then some ⟨ds, h⟩ else none

def bare? (cs : List Char) : Option Uuid := (cs.mapM digit?).bind ofDigits?

def hyphenated? (cs : List Char) : Option Uuid :=
  let plain := cs.filter (· ≠ '-')
  if cs = hyphenate plain then bare? plain else none

def urnHeading : List Char := "urn:uuid:".toList

/-- The part of a spelling inside its braces or after its heading, where that part starts, and whether it
stood alone. -/
def unwrap (cs : List Char) : List Char × Nat × Bool :=
  if cs.head? = some '{' ∧ cs.getLast? = some '}' ∧ 2 ≤ cs.length then ((cs.drop 1).dropLast, 1, false)
  else if (cs.take 9).map Char.toLower = urnHeading then (cs.drop 9, 9, false)
  else (cs, 0, true)

def byteLength (cs : List Char) : Nat := cs.foldl (fun n c => n + c.utf8Size) 0

/-- The first character that is neither a digit nor a hyphen, with its byte position. -/
def badCharacter? : Nat → List Char → Option (Char × Nat)
  | _, [] => none
  | i, c :: cs => if c = '-' ∨ (digit? c).isSome then badCharacter? (i + c.utf8Size) cs else some (c, i)

/-- The positions of the hyphens. -/
def hyphens : Nat → List Char → List Nat
  | _, [] => []
  | i, c :: cs => if c = '-' then i :: hyphens (i + 1) cs else hyphens (i + 1) cs

/-- Start and length of the first four groups. -/
def groups : List (Nat × Nat) := [(0, 8), (9, 4), (14, 4), (19, 4)]

/-- The first of the first four groups whose hyphen is misplaced. -/
def badGroup? : Nat → List (Nat × Nat) → List Nat → Option Error
  | g, (start, len) :: gs, h :: hs =>
    if h = start + len then badGroup? (g + 1) gs hs else some (.groupLength g len (h - start))
  | _, _, _ => none

/-- What is wrong with a text that is no spelling of an identifier. -/
def diagnose (cs : List Char) : Error :=
  let total := byteLength cs
  if cs = [] ∨ 45 < total then .length total
  else
    let (inner, start, alone) := unwrap cs
    match badCharacter? start inner with
    | some (c, i) => .character c i
    | none =>
      let hs := hyphens 0 inner
      if hs = [] ∧ alone then .length total
      else if hs.length ≠ 4 then .groupCount (hs.length + 1)
      else (badGroup? 0 groups hs).getD (.groupLength 4 12 (total - 24))

/-- Reads any of the four spellings. -/
def parse (s : String) : Except Error Uuid :=
  let cs := s.toList
  let (inner, _, alone) := unwrap cs
  match if alone then (bare? inner <|> hyphenated? inner) else hyphenated? inner with
  | some u => .ok u
  | none => .error (diagnose cs)

/-- Version 4 identifiers have the digit 4 and one of 8, 9, a, b at their fixed places. -/
def isRandom (u : Uuid) : Bool := u.digits[12]? = some 4 && (u.digits[16]?.any fun d => 8 ≤ d.val && d.val < 12)

/-- The digits of `n` below `16 ^ len`, the last one last. -/
def tailDigits (len n : Nat) : List (Fin 16) :=
  (List.range len).map fun i => Fin.ofNat 16 (n >>> (4 * (len - 1 - i)))

/-- The version 4 identifier that ends in the twelve digits of `n` and is otherwise zero. -/
def numbered (n : Nat) : Uuid where
  digits := tailDigits 12 0 ++ tailDigits 4 0x4000 ++ tailDigits 4 0x8000 ++ tailDigits 12 n
  length_digits := by simp [tailDigits]

end Uuid

end Coursework
