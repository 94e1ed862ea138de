import Coursework.Http.Percent
import Coursework.Text.Split

/-!
# Request targets

What a request asks for: a path and a query.  A target may also name an authority before its path, or be nothing
but an authority or an asterisk; those have no path to speak of.
-/

namespace Coursework

structure Target where
  path : Bytes
  query : Bytes
  deriving DecidableEq, Repr, Inhabited

namespace Target

def slash : UInt8 := 47
def question : UInt8 := 63
def hash : UInt8 := 35
def colon : UInt8 := 58
def commercialAt : UInt8 := 64
def openBracket : UInt8 := 91
def closeBracket : UInt8 := 93

def isAlnum (b : UInt8) : Bool := (48 ≤ b && b ≤ 57) || (65 ≤ b && b ≤ 90) || (97 ≤ b && b ≤ 122)

/-- Bytes of a path: the printable ones but for a few that have to be escaped. -/
def isPathByte (b : UInt8) : Bool :=
  33 ≤ b && b ≤ 126 && b ∉ ([hash, 60, 62, question, 96] : Bytes)

/-- Bytes of a query. -/
def isQueryByte (b : UInt8) : Bool :=
  33 ≤ b && b ≤ 126 && b ∉ ([34, hash, 60, 62] : Bytes)

/-- Bytes of an authority: letters, digits and the marks that addresses are made of. -/
def isAuthorityByte (b : UInt8) : Bool :=
  isAlnum b || b ∈ Bytes.ofText "!$%&'()*+,-.:;=@[]_~"

def isSchemeByte (b : UInt8) : Bool := isAlnum b || b ∈ Bytes.ofText "+-."

/-- Path, query and fragment; the fragment is of no concern. -/
def ofPath? (bs : Bytes) : Option Target :=
  let beforeHash := (Text.cut hash bs).1
  let (path, query) := Text.cut question beforeHash
  if path.all isPathByte && query.all isQueryByte then some ⟨path, query⟩ else none

/-- Whether bytes are an address: at most one colon after the host, closed brackets, no escapes outside the
user's name, and something after the name. -/
def isAuthority (bs : Bytes) : Bool :=
  let host := (bs.reverse.takeWhile (· ≠ commercialAt)).reverse
  let tail := (host.reverse.takeWhile (· ≠ closeBracket)).reverse
  bs.all isAuthorityByte
    && bs.count openBracket = bs.count closeBracket && bs.count openBracket ≤ 1
    && bs.idxOf openBracket ≤ bs.idxOf closeBracket
    && tail.count colon ≤ 1 && Percent.sign ∉ tail
    && bs.getLast? ≠ some commercialAt

/-- What precedes `://`, and what follows it. -/
def scheme? (bs : Bytes) : Option (Bytes × Bytes) :=
  let name := bs.takeWhile isSchemeByte
  match bs.drop name.length with
  | 58 :: 47 :: 47 :: rest => if name.length ≤ 64 then some (name, rest) else none
  | _ => none

def isAuthorityEnd (b : UInt8) : Bool := b = slash || b = question || b = hash

def isInAuthority (b : UInt8) : Bool := !isAuthorityEnd b

/-- A target without a path of its own. -/
def ofAuthority? (bs : Bytes) : Option Target :=
  match scheme? bs with
  | some (_, rest) =>
    let authority := rest.takeWhile isInAuthority
    if authority ≠ [] && isAuthority authority then
      (ofPath? (rest.dropWhile isInAuthority)).map fun t => if t.path = [] then { t with path := [slash] } else t
    else none
  | none => if isAuthority bs && bs ≠ [] then some ⟨[], []⟩ else none

def longest : Nat := 65534

/-- Reads a target. -/
def ofBytes? (bs : Bytes) : Option Target :=
  if longest < bs.length then none
  else if bs.head? = some slash then ofPath? bs
  else if bs = [42] then some ⟨bs, []⟩
  else ofAuthority? bs

/-- Escapes of slashes, plus signs and percent signs stay until the segments are apart. -/
def isKept (b : UInt8) : Bool := b = Percent.sign || b = slash || b = 43

/-- The segments of the path; none when it does not begin with a slash. -/
def segments (t : Target) : List String :=
  match ((Percent.decode isKept t.path).textLossy.toList : List Char) with
  | '/' :: rest => (Text.split '/' rest).map String.ofList
  | _ => []

/-- The text that a segment stands for. -/
def unescape (segment : String) : String := (Percent.decodeAll (Bytes.ofText segment)).textLossy

end Target

end Coursework
