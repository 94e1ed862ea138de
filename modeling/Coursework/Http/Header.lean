import Coursework.Bytes
import Coursework.Http.MediaType

/-!
# Headers

A header is a name and a value; names differ in case as they like.  A block of headers is a row of lines
`name: value` that ends with an empty line.
-/

namespace Coursework

structure Header where
  name : String
  value : Bytes
  deriving DecidableEq, Repr, Inhabited

namespace Header

def sameName (a b : String) : Bool := a.toList.map Char.toLower = b.toList.map Char.toLower

/-- The value of the first header of a name. -/
def find? (name : String) (headers : List Header) : Option Bytes :=
  (headers.find? fun h => sameName h.name name).map Header.value

/-- Printable characters and tabs. -/
def isPrintable (value : Bytes) : Bool := value.all fun b => (32 ≤ b && b ≤ 126) || b = 9

/-- The text of a value that is printable. -/
def text? (value : Bytes) : Option String := if isPrintable value then value.text? else none

/-- The media type of a value. -/
def mediaType? (value : Bytes) : Option MediaType := (text? value).bind MediaType.parse?

def isValueByte (b : UInt8) : Bool := (32 ≤ b && b ≠ 127) || b = 9

def isBlank (b : UInt8) : Bool := b = 32 || b = 9

def isNameByte (b : UInt8) : Bool := MediaType.isTokenChar (Char.ofNat b.toNat)

/-- What precedes the line feed, and what follows it. -/
def cutLine (bs : Bytes) : Bytes × Bytes := (bs.takeWhile (· ≠ 10), (bs.dropWhile (· ≠ 10)).drop 1)

/-- A line without its carriage return. -/
def chomp (line : Bytes) : Bytes := if line.getLast? = some 13 then line.dropLast else line

def trim (bs : Bytes) : Bytes := ((bs.dropWhile isBlank).reverse.dropWhile isBlank).reverse

def ofLine? (line : Bytes) : Option Header :=
  let name := line.takeWhile isNameByte
  match line.dropWhile isNameByte with
  | 58 :: value =>
    if name ≠ [] ∧ value.all isValueByte then
      some ⟨String.ofList (name.map fun b => Char.ofNat b.toNat), trim value⟩
    else none
  | _ => none

/-- Reads at most `fuel` headers up to the empty line. -/
def readBlock? : Nat → Bytes → Option (List Header)
  | fuel, bs =>
    let (line, rest) := cutLine bs
    let line := chomp line
    if line = [] then some []
    else match fuel with
      | 0 => none
      | fuel + 1 => do
        let h ← ofLine? line
        let hs ← readBlock? fuel rest
        return h :: hs

end Header

end Coursework
