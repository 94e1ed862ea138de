import Coursework.Http.Percent
import Coursework.Text.Split

/-!
# Forms

A form is a row of named texts, written `name=text&name=text` with a plus sign for a blank and escapes for most
other characters.
-/

namespace Coursework.Form

/-- Bytes that stand for themselves in a form. -/
def isPlain (b : UInt8) : Bool :=
  (48 ≤ b && b ≤ 57) || (65 ≤ b && b ≤ 90) || (97 ≤ b && b ≤ 122) || b = 42 || b = 45 || b = 46 || b = 95

def escapeByte (b : UInt8) : List Char :=
  if isPlain b then [Char.ofNat b.toNat] else if b = 32 then ['+'] else Percent.escape b

def escape (s : String) : List Char := (Bytes.ofText s).flatMap escapeByte

/-- Fields joined by ampersands. -/
def write (fields : List (String × String)) : String :=
  String.ofList (['&'].intercalate (fields.map fun (k, v) => escape k ++ '=' :: escape v))

def ampersand : UInt8 := 38
def equals : UInt8 := 61
def plus : UInt8 := 43
def blank : UInt8 := 32

/-- The text that a piece of a form stands for. -/
def unescape (bs : Bytes) : String :=
  (Percent.decodeAll (bs.map fun b => if b = plus then blank else b)).textLossy

/-- A field is a name and, after the first equals sign, a text. -/
def readField (piece : Bytes) : String × String :=
  let (name, text) := Text.cut equals piece
  (unescape name, unescape text)

def read (bs : Bytes) : List (String × String) :=
  ((Text.split ampersand bs).filter (· ≠ [])).map readField

end Coursework.Form
