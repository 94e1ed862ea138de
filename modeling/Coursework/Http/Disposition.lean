import Coursework.Http.Percent
import Coursework.Text.Blank
import Coursework.Text.Split

/-!
# Content dispositions

A disposition says what a part of a form, or the body of an answer, is: its kind, and parameters such as a name and
the name of a file.  A file name outside ASCII is written twice, the second time as escaped UTF-8.
-/

namespace Coursework

structure Disposition where
  kind : String
  parameters : List (String × String)
  deriving DecidableEq, Repr, Inhabited

namespace Disposition

/-- What stands before the first separator and after it, without blanks at the cut. -/
def cutTrimmed (sep : Char) (cs : List Char) : List Char × List Char :=
  let (left, right) := Text.cut sep cs
  (Text.trimEnd left, Text.trimStart right)

/-- A quoted text, after its opening mark, and what follows its closing mark. -/
def quoted? : List Char → Option (List Char × List Char)
  | [] => none
  | '"' :: rest => some ([], rest)
  | '\\' :: c :: rest => (quoted? rest).map fun (text, after) => (c :: text, after)
  | c :: rest => (quoted? rest).map fun (text, after) => (c :: text, after)

/-- The value of a plain parameter, and the parameters after it. -/
def value? : List Char → Option (List Char × List Char)
  | '"' :: cs => do
    let (text, after) ← quoted? cs
    return (text, Text.trimStart (Text.cut ';' after).2)
  | cs =>
    let (token, after) := cutTrimmed ';' cs
    if token = [] then none else some (token, after)

/-- Whether a text is a language tag: letters, and then short words of letters and digits. -/
def isLanguage (cs : List Char) : Bool :=
  match Text.split '-' cs with
  | [] => false
  | first :: more =>
    first.all Char.isAlpha && 1 ≤ first.length && first.length ≤ 8
      && (2 ≤ first.length || more ≠ [])
      && more.all fun word => word.all Char.isAlphanum && 1 ≤ word.length && word.length ≤ 8

/-- An extended value has a character set, an optional language and an escaped text between single quotes. -/
def isExtended (cs : List Char) : Bool :=
  match Text.split '\'' cs with
  | _ :: language :: _ :: _ => language = [] || isLanguage language
  | _ => false

/-- A row of parameters; `fuel` bounds their number.  Extended ones are checked and passed over. -/
def parameters? : Nat → List Char → Option (List (String × String))
  | 0, _ => some []
  | _, [] => some []
  | fuel + 1, cs => do
    let (name, rest) := cutTrimmed '=' cs
    if name = [] || name = ['*'] || rest = [] then none
    if name.getLast? = some '*' then
      let (value, rest) := cutTrimmed ';' rest
      if isExtended value then parameters? fuel rest else none
    else
      let (value, rest) ← value? rest
      let more ← parameters? fuel rest
      return (String.ofList (name.map Char.toLower), String.ofList value) :: more

def parse? (s : String) : Option Disposition := do
  let (kind, rest) := cutTrimmed ';' (Text.trim s.toList)
  if kind = [] then none
  let parameters ← parameters? (rest.length + 1) rest
  return { kind := String.ofList (kind.map Char.toLower), parameters }

/-- The first parameter of a name. -/
def parameter? (d : Disposition) (name : String) : Option String := d.parameters.lookup name

/-- Characters that a quoted text escapes with a backslash. -/
def isEscaped (c : Char) : Bool :=
  let n := c.toNat
  n ≤ 8 || (16 ≤ n && n ≤ 31) || n = 127 || c = '"' || c = '\\'

def escape (cs : List Char) : List Char := cs.flatMap fun c => if isEscaped c then ['\\', c] else [c]

/-- Bytes that stand for themselves in an extended value. -/
def isPlain (b : UInt8) : Bool :=
  33 ≤ b && b ≤ 126 && b ∉ Bytes.ofText "\"%'()*,-/:;<>?[\\]\x7b\x7d"

def extended (name : String) : List Char :=
  (Bytes.ofText name).flatMap fun b => if isPlain b then [Char.ofNat b.toNat] else Percent.escape b

def isAscii (name : String) : Bool := name.toList.all fun c => c.toNat < 128

/-- The header of a file to be saved under a name. -/
def attachment (name : String) : String :=
  String.ofList ("attachment; filename=\"".toList ++ escape name.toList ++ ['"'] ++
    if isAscii name then [] else "; filename*=UTF-8''".toList ++ extended name)

/-- Characters that a header can carry. -/
def isHeaderChar (c : Char) : Bool := (32 ≤ c.toNat && c.toNat ≠ 127) || c = '\t'

/-- The header, unless the name has a character that no header can carry. -/
def attachment? (name : String) : Option String :=
  if (attachment name).toList.all isHeaderChar then some (attachment name) else none

end Disposition

end Coursework
