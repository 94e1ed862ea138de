/-!
# Media types

A media type is `top/sub`, where the subtype may end in a plus sign and a suffix, and may be followed by
parameters.  Names are compared in lower case.
-/

namespace Coursework

structure MediaType where
  top : String
  sub : String
  suffix : Option String
  parameters : List (String × String)
  deriving DecidableEq, Repr, Inhabited

namespace MediaType

/-- Characters of a token. -/
def isTokenChar (c : Char) : Bool := c.isAlphanum || c ∈ "!#$%&'*+-.^_`|~".toList

/-- Characters of a quoted value, where a quotation mark can only come first. -/
def isQuotedChar (c : Char) : Bool := 31 < c.toNat && c.toNat ≠ 127 && c ≠ '"'

def lower (cs : List Char) : String := String.ofList (cs.map Char.toLower)

/-- The characters before and after the last plus sign that is not the first character. -/
def splitSuffix (cs : List Char) : List Char × Option (List Char) :=
  let tail := (cs.reverse.takeWhile (· ≠ '+')).reverse
  let stem := cs.take (cs.length - tail.length - 1)
  if tail.length < cs.length ∧ stem ≠ [] then (stem, some tail) else (cs, none)

/-- A quoted value, after its opening mark, and what follows its closing mark. -/
def quoted? (cs : List Char) : Option (List Char × List Char) :=
  let (opening, rest) := match cs with
    | '"' :: rest => (['"'], rest)
    | _ => ([], cs)
  let value := opening ++ rest.takeWhile isQuotedChar
  match rest.dropWhile isQuotedChar with
  | '"' :: after => if value = [] then none else some (value, after)
  | _ => none

/-- After a quoted value only blanks may come before the next semicolon. -/
def afterQuoted? (cs : List Char) : Option (List Char) :=
  match cs.dropWhile (· = ' ') with
  | [] => some []
  | ';' :: rest => some rest
  | _ => none

/-- The value of a parameter, and what follows the semicolon after it. -/
def value? : List Char → Option (List Char × List Char)
  | '"' :: cs => do
    let (value, after) ← quoted? cs
    let rest ← afterQuoted? after
    return (value, rest)
  | cs =>
    let value := cs.takeWhile isTokenChar
    match cs.dropWhile isTokenChar with
    | [] => some (value, [])
    | ';' :: rest => if value = [] then none else some (value, rest)
    | _ => none

/-- A row of parameters; `fuel` bounds their number. -/
def parameters? : Nat → List Char → Option (List (String × String))
  | 0, _ => some []
  | fuel + 1, cs =>
    match cs.dropWhile (· = ' ') with
    | [] => some []
    | cs =>
      let name := cs.takeWhile isTokenChar
      match cs.dropWhile isTokenChar with
      | '=' :: rest => do
        if name = [] then none
        let (value, rest) ← value? rest
        let more ← parameters? fuel rest
        return (lower name, String.ofList value) :: more
      | _ => none

def parse? (s : String) : Option MediaType := do
  let cs := s.toList
  let top := cs.takeWhile isTokenChar
  let rest ← match cs.dropWhile isTokenChar with
    | '/' :: rest => if top = [] then none else some rest
    | _ => none
  let sub := rest.takeWhile isTokenChar
  let (stem, suffix) := splitSuffix sub
  let parameters ← match rest.dropWhile isTokenChar with
    | [] => some []
    | ';' :: tail => if sub = [] then none else parameters? (tail.length + 1) tail
    | _ => none
  return { top := lower top, sub := lower stem, suffix := suffix.map lower, parameters }

def parameter? (m : MediaType) (name : String) : Option String := m.parameters.lookup name

/-- Whether the subtype or its suffix is this one. -/
def isKind (m : MediaType) (kind : String) : Bool := m.sub = kind || m.suffix = some kind

end MediaType

end Coursework
