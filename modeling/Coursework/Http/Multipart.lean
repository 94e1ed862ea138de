import Coursework.Http.Disposition
import Coursework.Http.Header
import Coursework.Text.Decimal

/-!
# Bodies in parts

A body in parts is a row of parts between lines with a boundary.  Each part has headers, an empty line and a
content, and the disposition among its headers names it.
-/

namespace Coursework.Multipart

/-- Why a body cannot be taken apart. -/
inductive Fault
  | boundary
  | disposition
  | nested
  | incomplete
  | header
  | size
  deriving DecidableEq, Repr

def Fault.message : Fault → String
  | boundary => "Multipart boundary is not found"
  | disposition => "Content-Disposition header was not found when parsing a \"form-data\" field"
  | nested => "Nested multipart is not supported"
  | incomplete => "Multipart stream is incomplete"
  | header => "Error during field parsing"
  | size => "Payload error"

structure Part where
  name : String
  fileName : Option String
  mediaType : Option MediaType
  content : Bytes
  /-- Whether the content was followed by a boundary. -/
  isWhole : Bool
  deriving DecidableEq, Repr

/-- Parts, and the fault that kept the rest from being read. -/
structure Parts where
  parts : List Part
  fault : Option Fault
  deriving DecidableEq, Repr

def lineFeed : UInt8 := 10
def carriageReturn : UInt8 := 13
def dashes : Bytes := [45, 45]
def lineEnd : Bytes := [carriageReturn, lineFeed]

/-- What stands before the first place where `stop` holds, and the rest from there; `seen` is turned round. -/
def breakAt (stop : Bytes → Bool) (seen : Bytes) : Bytes → Option (Bytes × Bytes)
  | [] => none
  | b :: rest => if stop (b :: rest) then some (seen.reverse, b :: rest) else breakAt stop (b :: seen) rest

def startsWith (start bs : Bytes) : Bool := start.isPrefixOf bs

/-- A line with its line feed, and the rest. -/
def line? (bs : Bytes) : Option (Bytes × Bytes) :=
  (breakAt (startsWith [lineFeed]) [] bs).map fun (line, rest) => (line ++ [lineFeed], rest.drop 1)

/-- What comes after a line with a boundary. -/
inductive Next
  | part (rest : Bytes)
  | finish
  deriving DecidableEq, Repr

/-- Whether a line opens the first part; lines of the preamble do not. -/
def isOpening (boundary line : Bytes) : Bool :=
  boundary.length ≤ line.length && startsWith dashes line && (line.drop 2).take (line.length - 4) = boundary

/-- Whether a line of the preamble ends the body at once. -/
def isClosing (boundary line : Bytes) : Bool := startsWith (boundary ++ dashes) line

/-- Skips the preamble; `fuel` bounds the number of its lines. -/
def first (boundary : Bytes) : Nat → Bytes → Except Fault Next
  | 0, _ => .error .incomplete
  | fuel + 1, bs =>
    match line? bs with
    | none => .error .incomplete
    | some (line, rest) =>
      if isOpening boundary line then .ok (.part rest)
      else if isClosing boundary line then .ok .finish
      else first boundary fuel rest

/-- Reads the line with the boundary that follows a content. -/
def next (boundary bs : Bytes) : Except Fault Next :=
  let (line, rest) := (line? bs).getD (bs, [])
  if startsWith (dashes ++ boundary) line then
    let after := line.drop (boundary.length + 2)
    if after = lineEnd then .ok (.part rest)
    else if after = dashes ∨ after = dashes ++ lineEnd then .ok .finish
    else .error .boundary
  else .error .boundary

def mostHeaders : Nat := 32

/-- The headers of a part, and what follows the empty line after them. -/
def headers (bs : Bytes) : Except Fault (List Header × Bytes) :=
  match breakAt (startsWith (lineEnd ++ lineEnd)) [] bs with
  | none => .error .incomplete
  | some (block, rest) =>
    match Header.readBlock? mostHeaders (block ++ lineEnd ++ lineEnd) with
    | some hs => .ok (hs, rest.drop 4)
    | none => .error .header

/-- The disposition of a form's part, with the part's name. -/
def disposition? (hs : List Header) : Option (Disposition × String) := do
  let value ← Header.find? "content-disposition" hs
  let d ← value.text?.bind Disposition.parse?
  if d.kind ≠ "form-data" then none
  let name ← d.parameter? "name"
  return (d, name)

/-- A declared length, a number of at most 64 bits. -/
def length? (value : Bytes) : Option Nat := (Header.text? value).bind (Text.numeral? UInt64.size)

/-- What a content ends before: a boundary on a line of its own, or after a mere carriage return. -/
def contentEnds (boundary : Bytes) : List Bytes :=
  [lineEnd ++ dashes ++ boundary, carriageReturn :: dashes ++ boundary]

def startsWithAny (starts : List Bytes) (bs : Bytes) : Bool := starts.any fun start => startsWith start bs

/-- A content of a declared length, or one that reaches to the boundary: its bytes, and what follows the line they
end in unless it is missing. -/
def content (boundary : Bytes) (declared : Option Nat) (bs : Bytes) : Bytes × Option Bytes :=
  match declared with
  | some n => (bs.take n, if bs.length < n then none else (line? (bs.drop n)).map Prod.snd)
  | none =>
    match breakAt (startsWithAny (contentEnds boundary)) [] bs with
    | some (bytes, rest) => (bytes, (line? rest).map Prod.snd)
    | none => (bs, none)

/-- One part, and what follows it if anything can. -/
def part (boundary bs : Bytes) : Except Fault (Part × Option Bytes) := do
  let (hs, rest) ← headers bs
  let some (d, name) := disposition? hs | throw .disposition
  let mediaType := (Header.find? "content-type" hs).bind Header.mediaType?
  if mediaType.any fun m => m.top = "multipart" then throw .nested
  let declared ← match Header.find? "content-length" hs with
    | none => pure none
    | some value => match length? value with
      | some n => pure (some n)
      | none => throw .size
  let (bytes, after) := content boundary declared rest
  return ({ name, fileName := d.parameter? "filename", mediaType, content := bytes, isWhole := after.isSome }, after)

/-- Reads parts up to the closing boundary; `fuel` bounds their number. -/
def partsFrom (boundary : Bytes) : Nat → Bytes → Parts
  | 0, _ => ⟨[], some .incomplete⟩
  | fuel + 1, bs =>
    match part boundary bs with
    | .error e => ⟨[], some e⟩
    | .ok (p, none) => ⟨[p], some .incomplete⟩
    | .ok (p, some rest) =>
      match next boundary rest with
      | .error e => ⟨[p], some e⟩
      | .ok .finish => ⟨[p], none⟩
      | .ok (.part rest) =>
        let more := partsFrom boundary fuel rest
        { more with parts := p :: more.parts }

/-- Takes a body apart. -/
def parts (boundary bs : Bytes) : Parts :=
  match first boundary (bs.length + 1) bs with
  | .error e => ⟨[], some e⟩
  | .ok .finish => ⟨[], none⟩
  | .ok (.part rest) => partsFrom boundary (rest.length + 1) rest

end Coursework.Multipart
