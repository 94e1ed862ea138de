import Coursework.Json.Number
import Coursework.Json.Str

/-!
# The tree of a JSON text

Reading never fails: the tree of a faulty text simply has the fault at the place where it was met.  Whoever walks
the tree in the order of the text meets faults of the text and of its meaning in that order, and faults behind
the first one never.  Containers may be nested 127 deep before they are marked as too deep to be understood.
-/

namespace Coursework.Json

/-- What follows the last item of an array. -/
inductive ListEnd
  | closed
  | eof
  | eofAfterComma
  | bracketAfterComma
  | other
  deriving DecidableEq, Repr

/-- What follows the last member of an object. -/
inductive ObjectEnd
  | closed
  | eof
  | eofAfterComma
  | braceAfterComma
  | noKey
  | other
  deriving DecidableEq, Repr

inductive Node
  | null
  | bool (b : Bool)
  | number (t : NumberToken)
  | string (t : StringToken)
  | array (items : List Node) (stop : ListEnd)
  | object (members : List (StringToken × Node)) (stop : ObjectEnd)
  | deep (n : Node)
  | broken (f : Fault)
  deriving Inhabited

namespace Node

def isSpace (b : UInt8) : Bool := b = 32 || b = 10 || b = 9 || b = 13

def skipSpace (bs : Bytes) : Bytes := bs.dropWhile isSpace

/-- The rest of a keyword whose first letter was seen. -/
def keyword (n : Node) : Bytes → Bytes → Node × Bytes
  | [], r => (n, r)
  | _ :: _, [] => (broken .eofValue, [])
  | w :: ws, b :: r => if b = w then keyword n ws r else (broken .expectedIdent, r)

/-- The depth at which containers stop being understood. -/
def depthLimit : Nat := 128

def container (depth : Nat) (n : Node) : Node := if depthLimit ≤ depth then deep n else n

mutual

/-- Reads one value; `fuel` bounds the number of steps and `depth` counts the open containers. -/
def readValue : Nat → Nat → Bytes → Node × Bytes
  | 0, _, _ => (broken .eofValue, [])
  | fuel + 1, depth, bs =>
    match skipSpace bs with
    | [] => (broken .eofValue, [])
    | 110 :: r => keyword null [117, 108, 108] r
    | 116 :: r => keyword (bool true) [114, 117, 101] r
    | 102 :: r => keyword (bool false) [97, 108, 115, 101] r
    | 45 :: r => let (t, r) := NumberToken.read true r; (number t, r)
    | 34 :: r => let (t, r) := StringToken.scan [] r; (string t, r)
    | 91 :: r =>
      match skipSpace r with
      | [] => (container (depth + 1) (array [] .eof), [])
      | 93 :: r => (container (depth + 1) (array [] .closed), r)
      | r =>
        let (items, stop, r) := readItems fuel (depth + 1) [] r
        (container (depth + 1) (array items stop), r)
    | 123 :: r =>
      match skipSpace r with
      | [] => (container (depth + 1) (object [] .eof), [])
      | 125 :: r => (container (depth + 1) (object [] .closed), r)
      | 34 :: r =>
        let (members, stop, r) := readMembers fuel (depth + 1) [] r
        (container (depth + 1) (object members stop), r)
      | r => (container (depth + 1) (object [] .noKey), r)
    | b :: r =>
      if NumberToken.isDigit b then let (t, r) := NumberToken.read false (b :: r); (number t, r)
      else (broken .expectedValue, r)

/-- Reads the items of an array from the next one on; `done` holds the earlier ones, backwards. -/
def readItems : Nat → Nat → List Node → Bytes → List Node × ListEnd × Bytes
  | 0, _, done, _ => (done.reverse, .eof, [])
  | fuel + 1, depth, done, bs =>
    let (n, r) := readValue fuel depth bs
    match skipSpace r with
    | [] => ((n :: done).reverse, .eof, [])
    | 93 :: r => ((n :: done).reverse, .closed, r)
    | 44 :: r =>
      match skipSpace r with
      | [] => ((n :: done).reverse, .eofAfterComma, [])
      | 93 :: r => ((n :: done).reverse, .bracketAfterComma, r)
      | r => readItems fuel depth (n :: done) r
    | r => ((n :: done).reverse, .other, r)

/-- Reads the members of an object from the next one on, the opening quote of its key taken off. -/
def readMembers : Nat → Nat → List (StringToken × Node) → Bytes →
    List (StringToken × Node) × ObjectEnd × Bytes
  | 0, _, done, _ => (done.reverse, .eof, [])
  | fuel + 1, depth, done, bs =>
    let (k, r) := StringToken.scan [] bs
    match skipSpace r with
    | [] => (((k, broken .eofObject) :: done).reverse, .eof, [])
    | 58 :: r =>
      let (n, r) := readValue fuel depth r
      match skipSpace r with
      | [] => (((k, n) :: done).reverse, .eof, [])
      | 125 :: r => (((k, n) :: done).reverse, .closed, r)
      | 44 :: r =>
        match skipSpace r with
        | [] => (((k, n) :: done).reverse, .eofAfterComma, [])
        | 125 :: r => (((k, n) :: done).reverse, .braceAfterComma, r)
        | 34 :: r => readMembers fuel depth ((k, n) :: done) r
        | r => (((k, n) :: done).reverse, .noKey, r)
      | r => (((k, n) :: done).reverse, .other, r)
    | r => (((k, broken .expectedColon) :: done).reverse, .other, r)

end

/-- The tree at the front of a text and what follows it. -/
def read (bs : Bytes) : Node × Bytes := readValue (2 * bs.length + 2) 0 bs

def ListEnd.skipFault? : ListEnd → Option Fault
  | .closed => none
  | .eof => some .eofList
  | .eofAfterComma => some .eofValue
  | .bracketAfterComma => some .expectedValue
  | .other => some .expectedListComma

def ObjectEnd.skipFault? : ObjectEnd → Option Fault
  | .closed => none
  | .eof => some .eofObject
  | .eofAfterComma => some .eofObject
  | .braceAfterComma => some .keyMustBeString
  | .noKey => some .keyMustBeString
  | .other => some .expectedObjectComma

mutual

/-- The first fault in a value that nobody wants. -/
def skipFault? : Node → Option Fault
  | null => none
  | bool _ => none
  | number t => if t.flaw.isSome then some .invalidNumber else none
  | string t => t.skipFault?
  | array items stop => skipItems items <|> ListEnd.skipFault? stop
  | object members stop => skipMembers members <|> ObjectEnd.skipFault? stop
  | deep n => skipFault? n
  | broken f => some f

def skipItems : List Node → Option Fault
  | [] => none
  | n :: ns => skipFault? n <|> skipItems ns

def skipMembers : List (StringToken × Node) → Option Fault
  | [] => none
  | (k, n) :: ms => k.skipFault? <|> (skipFault? n <|> skipMembers ms)

end

def ListEnd.fault? : ListEnd → Option Fault
  | .closed => none
  | .eof => some .eofList
  | .eofAfterComma => some .eofValue
  | .bracketAfterComma => some .trailingComma
  | .other => some .expectedListComma

def ObjectEnd.fault? : ObjectEnd → Option Fault
  | .closed => none
  | .eof => some .eofObject
  | .eofAfterComma => some .eofValue
  | .braceAfterComma => some .trailingComma
  | .noKey => some .keyMustBeString
  | .other => some .expectedObjectComma

/-- What an array's end means to a reader that wants no more items. -/
def ListEnd.closingFault? : ListEnd → Option Fault
  | .closed => none
  | .eof => some .eofList
  | .bracketAfterComma => some .trailingComma
  | .eofAfterComma => some .trailingCharacters
  | .other => some .trailingCharacters

def faultOf {α : Type} : Except Fault α → Option Fault
  | .ok _ => none
  | .error f => some f

mutual

/-- The first fault in a value that is read in whole before its meaning is asked for. -/
def wholeFault? : Node → Option Fault
  | null => none
  | bool _ => none
  | number t => faultOf t.value
  | string t => faultOf t.text
  | array items stop => wholeItems items <|> ListEnd.fault? stop
  | object members stop => wholeMembers members <|> ObjectEnd.fault? stop
  | deep _ => some .recursionLimit
  | broken f => some f

def wholeItems : List Node → Option Fault
  | [] => none
  | n :: ns => wholeFault? n <|> wholeItems ns

def wholeMembers : List (StringToken × Node) → Option Fault
  | [] => none
  | (k, n) :: ms => faultOf k.text <|> (wholeFault? n <|> wholeMembers ms)

end

end Node

end Coursework.Json
