import Coursework.Json.Node
import Coursework.Text.Quoted

/-!
# Defects of a JSON value

Why a text is not the JSON of the type that was asked for: it is no JSON at all, or a value in it is of the wrong
type, out of range, missing or repeated.
-/

namespace Coursework.Json

/-- What was met in place of the expected value. -/
inductive Found
  | null
  | boolean (b : Bool)
  | integer (n : Int)
  | double (isNegative : Bool) (value : Binary64)
  | string (s : String)
  | sequence
  | map
  deriving DecidableEq, Repr

inductive Defect
  | fault (f : Fault)
  | invalidType (found : Found) (expected : String)
  | invalidValue (found : Found) (expected : String)
  | invalidLength (n : Nat) (expected : String)
  | missingField (name : String)
  | duplicateField (name : String)
  | unknownVariant (name : String) (options : List String)
  | refused (reason : String)
  deriving DecidableEq, Repr

def inBackticks (s : String) : String := "`" ++ s ++ "`"

def Found.message : Found → String
  | null => "null"
  | boolean b => "boolean " ++ inBackticks (if b then "true" else "false")
  | integer n => "integer " ++ inBackticks (toString n)
  | double isNegative v => "floating point " ++ inBackticks ((if isNegative then "-" else "") ++ v.text)
  | string s => "string " ++ Text.quoted s
  | sequence => "sequence"
  | map => "map"

/-- The choice among several names. -/
def oneOf : List String → String
  | [] => "nothing"
  | [a] => inBackticks a
  | [a, b] => inBackticks a ++ " or " ++ inBackticks b
  | names => "one of " ++ ", ".intercalate (names.map inBackticks)

def Defect.message : Defect → String
  | fault f => f.message
  | invalidType found expected => "invalid type: " ++ found.message ++ ", expected " ++ expected
  | invalidValue found expected => "invalid value: " ++ found.message ++ ", expected " ++ expected
  | invalidLength n expected => "invalid length " ++ toString n ++ ", expected " ++ expected
  | missingField name => "missing field " ++ inBackticks name
  | duplicateField name => "duplicate field " ++ inBackticks name
  | unknownVariant name options => "unknown variant " ++ inBackticks name ++ ", expected " ++ oneOf options
  | refused reason => reason

def Found.ofNumber : Number → Found
  | .natural n => .integer n
  | .negative n => .integer (-n)
  | .double isNegative v => .double isNegative v

namespace Node

/-- What kind of value this is, as far as it has to be read to know. -/
def found : Node → Except Fault Found
  | null => .ok .null
  | bool b => .ok (.boolean b)
  | number t => t.value.map Found.ofNumber
  | string t => t.text.map Found.string
  | array _ _ => .ok .sequence
  | object _ _ => .ok .map
  | deep _ => .error .recursionLimit
  | broken f => .error f

/-- The defect of a value of the wrong type. -/
def mismatch (expected : String) (n : Node) : Defect :=
  match n.found with
  | .ok found => .invalidType found expected
  | .error f => .fault f

end Node

end Coursework.Json
