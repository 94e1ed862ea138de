import Coursework.Json.Record

/-!
# Choices

A name out of a fixed list, written as a string, or as an object whose only member has that name and no value.
-/

namespace Coursework.Json.Choice

def known (options : List String) (name : String) : Except Defect String :=
  if name ∈ options then .ok name else .error (.unknownVariant name options)

/-- What is wrong with the value that goes with a name. -/
def valueDefect? : Node → Option Defect
  | .null => none
  | n => some (n.mismatch "unit")

/-- Reads a choice from a value that was read in whole before. -/
def ofWhole (options : List String) : Node → Except Defect String
  | .string t =>
    match t.text with
    | .ok s => known options s
    | .error f => .error (.fault f)
  | .object [(k, n)] _ =>
    match k.text with
    | .error f => .error (.fault f)
    | .ok s => do
      let name ← known options s
      match valueDefect? n with
      | some d => .error d
      | none => .ok name
  | .object _ _ => .error (.invalidValue .map "map with a single key")
  | n => .error (n.mismatch "string or map")

/-- Reads a choice where it stands. -/
def ofText (options : List String) : Node → Except Defect String
  | .string t =>
    match t.text with
    | .ok s => known options s
    | .error f => .error (.fault f)
  | .object ((k, n) :: more) stop =>
    match k.text with
    | .error f => .error (.fault f)
    | .ok s => do
      let name ← known options s
      match valueDefect? n, more, stop with
      | some d, _, _ => .error d
      | none, [], .closed => .ok name
      | none, [], .eof => .error (.fault .eofObject)
      | none, _, _ => .error (.fault .expectedValue)
  | .object [] .eof => .error (.fault .eofValue)
  | .broken .eofValue => .error (.fault .eofValue)
  | _ => .error (.fault .expectedValue)

end Coursework.Json.Choice
