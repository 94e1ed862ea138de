import Coursework.Failure
import Coursework.Text.Quoted

/-!
# Validation of requests

A request declares for some of its texts how many characters they may have.  Every text that breaks its rule is
reported on a line of its own, and the lines are sorted.
-/

namespace Coursework

structure LengthRule where
  least : Option Nat := none
  most : Option Nat := none
  deriving DecidableEq, Repr

namespace LengthRule

def between (least most : Nat) : LengthRule := ⟨some least, some most⟩
def atLeast (least : Nat) : LengthRule := ⟨some least, none⟩
def atMost (most : Nat) : LengthRule := ⟨none, some most⟩

/-- Whether a text has neither too few nor too many characters. -/
def admits (r : LengthRule) (s : String) : Bool :=
  r.least.all (· ≤ s.length) && r.most.all (s.length ≤ ·)

def parameter (name : String) (n : Nat) : String :=
  "\"" ++ name ++ "\": Number(" ++ toString n ++ ")"

/-- The bounds of the rule and the text that broke it. -/
def parameters (r : LengthRule) (s : String) : List String :=
  (r.most.map (parameter "max")).toList ++ (r.least.map (parameter "min")).toList ++
    ["\"value\": String(" ++ Text.quoted s ++ ")"]

/-- The line that reports a text under the name of its field. -/
def complaint (r : LengthRule) (field s : String) : String :=
  field ++ ": Validation error: length [\x7b" ++ ", ".intercalate (r.parameters s) ++ "\x7d]"

end LengthRule

/-- A text of a request with its field and its rule. -/
structure CheckedText where
  field : String
  rule : LengthRule
  value : String
  deriving DecidableEq, Repr

namespace Validation

def complaints (texts : List CheckedText) : List String :=
  (texts.filter fun t => !t.rule.admits t.value).map fun t => t.rule.complaint t.field t.value

def check (texts : List CheckedText) : Except Failure Unit :=
  match (complaints texts).mergeSort (fun a b => decide (a ≤ b)) with
  | [] => .ok ()
  | lines => .error (.invalidInput ("\n".intercalate lines))

end Validation

end Coursework
