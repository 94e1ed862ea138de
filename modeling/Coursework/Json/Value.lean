import Coursework.Json.Number
import Coursework.Json.Str

/-!
# JSON values

The values the server answers with, and their compact text.
-/

namespace Coursework

inductive Json
  | null
  | bool (b : Bool)
  | int (n : Int)
  | str (s : String)
  | arr (items : List Json)
  | obj (members : List (String × Json))
  deriving Inhabited

namespace Json

def nullBytes : Bytes := [110, 117, 108, 108]
def trueBytes : Bytes := [116, 114, 117, 101]
def falseBytes : Bytes := [102, 97, 108, 115, 101]

mutual

/-- The compact text of a value. -/
def render : Json → Bytes
  | null => nullBytes
  | bool true => trueBytes
  | bool false => falseBytes
  | int n => integerBytes n
  | str s => StringToken.render s
  | arr [] => [91, 93]
  | arr (v :: vs) => 91 :: (render v ++ renderItems vs)
  | obj [] => [123, 125]
  | obj ((k, v) :: ms) => 123 :: (StringToken.render k ++ 58 :: (render v ++ renderMembers ms))

/-- The later items of an array and its closing bracket. -/
def renderItems : List Json → Bytes
  | [] => [93]
  | v :: vs => 44 :: (render v ++ renderItems vs)

/-- The later members of an object and its closing brace. -/
def renderMembers : List (String × Json) → Bytes
  | [] => [125]
  | (k, v) :: ms => 44 :: (StringToken.render k ++ 58 :: (render v ++ renderMembers ms))

end

end Json

end Coursework
