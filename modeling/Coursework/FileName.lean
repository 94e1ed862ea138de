import Coursework.Failure
import Coursework.Text.Blank

/-!
# File names

An upload names its file as it likes.  What is kept is the last component of that path without surrounding
blanks; the stored bytes live under a key of their own, which borrows at most a plain extension.
-/

namespace Coursework.FileName

def isSeparator (c : Char) : Bool := c = '/' || c = '\\'

/-- What follows the last separator. -/
def lastComponent (cs : List Char) : List Char :=
  (cs.reverse.takeWhile (fun c => !isSeparator c)).reverse

/-- Names that stand for no file. -/
def isVoid (cs : List Char) : Bool := cs = [] || cs = ['.'] || cs = ['.', '.']

def missing : Failure := .invalidInput "Attachment file name must not be empty"

/-- The display name of an upload. -/
def sanitize (raw : String) : Except Failure String :=
  let name := Text.trim (lastComponent raw.toList)
  if isVoid name then .error missing else .ok (String.ofList name)

def isPlain (c : Char) : Bool := c.isAlphanum

/-- The dot and the extension after the last dot, if something stands before it and the extension is plain. -/
def keySuffix (name : String) : String :=
  let back := name.toList.reverse
  let ext := back.takeWhile (· ≠ '.')
  match back.dropWhile (· ≠ '.') with
  | '.' :: stem => if stem ≠ [] ∧ ext ≠ [] ∧ ext.all isPlain then String.ofList ('.' :: ext.reverse) else ""
  | _ => ""

end Coursework.FileName
