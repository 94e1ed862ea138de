import Coursework.Catalog.View
import Coursework.FileName
import Coursework.Program

/-!
# Attachments

The bytes of an attachment lie in the blob store under a key that nobody sees.  They are stored before the row, and
removed again when the row cannot be added; a download needs a grant for the lesson.
-/

namespace Coursework

/-- A downloaded attachment. -/
structure Download where
  name : String
  bytes : Bytes
  deriving DecidableEq, Repr, Inhabited

namespace Attachments

open Program

/-- The key for an upload of this name. -/
def storageKey (fresh : Uuid) (name : String) : String := fresh.text ++ FileName.keySuffix name

def upload (now : Timestamp) (lessonId rawName : String) (bytes : Bytes) : Program Attachment := do
  let _ ← ask (.findLesson lessonId)
  let name ← ofExcept (FileName.sanitize rawName)
  let fresh ← freshKey
  let key := storageKey fresh name
  ask (.putBlob key bytes now)
  let id ← freshId
  match ← attempt (ask (.addAttachment ⟨id.text, name, key, lessonId, now⟩)) with
  | .ok row => ok row
  | .error e => do
    let _ ← attempt (ask (.removeBlob key))
    fail e

def noAccess (id : String) : Failure := .accessDenied ("No access to attachment '" ++ id ++ "'")

def download (user id : String) : Program Download := do
  let row : Attachment ← ask (.findAttachment id)
  let admitted ← ask (.hasGrant user row.lessonId)
  require admitted (noAccess id)
  let bytes ← ask (.getBlob row.storageKey)
  ok ⟨row.name, bytes⟩

def list (lessonId : String) : Program (List AttachmentView) := do
  let known ← ask (.hasLesson lessonId)
  require known (Store.noLesson lessonId)
  let rows ← ask (.attachmentsOf lessonId)
  ok (List.map Attachment.view rows)

/-- Removes the row and then the blob; a blob that stays behind is no failure. -/
def delete (id : String) : Program Unit := do
  let row : Attachment ← ask (.findAttachment id)
  ask (.removeAttachment id)
  let _ ← attempt (ask (.removeBlob row.storageKey))
  ok ()

end Attachments

end Coursework
