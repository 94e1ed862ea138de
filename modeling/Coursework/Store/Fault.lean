import Coursework.Store.Call

/-!
# Faults of the database

Calls reach the database as commands.  A fault plan lets the so-many-th call of a kind fail, either outright or in
the first command that matches.
-/

namespace Coursework

/-- What a database command does. -/
inductive Verb
  | find
  | count
  | insert
  | update
  | modify
  | delete
  | index
  | ping
  deriving DecidableEq, Repr

/-- What a database command is about. -/
inductive Resource
  | courses
  | chapters
  | lessons
  | attachments
  | grants
  | blobFiles
  | blobChunks
  | server
  deriving DecidableEq, Repr

structure Command where
  verb : Verb
  resource : Resource
  deriving DecidableEq, Repr

/-- The kinds of call that a plan can name. -/
inductive Site
  | listCourses | findCourse | hasCourse | addCourse | replaceCourse | removeCourse
  | listChapters | findChapter | chaptersOf | countChapters | hasChapter | addChapter | orderChapter | removeChapter
  | listLessons | findLesson | lessonsOf | countLessons | hasLesson | addLesson | fillLesson | orderLesson
  | removeLesson
  | addAttachment | findAttachment | attachmentsOf | countAttachments | removeAttachment
  | grant | hasGrant | grantsOf
  | putBlob | getBlob | removeBlob
  deriving DecidableEq, Repr

namespace Call

/-- The kind of a call; the second half of a grant belongs to the first. -/
def site? : Call → Option Site
  | listCourses => some .listCourses
  | findCourse _ => some .findCourse
  | hasCourse _ => some .hasCourse
  | addCourse _ => some .addCourse
  | replaceCourse _ => some .replaceCourse
  | removeCourse _ => some .removeCourse
  | listChapters => some .listChapters
  | findChapter _ => some .findChapter
  | chaptersOf _ => some .chaptersOf
  | countChapters _ => some .countChapters
  | hasChapter _ => some .hasChapter
  | addChapter _ => some .addChapter
  | orderChapter _ _ _ => some .orderChapter
  | removeChapter _ => some .removeChapter
  | listLessons => some .listLessons
  | findLesson _ => some .findLesson
  | lessonsOf _ => some .lessonsOf
  | countLessons _ => some .countLessons
  | hasLesson _ => some .hasLesson
  | addLesson _ => some .addLesson
  | fillLesson _ _ _ => some .fillLesson
  | orderLesson _ _ _ => some .orderLesson
  | removeLesson _ => some .removeLesson
  | addAttachment _ => some .addAttachment
  | findAttachment _ => some .findAttachment
  | attachmentsOf _ => some .attachmentsOf
  | countAttachments _ => some .countAttachments
  | removeAttachment _ => some .removeAttachment
  | seekGrant _ _ => some .grant
  | addGrant _ => none
  | hasGrant _ _ => some .hasGrant
  | grantsOf _ => some .grantsOf
  | putBlob _ _ _ => some .putBlob
  | getBlob _ => some .getBlob
  | removeBlob _ => some .removeBlob

/-- The one command of a call about rows. -/
def command? : Call → Option Command
  | listCourses | findCourse _ => some ⟨.find, .courses⟩
  | hasCourse _ => some ⟨.count, .courses⟩
  | addCourse _ => some ⟨.insert, .courses⟩
  | replaceCourse _ => some ⟨.update, .courses⟩
  | removeCourse _ => some ⟨.delete, .courses⟩
  | listChapters | findChapter _ | chaptersOf _ => some ⟨.find, .chapters⟩
  | countChapters _ | hasChapter _ => some ⟨.count, .chapters⟩
  | addChapter _ => some ⟨.insert, .chapters⟩
  | orderChapter _ _ _ => some ⟨.modify, .chapters⟩
  | removeChapter _ => some ⟨.delete, .chapters⟩
  | listLessons | findLesson _ | lessonsOf _ => some ⟨.find, .lessons⟩
  | countLessons _ | hasLesson _ => some ⟨.count, .lessons⟩
  | addLesson _ => some ⟨.insert, .lessons⟩
  | fillLesson _ _ _ => some ⟨.modify, .lessons⟩
  | orderLesson _ _ _ => some ⟨.update, .lessons⟩
  | removeLesson _ => some ⟨.delete, .lessons⟩
  | addAttachment _ => some ⟨.insert, .attachments⟩
  | findAttachment _ | attachmentsOf _ => some ⟨.find, .attachments⟩
  | countAttachments _ => some ⟨.count, .attachments⟩
  | removeAttachment _ => some ⟨.delete, .attachments⟩
  | seekGrant _ _ => some ⟨.update, .grants⟩
  | hasGrant _ _ => some ⟨.count, .grants⟩
  | grantsOf _ => some ⟨.find, .grants⟩
  | addGrant _ | putBlob _ _ _ | getBlob _ | removeBlob _ => none

end Call

/-- A command that will fail, with the code it fails with, as a whole or for a row that it was to write. -/
structure CommandFault where
  verb : Option Verb
  resource : Option Resource
  code : Int
  isWrite : Bool := false
  deriving DecidableEq, Repr

namespace CommandFault

def hits (f : CommandFault) (c : Command) : Bool := f.verb.all (· = c.verb) && f.resource.all (· = c.resource)

def error (f : CommandFault) : DatabaseError := if f.isWrite then .write f.code else .command f.code

/-- Takes the first fault that hits a command. -/
def take? (c : Command) : List CommandFault → Option (DatabaseError × List CommandFault)
  | [] => none
  | f :: fs => if f.hits c then some (f.error, fs) else (take? c fs).map fun (e, rest) => (e, f :: rest)

end CommandFault

/-- How a planned fault shows. -/
inductive FaultEffect
  | refusal (f : Failure)
  | command (f : CommandFault)
  deriving DecidableEq, Repr

/-- A fault at the call of a kind that comes after `skip` others of it. -/
structure PlannedFault where
  site : Site
  skip : Nat
  effect : FaultEffect
  deriving DecidableEq, Repr

namespace PlannedFault

/-- Counts a call of a kind: the effects due now, and the plan that is left. -/
def strike (site : Site) : List PlannedFault → List FaultEffect × List PlannedFault
  | [] => ([], [])
  | p :: ps =>
    let (due, left) := strike site ps
    if p.site = site then
      match p.skip with
      | 0 => (p.effect :: due, left)
      | n + 1 => (due, { p with skip := n } :: left)
    else (due, p :: left)

end PlannedFault

namespace FaultEffect

def refusal? : List FaultEffect → Option Failure
  | [] => none
  | refusal f :: _ => some f
  | command _ :: es => refusal? es

def commands (es : List FaultEffect) : List CommandFault :=
  es.filterMap fun
    | command f => some f
    | refusal _ => none

end FaultEffect

end Coursework
