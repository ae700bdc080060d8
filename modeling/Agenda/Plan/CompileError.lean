import Agenda.Field
import Agenda.Position
/-!
# Rejected commands

Why a command that is well formed cannot be carried out: the cause, the field it concerns, and the
place of the operation or predicate at fault.
-/
namespace Agenda

inductive CompileError.Cause where
  /-- The line had a mistake of its own, with this message. -/
  | unreadable (message : Text)
  /-- There is no command. -/
  | noCommand
  | invalidState (text : Text)
  | stateWildcard
  | invalidDate (text : Text)
  | invalidTaskId (text : Text)
  /-- The target of an update is the number 0. -/
  | zeroTarget
  | noSelection
  /-- A title is set to nothing. -/
  | emptyTitle
  /-- A task has no title after all operations. -/
  | missingTitle
  | removalInCreate
  | unsupportedSign (sign : Char) (field : Field)
  /-- A list is set as a whole, which an update does not allow. -/
  | wholeList (field : Field)
  | notClearable (field : Field)
  /-- An entry without a colon. -/
  | malformedEntry (entry : Text)
  /-- An entry without a key. -/
  | emptyKey (entry : Text)
deriving DecidableEq, Repr

/-- A rejection. Errors of a whole command have no place. See A.7 and B.2 of the specification. -/
structure CompileError where
  cause : CompileError.Cause
  span : Option Span
deriving DecidableEq, Repr

namespace CompileError

def Cause.message : Cause → Text
  | unreadable m => "cannot compile: ".toList ++ m
  | noCommand => "cannot compile: no command".toList
  | invalidState t =>
    "invalid state \"".toList ++ t ++ "\" (expected inbox|now|waiting|later|done)".toList
  | stateWildcard => "wildcard \"*\" is not allowed for state".toList
  | invalidDate t => "invalid date format \"".toList ++ t ++ ['"']
  | invalidTaskId t => "invalid task id \"".toList ++ t ++ ['"']
  | zeroTarget => "invalid task id 0".toList
  | noSelection => "no task selected".toList
  | emptyTitle => "title cannot be empty".toList
  | missingTitle => "title is required".toList
  | removalInCreate => "remove not supported during create".toList
  | unsupportedSign c f =>
    "operator \"".toList ++ c :: "\" not supported for field \"".toList ++ f.name ++ ['"']
  | wholeList f =>
    "cannot set \"".toList ++ f.name ++ "\" during update (use +".toList ++ f.name
      ++ ": or -".toList ++ f.name ++ ":)".toList
  | notClearable f => "cannot clear \"".toList ++ f.name ++ ['"']
  | malformedEntry e => "invalid meta entry \"".toList ++ e ++ "\" (expected key:value)".toList
  | emptyKey e => "invalid meta entry \"".toList ++ e ++ "\" (empty key)".toList

def Cause.field : Cause → Option Text
  | unreadable _ | noCommand | zeroTarget | noSelection | removalInCreate => none
  | invalidState _ | stateWildcard => some Field.state.name
  | invalidDate _ => some Field.due.name
  | invalidTaskId _ => some "id".toList
  | emptyTitle | missingTitle => some Field.title.name
  | unsupportedSign _ f | wholeList f | notClearable f => some f.name
  | malformedEntry _ | emptyKey _ => some Field.metadata.name

def message (e : CompileError) : Text := e.cause.message

def field (e : CompileError) : Option Text := e.cause.field

end CompileError

end Agenda
