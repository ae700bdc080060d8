import Agenda.Filter.Basic
import Agenda.Intent
import Agenda.Op.Basic
/-!
# Commands

A command is what one line asks for. It keeps the span of the line that it was read from.
-/
namespace Agenda

inductive Target where
  /-- The task that is selected when the command is compiled. -/
  | selected
  | id (n : Nat)
deriving DecidableEq, Repr

inductive View where
  | inbox
  | now
  | waiting
  | later
  | calendar
deriving DecidableEq, Repr

namespace View

def all : List View := [inbox, now, waiting, later, calendar]

def name : View → Text
  | inbox => "inbox".toList
  | now => "now".toList
  | waiting => "waiting".toList
  | later => "later".toList
  | calendar => "calendar".toList

/-- The words for a view, in lower case. -/
def aliases : View → List Text
  | inbox => ["inbox".toList, "i".toList]
  | now => ["now".toList, "n".toList]
  | waiting => ["waiting".toList, "w".toList]
  | later => ["later".toList, "l".toList]
  | calendar => ["calendar".toList, "c".toList, "today".toList]

def ofAlias? (word : Text) : Option View :=
  all.find? fun v => v.aliases.contains (Text.asciiLower word)

end View

/-- What the working context becomes. -/
inductive ContextArg where
  | clear
  | tag (kind : TagKind) (name : Text)
deriving DecidableEq, Repr

/-- See A.3 of the specification. -/
inductive Command where
  /-- The title may be empty when an operation sets it. -/
  | create (title : Text) (ops : List Op) (span : Span)
  | update (target : Target) (ops : List Op) (span : Span)
  | filter (expr : Filter) (span : Span)
  | view (target : Option View) (span : Span)
  | context (arg : Option ContextArg) (span : Span)
deriving DecidableEq, Repr

namespace Command

def intent : Command → Intent
  | create .. => .create
  | update .. => .update
  | filter .. => .filter
  | view .. => .view
  | context .. => .context

def span : Command → Span
  | create _ _ s => s
  | update _ _ s => s
  | filter _ s => s
  | view _ s => s
  | context _ s => s

def ops : Command → List Op
  | create _ ops _ => ops
  | update _ ops _ => ops
  | _ => []

/-- The command without its place: equal for lines that ask for the same thing. -/
def withoutSpans : Command → Command
  | create t ops _ => create t (ops.map Op.withoutSpans) .zero
  | update t ops _ => update t (ops.map Op.withoutSpans) .zero
  | filter e _ => filter e.withoutSpans .zero
  | view t _ => view t .zero
  | context a _ => context a .zero

def isIdle : Command → Bool
  | update _ ops _ => ops.isEmpty
  | _ => false

end Command

end Agenda
