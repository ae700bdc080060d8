import Agenda.Text.Blank
import Agenda.Text.Lowercase
/-!
# States of a task

Results: a state is what its name names (`TaskState.read?_name`).
-/
namespace Agenda

inductive TaskState where
  | inbox
  | now
  | waiting
  | later
  | done
deriving DecidableEq, Repr

namespace TaskState

def all : List TaskState := [inbox, now, waiting, later, done]

def name : TaskState → Text
  | inbox => "inbox".toList
  | now => "now".toList
  | waiting => "waiting".toList
  | later => "later".toList
  | done => "done".toList

/-- The state of the given name, where `todo` is another name of the inbox. -/
def ofName? (s : Text) : Option TaskState :=
  if s = "todo".toList then some inbox else all.find? fun t => t.name == s

/-- Reads the name of a state, in any case and with blanks around it. See 4.4 of the specification. -/
def read? (s : Text) : Option TaskState := ofName? (Text.lower (Text.trim s))

theorem read?_name (t : TaskState) : read? t.name = some t := by cases t <;> decide

end TaskState

end Agenda
