import Agenda.Dictionary
import Agenda.Plan.CompileError
import Agenda.Text.Blank
/-!
# Entries of a task

A task carries entries `key:value`, at most one for each key. A new task lists them in the order in
which the keys were first written; an update collects them in the order of the keys.
-/
namespace Agenda.Entry

/-- Reads an entry: the first colon ends the key, and blanks around both parts fall away. See 4.4 of the
specification. -/
def read (s : Text) : Except CompileError.Cause Entry :=
  match Text.cutAt ':' s with
  | none => .error (.malformedEntry s)
  | some (k, v) =>
    if Text.trim k = [] then .error (.emptyKey s) else .ok ⟨Text.trim k, Text.trim v⟩

/-- Reads a key, with or without a value after a colon. -/
def readKey (s : Text) : Except CompileError.Cause Text :=
  let k := match Text.cutAt ':' s with
    | none => s
    | some (k, _) => k
  if Text.trim k = [] then .error (.emptyKey s) else .ok (Text.trim k)

end Agenda.Entry
