import Agenda.Plan.Item
import Agenda.Plan.Request
/-!
# Compiling create commands

Each operation is first understood as a change, which fails or not whatever came before; the changes
are then carried out in order on a task that has nothing but the title.
-/
namespace Agenda

inductive CreateChange where
  | title (s : Text)
  | notes (s : Text)
  | state (s : TaskState)
  | due (d : Option Date)
  | waitingFor (s : Option Text)
  | setTags (kind : TagKind) (names : List Text)
  | addTags (kind : TagKind) (names : List Text)
  | setEntries (es : List Entry)
  | addEntries (es : List Entry)
deriving DecidableEq, Repr

namespace CreateChange

def ofSet (today : Date) (v : Value) : Field → Except CompileError.Cause CreateChange
  | .title => v.title.map title
  | .notes => .ok (notes v.trimmed)
  | .due => (v.day today).map fun d => due (some d)
  | .waiting => .ok (waitingFor (some v.trimmed))
  | .state => v.state.map state
  | .projects => .ok (setTags .project v.items)
  | .contexts => .ok (setTags .context v.items)
  | .metadata => v.entries.map setEntries

def ofAdd (v : Value) : Field → Except CompileError.Cause CreateChange
  | .projects => .ok (addTags .project v.items)
  | .contexts => .ok (addTags .context v.items)
  | .metadata => v.entries.map addEntries
  | f => .error (.unsupportedSign '+' f)

def ofClear : Field → Except CompileError.Cause CreateChange
  | .notes => .ok (notes [])
  | .due => .ok (due none)
  | .waiting => .ok (waitingFor none)
  | .projects => .ok (setTags .project [])
  | .contexts => .ok (setTags .context [])
  | .metadata => .ok (setEntries [])
  | f => .error (.notClearable f)

def ofOp (today : Date) : Op → Except CompileError.Cause CreateChange
  | .edit .set f v _ => ofSet today v f
  | .edit .add f v _ => ofAdd v f
  | .edit .remove _ _ _ => .error .removalInCreate
  | .clear f _ => ofClear f
  | .tag k n _ => .ok (addTags k [n])

def apply (r : CreateRequest) : CreateChange → CreateRequest
  | title s => { r with title := s }
  | notes s => { r with notes := s }
  | state s => { r with state := s }
  | due d => { r with due := d }
  | waitingFor s => { r with waitingFor := s }
  | setTags .project names => { r with projects := dedupe names }
  | setTags .context names => { r with contexts := dedupe names }
  | addTags .project names => { r with projects := extendUnique r.projects names }
  | addTags .context names => { r with contexts := extendUnique r.contexts names }
  | setEntries es => { r with entries := Entry.putAll es [] }
  | addEntries es => { r with entries := Entry.putAll es r.entries }

end CreateChange

/-- The result of reading an operation, with the operation's place in an error. -/
def Op.located {α : Type} (op : Op) (r : Except CompileError.Cause α) : Except CompileError α :=
  r.mapError fun cause => ⟨cause, some op.span⟩

/-- The changes of operations, or the first error. -/
def Op.changes {α : Type} (meaning : Op → Except CompileError.Cause α) (ops : List Op) :
    Except CompileError (List α) :=
  Value.readAll (fun op => op.located (meaning op)) ops

namespace CreateRequest

def titled (title : Text) : CreateRequest :=
  { title, notes := [], state := .inbox, due := none, waitingFor := none, projects := [],
    contexts := [], entries := [] }

/-- The task that a create command makes, when it is given on `today`. See 4.4 of the specification. -/
def compile (today : Date) (title : Text) (ops : List Op) (span : Span) :
    Except CompileError CreateRequest :=
  match Op.changes (CreateChange.ofOp today) ops with
  | .error e => .error e
  | .ok changes =>
    let task := changes.foldl CreateChange.apply (titled (Text.trim title))
    if task.title = [] then .error ⟨.missingTitle, some span⟩ else .ok task

end CreateRequest

end Agenda
