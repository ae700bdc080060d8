import Agenda.Plan.Create
/-!
# Compiling update commands

As with create commands, each operation is understood as a change first, and the changes are then
collected in order into one request.
-/
namespace Agenda

inductive UpdateChange where
  | title (s : Text)
  | notes (s : Text)
  | state (s : TaskState)
  | setDue (d : Date)
  | clearDue
  | setWaiting (s : Text)
  | clearWaiting
  | addTags (kind : TagKind) (names : List Text)
  | removeTags (kind : TagKind) (names : List Text)
  | setEntries (es : List Entry)
  | removeKeys (ks : List Text)
deriving DecidableEq, Repr

namespace UpdateChange

/-- The change that a field is set. A list of tags cannot be set as a whole. -/
def ofSet (today : Date) (v : Value) : Field → Except CompileError.Cause UpdateChange
  | .title => v.title.map title
  | .notes => .ok (notes v.trimmed)
  | .due => (v.day today).map setDue
  | .waiting => .ok (setWaiting v.trimmed)
  | .state => v.state.map state
  | .metadata => v.entries.map setEntries
  | f => .error (.wholeList f)

def ofAdd (v : Value) : Field → Except CompileError.Cause UpdateChange
  | .projects => .ok (addTags .project v.items)
  | .contexts => .ok (addTags .context v.items)
  | .metadata => v.entries.map setEntries
  | f => .error (.unsupportedSign '+' f)

def ofRemove (v : Value) : Field → Except CompileError.Cause UpdateChange
  | .projects => .ok (removeTags .project v.items)
  | .contexts => .ok (removeTags .context v.items)
  | .metadata => v.keys.map removeKeys
  | f => .error (.unsupportedSign '-' f)

def ofClear : Field → Except CompileError.Cause UpdateChange
  | .due => .ok clearDue
  | .waiting => .ok clearWaiting
  | .notes => .ok (notes [])
  | f => .error (.notClearable f)

def ofOp (today : Date) : Op → Except CompileError.Cause UpdateChange
  | .edit .set f v _ => ofSet today v f
  | .edit .add f v _ => ofAdd v f
  | .edit .remove f v _ => ofRemove v f
  | .clear f _ => ofClear f
  | .tag k n _ => .ok (addTags k [n])

/-- An entry is set: its key is no longer one to remove. -/
def setEntry (r : UpdateRequest) (e : Entry) : UpdateRequest :=
  { r with setEntries := r.setEntries.insert e, removeKeys := r.removeKeys.filter (· ≠ e.key) }

/-- A key is removed: its entry is no longer one to set. -/
def removeKey (r : UpdateRequest) (k : Text) : UpdateRequest :=
  { r with setEntries := r.setEntries.erase k, removeKeys := r.removeKeys ++ [k] }

def apply (r : UpdateRequest) : UpdateChange → UpdateRequest
  | title s => { r with title := some s }
  | notes s => { r with notes := some s }
  | state s => { r with state := some s }
  | setDue d => { r with dueOn := some d, clearDue := false }
  | clearDue => { r with dueOn := none, clearDue := true }
  | setWaiting s => { r with waitingFor := some s, clearWaiting := false }
  | clearWaiting => { r with waitingFor := none, clearWaiting := true }
  | addTags .project names => { r with addProjects := r.addProjects ++ names }
  | addTags .context names => { r with addContexts := r.addContexts ++ names }
  | removeTags .project names => { r with removeProjects := r.removeProjects ++ names }
  | removeTags .context names => { r with removeContexts := r.removeContexts ++ names }
  | setEntries es => es.foldl setEntry r
  | removeKeys ks => ks.foldl removeKey r

end UpdateChange

/-- See 4.4 and B.8 of the specification. -/
def Target.resolve (selected : Option Nat) : Target → Except CompileError.Cause Nat
  | .id n => if n = 0 then .error .zeroTarget else .ok n
  | .selected =>
    match selected with
    | some n => if n = 0 then .error .noSelection else .ok n
    | none => .error .noSelection

namespace UpdateRequest

def deduped (r : UpdateRequest) : UpdateRequest :=
  { r with
    addProjects := dedupe r.addProjects
    removeProjects := dedupe r.removeProjects
    addContexts := dedupe r.addContexts
    removeContexts := dedupe r.removeContexts
    removeKeys := dedupe r.removeKeys }

/-- The change that an update command asks for, when it is given on `today` with the task `selected`
selected. See 4.4 and B.8 of the specification. -/
def compile (today : Date) (selected : Option Nat) (target : Target) (ops : List Op)
    (span : Span) : Except CompileError UpdateRequest :=
  match target.resolve selected with
  | .error cause => .error ⟨cause, some span⟩
  | .ok id =>
    match Op.changes (UpdateChange.ofOp today) ops with
    | .error e => .error e
    | .ok changes => .ok (changes.foldl UpdateChange.apply (blank id)).deduped

end UpdateRequest

end Agenda
