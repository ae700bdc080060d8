import Agenda.Calendar.Date
import Agenda.Command.Basic
import Agenda.Plan.Entry
import Agenda.Plan.TaskState
/-!
# Requests and plans

What a compiled command asks a task store to do.
-/
namespace Agenda

/-- See A.3 of the specification. -/
structure CreateRequest where
  title : Text
  notes : Text
  state : TaskState
  due : Option Date
  waitingFor : Option Text
  projects : List Text
  contexts : List Text
  /-- At most one entry for a key, in the order in which the keys came. -/
  entries : List Entry
deriving DecidableEq, Repr

/-- A change of one task. A due day is given or taken away, not both, and so is what the task waits for:
the two fields of each are kept apart by the changes that write them. See A.3 and B.8 of the
specification. -/
structure UpdateRequest where
  id : Nat
  title : Option Text
  notes : Option Text
  state : Option TaskState
  dueOn : Option Date
  clearDue : Bool
  waitingFor : Option Text
  clearWaiting : Bool
  addProjects : List Text
  removeProjects : List Text
  addContexts : List Text
  removeContexts : List Text
  setEntries : Dictionary
  removeKeys : List Text
deriving DecidableEq, Repr

namespace UpdateRequest

def blank (id : Nat) : UpdateRequest :=
  { id, title := none, notes := none, state := none, dueOn := none, clearDue := false,
    waitingFor := none, clearWaiting := false, addProjects := [], removeProjects := [],
    addContexts := [], removeContexts := [], setEntries := .empty, removeKeys := [] }

def isEmpty (r : UpdateRequest) : Bool := r == blank r.id

end UpdateRequest

inductive TagMatch where
  /-- At least one tag. -/
  | any
  | named (name : Text)
deriving DecidableEq, Repr

/-- A query of the task list. The filter is what counts; when it is a conjunction of predicates of
different kinds, the columns hold the same condition and `flattened` says so. See A.3 and B.8 of the
specification. -/
structure ListRequest where
  state : Option TaskState
  project : Option TagMatch
  context : Option TagMatch
  search : Option Text
  id : Option Nat
  due : Option Date
  /-- Any due date will do. -/
  dueOnly : Bool
  expr : Option Filter
  flattened : Bool
deriving DecidableEq, Repr

def ListRequest.all : ListRequest :=
  { state := none, project := none, context := none, search := none, id := none, due := none,
    dueOnly := false, expr := none, flattened := false }

inductive ContextAction where
  | show
  | clear
  | enter (kind : TagKind) (name : Text)
deriving DecidableEq, Repr

inductive Plan where
  | create (request : CreateRequest)
  | update (request : UpdateRequest)
  | list (request : ListRequest)
  | view (view : Option View) (list : Option ListRequest)
  | context (action : ContextAction)
deriving DecidableEq, Repr

namespace Plan

def kind : Plan → Text
  | create _ => "create".toList
  | update _ => "update".toList
  | list _ => "list".toList
  | view .. => "view".toList
  | context _ => "context".toList

def listRequest? : Plan → Option ListRequest
  | list r => some r
  | view _ l => l
  | _ => none

/-- Whether an update changes nothing; other plans have no such question. -/
def isEmpty? : Plan → Option Bool
  | update r => some r.isEmpty
  | _ => none

end Plan

end Agenda
