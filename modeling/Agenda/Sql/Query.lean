import Agenda.Plan.Listing
import Agenda.Sql.Condition
/-!
# Queries

What a list request asks of the task table. Where a filter offers several values of one column by
or, the condition lists them, provided that there are enough of them; each such list is reported.
-/
namespace Agenda

namespace Sql

/-- What a list of values may stand for. -/
inductive Listable where
  | state
  | id
  | tag (kind : TagKind)
deriving DecidableEq, Repr

namespace Listable

/-- Days and searched texts are never listed. -/
def ofKind? : PredicateKind → Option Listable
  | .state => some state
  | .id => some id
  | .project => some (tag .project)
  | .context => some (tag .context)
  | .due | .text => none

def kind : Listable → PredicateKind
  | state => .state
  | id => .id
  | tag .project => .project
  | tag .context => .context

end Listable

/-- The report of a list: what it is on, and how many values it has. -/
structure Fold where
  column : PredicateKind
  count : Nat
deriving DecidableEq, Repr

def readId (s : Text) : Except CompileError.Cause Nat :=
  match Text.readHashed? s with
  | some n => .ok n
  | none => .error (.invalidTaskId s)

namespace Condition

/-- The numbers of a list of texts, or the first error. -/
def readIds : List Text → Except CompileError.Cause (List Nat)
  | [] => .ok []
  | s :: r =>
    match readId s with
    | .error e => .error e
    | .ok n => (readIds r).map (n :: ·)

/-- A tag of the given kind: the wildcard asks for any. -/
def ofTag (kind : TagKind) (s : Text) : Condition := tagged kind (Criterion.tagMatch s)

def ofValues (values : List Text) : Listable → Except CompileError.Cause Condition
  | .state => .ok (among .state (values.map .text))
  | .id => (readIds values).map fun ns => among .id (ns.map .number)
  | .tag kind => .ok (taggedAmong kind values)

def ofPredicate (s : Text) : PredicateKind → Except CompileError.Cause Condition
  | .state => .ok (equal .state (.text s))
  | .due => .ok (if s = wildcard then present .due else equal .due (.text s))
  | .project => .ok (ofTag .project s)
  | .context => .ok (ofTag .context s)
  | .text => .ok (contains s)
  | .id => (readId s).map fun n => equal .id (.number n)

end Condition

end Sql

namespace Filter

open Sql

/-- The predicates of a filter that has nothing but or. -/
def alternatives? : Filter → Option (List (PredicateKind × Text))
  | binary .or l r _ => do return (← l.alternatives?) ++ (← r.alternatives?)
  | binary .and _ _ _ => none
  | negation _ _ => none
  | predicate kind text _ => some [(kind, text)]

/-- The values that predicates of one kind offer, if there are at least `least`, all of the kind of
the first, and no wildcard among them. -/
def values? (least : Nat) : List (PredicateKind × Text) → Option (Listable × List Text)
  | [] => none
  | (kind, text) :: rest =>
    let leaves := (kind, text) :: rest
    if least ≤ leaves.length ∧ leaves.all (fun leaf => leaf.1 = kind ∧ leaf.2 ≠ wildcard) then
      (Listable.ofKind? kind).map (·, leaves.map Prod.snd)
    else none

/-- The list that a filter can be folded to. -/
def folded? (least : Nat) (e : Filter) : Option (Listable × List Text) :=
  e.alternatives?.bind (values? least)

/-- The condition of a filter with the lists in it from left to right, or the first error. -/
def condition (least : Nat) : Filter → Except CompileError.Cause (Condition × List Fold)
  | binary .or l r span =>
    match folded? least (binary .or l r span) with
    | some (column, values) =>
      (Condition.ofValues values column).map fun c => (c, [⟨column.kind, values.length⟩])
    | none =>
      match l.condition least with
      | .error e => .error e
      | .ok (c, fs) => (r.condition least).map fun (d, gs) => (.either c d, fs ++ gs)
  | binary .and l r _ =>
    match l.condition least with
    | .error e => .error e
    | .ok (c, fs) => (r.condition least).map fun (d, gs) => (.both c d, fs ++ gs)
  | negation e _ => (e.condition least).map fun (c, fs) => (.not c, fs)
  | predicate kind text _ => (Condition.ofPredicate text kind).map (·, [])

end Filter

namespace Sql

/-- What is asked of the task table: the rows that meet the condition, or all, by number. -/
structure Query where
  condition : Option Condition
  folds : List Fold
deriving DecidableEq, Repr

def columnConditions (r : ListRequest) : List Condition :=
  (r.state.map fun s => Condition.equal .state (.text s.name)).toList
    ++ (r.project.map (Condition.tagged .project)).toList
    ++ (r.context.map (Condition.tagged .context)).toList
    ++ (r.search.map Condition.contains).toList
    ++ (r.id.map fun n => Condition.equal .id (.number n)).toList
    ++ (r.due.map fun d => Condition.equal .due (.text d.render)).toList
    ++ if r.dueOnly then [Condition.present .due] else []

/-- The query of a request. A filter counts before the columns. See B.9 of the specification. -/
def Query.ofRequest (least : Nat) (r : ListRequest) : Except CompileError Query :=
  match r.expr with
  | none => .ok ⟨Condition.all? (columnConditions r), []⟩
  | some e =>
    match e.condition least with
    | .error cause => .error ⟨cause, none⟩
    | .ok (c, folds) => .ok ⟨some c, folds⟩

end Sql

end Agenda
