import Agenda.Calendar.DayPhrase
import Agenda.Plan.Request
import Agenda.Text.Number
/-!
# Compiling filters

A predicate means a criterion; its text in the compiled filter is the criterion's. When the compiled
filter is a conjunction of predicates of different kinds, their texts are read again, and the columns
of the request hold the criteria too.
-/
namespace Agenda

/-- The text that stands for anything. -/
def wildcard : Text := ['*']

/-- What a predicate means. -/
inductive Criterion where
  | state (s : TaskState)
  /-- Due on a day, or on any day. -/
  | due (d : Option Date)
  | tag (kind : TagKind) (m : TagMatch)
  | text (s : Text)
  | id (n : Nat)
deriving DecidableEq, Repr

namespace Criterion

def kind : Criterion → PredicateKind
  | state _ => .state
  | due _ => .due
  | tag .project _ => .project
  | tag .context _ => .context
  | text _ => .text
  | id _ => .id

/-- The text of a criterion in a compiled filter. -/
def render : Criterion → Text
  | state s => s.name
  | due none => wildcard
  | due (some d) => d.render
  | tag _ .any => wildcard
  | tag _ (.named n) => n
  | text s => s
  | id n => Text.ofNat n

/-- The number of a task: digits, with a hash before them or not, that spell a number from one up
that fits sixty-four bits. -/
def readTaskId? (s : Text) : Option Nat :=
  let digits := match s with
    | '#' :: r => r
    | _ => s
  (Text.readNat? digits).filter fun n => 0 < n && n < Text.wordBound

def tagMatch (s : Text) : TagMatch := if s = wildcard then .any else .named s

/-- The meaning of a text, without blanks around it, in a predicate of the given kind. -/
def ofTrimmed (today : Date) (s : Text) : PredicateKind → Except CompileError.Cause Criterion
  | .state =>
    if s = wildcard then .error .stateWildcard
    else match TaskState.read? s with
      | some t => .ok (state t)
      | none => .error (.invalidState (Text.trim s))
  | .due =>
    if s = wildcard then .ok (due none)
    else match today.ofPhrase? s with
      | some d => .ok (due (some d))
      | none => .error (.invalidDate (Text.trim s))
  | .project => .ok (tag .project (tagMatch s))
  | .context => .ok (tag .context (tagMatch s))
  | .text => .ok (text s)
  | .id =>
    match readTaskId? s with
    | some n => .ok (id n)
    | none => .error (.invalidTaskId s)

def ofPredicate (today : Date) (kind : PredicateKind) (s : Text) :
    Except CompileError.Cause Criterion :=
  ofTrimmed today (Text.trim s) kind

/-- The criterion that a text in a compiled filter spells. -/
def ofWritten (s : Text) : PredicateKind → Except CompileError.Cause Criterion
  | .state =>
    match TaskState.read? s with
    | some t => .ok (state t)
    | none => .error (.invalidState (Text.trim s))
  | .due =>
    if s = wildcard then .ok (due none)
    else match Date.read? s with
      | some d => .ok (due (some d))
      | none => .error (.invalidDate s)
  | .project => .ok (tag .project (tagMatch s))
  | .context => .ok (tag .context (tagMatch s))
  | .text => .ok (text s)
  | .id =>
    match readTaskId? s with
    | some n => .ok (id n)
    | none => .error (.invalidTaskId s)

/-- The request with the column of a criterion filled. -/
def fill (r : ListRequest) : Criterion → ListRequest
  | state s => { r with state := some s }
  | due none => { r with dueOnly := true }
  | due (some d) => { r with due := some d }
  | tag .project m => { r with project := some m }
  | tag .context m => { r with context := some m }
  | text s => { r with search := some s }
  | id n => { r with id := some n }

end Criterion

namespace Filter

/-- The filter with every predicate in the text of its criterion, or the first error. -/
def normalize (today : Date) : Filter → Except CompileError Filter
  | binary op l r span =>
    match l.normalize today with
    | .error e => .error e
    | .ok l' => (r.normalize today).map fun r' => binary op l' r' span
  | negation e span => (e.normalize today).map fun e' => negation e' span
  | predicate kind text span =>
    match Criterion.ofPredicate today kind text with
    | .error cause => .error ⟨cause, some span⟩
    | .ok c => .ok (predicate kind c.render span)

/-- The predicates of a filter that has neither or nor not. -/
def conjuncts? : Filter → Option (List (PredicateKind × Text))
  | binary .and l r _ => do return (← l.conjuncts?) ++ (← r.conjuncts?)
  | binary .or _ _ _ => none
  | negation _ _ => none
  | predicate kind text _ => some [(kind, text)]

/-- The predicates of a conjunction in which no kind comes twice. -/
def columns? (e : Filter) : Option (List (PredicateKind × Text)) :=
  e.conjuncts?.filter fun ps => decide (ps.map Prod.fst).Nodup

end Filter

namespace ListRequest

/-- The request with the columns of compiled predicates filled one after another, or the first
error. -/
def fillAll (r : ListRequest) : List (PredicateKind × Text) → Except CompileError ListRequest
  | [] => .ok r
  | (kind, text) :: rest =>
    match Criterion.ofWritten text kind with
    | .error cause => .error ⟨cause, none⟩
    | .ok c => fillAll (c.fill r) rest

/-- The query of a filter whose predicates are in the texts of their criteria. -/
def ofNormalized (e : Filter) : Except CompileError ListRequest :=
  match e.columns? with
  | some ps => (fillAll all ps).map fun r => { r with expr := some e, flattened := true }
  | none => .ok { all with expr := some e }

/-- The query that a filter asks for on `today`. See 4.4 and B.8 of the specification. -/
def compile (today : Date) (e : Filter) : Except CompileError ListRequest :=
  match e.normalize today with
  | .error err => .error err
  | .ok e' => ofNormalized e'

def ofView (v : View) : ListRequest :=
  let r := { all with flattened := true }
  match v with
  | .inbox => { r with state := some .inbox }
  | .now => { r with state := some .now }
  | .waiting => { r with state := some .waiting }
  | .later => { r with state := some .later }
  | .calendar => { r with dueOnly := true }

end ListRequest

end Agenda
