import Agenda.Position
/-!
# Filters

A filter is a tree of predicates under and, or and not. Every node keeps the span it was read from.
-/
namespace Agenda

inductive BoolOp where
  | and
  | or
deriving DecidableEq, Repr

def BoolOp.name : BoolOp → Text
  | and => "and".toList
  | or => "or".toList

/-- What a predicate looks at. -/
inductive PredicateKind where
  | state
  | due
  | project
  | context
  | text
  | id
deriving DecidableEq, Repr

namespace PredicateKind

def all : List PredicateKind := [state, due, project, context, text, id]

def name : PredicateKind → Text
  | state => "state".toList
  | due => "due".toList
  | project => "project".toList
  | context => "context".toList
  | text => "text".toList
  | id => "id".toList

/-- The kind of predicate that a field key makes. -/
def ofKey? (key : Text) : Option PredicateKind :=
  if key = "state".toList then some state
  else if key = "due".toList then some due
  else if key = "projects".toList then some project
  else if key = "contexts".toList then some context
  else if key = "text".toList then some text
  else if key = "id".toList then some id
  else none

end PredicateKind

/-- A tree of predicates. See A.3 of the specification. -/
inductive Filter where
  | binary (op : BoolOp) (left right : Filter) (span : Span)
  | negation (inner : Filter) (span : Span)
  | predicate (kind : PredicateKind) (text : Text) (span : Span)
deriving DecidableEq, Repr

namespace Filter

def span : Filter → Span
  | binary _ _ _ s => s
  | negation _ s => s
  | predicate _ _ s => s

/-- Two filters combined, over the span of both. -/
def combine (op : BoolOp) (left right : Filter) : Filter :=
  binary op left right (left.span.cover right.span)

def predicates : Filter → List (PredicateKind × Text)
  | binary _ l r _ => l.predicates ++ r.predicates
  | negation e _ => e.predicates
  | predicate k t _ => [(k, t)]

def withoutSpans : Filter → Filter
  | binary op l r _ => binary op l.withoutSpans r.withoutSpans .zero
  | negation e _ => negation e.withoutSpans .zero
  | predicate k t _ => predicate k t .zero

end Filter

end Agenda
