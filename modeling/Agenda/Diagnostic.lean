import Agenda.Position
import Agenda.Text.Line
/-!
# Diagnostics

What is to be said about a line, and how it is shown: a heading, the line itself with carets below
the place, and a hint.
-/
namespace Agenda

inductive Severity where
  | error
  | warning
  | info
deriving DecidableEq, Repr

namespace Severity

def name : Severity → Text
  | error => "error".toList
  | warning => "warning".toList
  | info => "info".toList

def all : List Severity := [error, warning, info]

def ofName? (s : Text) : Option Severity := all.find? fun v => v.name == s

end Severity

/-- See A.6 and B.2 of the specification. -/
structure Diagnostic where
  severity : Severity
  code : Text
  message : Text
  span : Option Span
  hint : Option Text
deriving DecidableEq, Repr

namespace Diagnostic

def isError (d : Diagnostic) : Bool := d.severity == .error

def heading (d : Diagnostic) : Text :=
  d.severity.name ++ '[' :: d.code ++ "]: ".toList ++ d.message

/-- The heading with the place in figures. -/
def display (d : Diagnostic) : Text :=
  match d.span with
  | none => d.heading
  | some s => d.heading ++ " at ".toList ++ s.render

/-- How many carets mark a span: one for each character on its line, and one where it goes on to
another line. -/
def caretCount (s : Span) : Nat :=
  if s.stop.line = s.start.line then max (s.stop.column - s.start.column) 1 else 1

def underline (s : Span) : Text :=
  List.replicate (s.start.column - 1) ' ' ++ List.replicate (caretCount s) '^'

def lineOf? (input : Text) (s : Span) : Option Text := (Text.lines input)[s.start.line - 1]?

/-- The line in which a span begins, with carets below it; nothing when there is no such line. -/
def excerpt (input : Text) (s : Span) : Text :=
  match lineOf? input s with
  | none => []
  | some line => "\n  ".toList ++ line ++ "\n  ".toList ++ underline s

/-- The diagnostic of the line `input` as it is shown. -/
def render (d : Diagnostic) (input : Text) : Text :=
  d.heading
    ++ (match d.span with
      | none => []
      | some s => excerpt input s)
    ++ match d.hint with
      | none => []
      | some h => "\n  hint: ".toList ++ h

end Diagnostic

end Agenda
