import Agenda.Diagnostic
import Agenda.Intent
import Agenda.Lexer
import Agenda.ParseError
import Agenda.Plan.CompileError
/-!
# Errors

The four ways in which a line can fail, their codes, and the diagnostics that report them.
-/
namespace Agenda

/-- See A.7 and B.2 of the specification. -/
inductive Error where
  | lex (e : LexError)
  | parse (e : ParseError)
  | compile (e : CompileError)
  /-- The mode asks for another command than the one that was found. -/
  | modeMismatch (expected found : Intent) (span : Span)
deriving DecidableEq, Repr

namespace Error

def code : Error → Text
  | lex _ => "E_LEX".toList
  | parse _ => "E_PARSE".toList
  | compile _ => "E_CMD".toList
  | modeMismatch .. => "E_MODE".toList

def message : Error → Text
  | lex e => e.message
  | parse e => e.message
  | compile e => e.message
  | modeMismatch expected found _ =>
    "command does not match parse mode (expected ".toList ++ expected.name ++ ", found ".toList
      ++ found.name ++ [')']

def span : Error → Option Span
  | lex e => some e.span
  | parse e => some e.span
  | compile e => e.span
  | modeMismatch _ _ s => some s

def field : Error → Option Text
  | compile e => e.field
  | _ => none

def hint : Error → Option Text
  | modeMismatch expected _ _ =>
    some ("start the input with a ".toList ++ expected.name ++ " verb".toList)
  | compile e => e.field.map fun f => "check the value given for \"".toList ++ f ++ ['"']
  | _ => none

def toDiagnostic (e : Error) : Diagnostic := ⟨.error, e.code, e.message, e.span, e.hint⟩

end Error

def UnknownMode.toDiagnostic (e : UnknownMode) : Diagnostic :=
  ⟨.error, "E_PARSE".toList, e.message, none, none⟩

end Agenda
