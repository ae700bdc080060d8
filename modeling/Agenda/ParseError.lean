import Agenda.Token
/-!
# Grammatical mistakes

Why a run of tokens is no command. A mistake has a cause and a place; reading stops there, and the
tokens that have not been read are kept with it. Reading stops without a mistake, by a panic, where a
token that should begin with a sigil does not.
-/
namespace Agenda

inductive Expected where
  | endOfInput
  | operation
  | filterTerm
deriving DecidableEq, Repr

def Expected.name : Expected → Text
  | endOfInput => "end of input".toList
  | operation => "an operation".toList
  | filterTerm => "a filter term".toList

/-- Why tokens are no command. -/
inductive ParseError.Cause where
  /-- A quote is never closed. -/
  | unterminatedString
  /-- No verb, though the mode asks for one. -/
  | missingVerb (found : Option Text)
  | missingTitle
  | invalidTarget (found : Text)
  | invalidTaskId (digits : Text)
  | unexpectedToken (found : Text) (expected : Expected)
  /-- A sigil without a name. -/
  | missingName (sigil : Text)
  | fixedField (key : Text)
  | missingValue (key : Text)
  /-- Nothing after the verb of a filter. -/
  | missingFilter
  /-- The line ends where a predicate should be. -/
  | missingTerm
  | missingParen (found : Option Text)
  | unknownView (found : Text)
  | invalidContext (found : Text)
deriving DecidableEq, Repr

/-- See A.7 and B.2 of the specification. -/
structure ParseError where
  cause : ParseError.Cause
  span : Span
deriving DecidableEq, Repr

namespace ParseError

def inQuotes (s : Text) : Text := '"' :: (s ++ ['"'])

def Cause.message : Cause → Text
  | unterminatedString => "unterminated string".toList
  | missingVerb none => "expected command verb".toList
  | missingVerb (some t) => "expected command verb, found ".toList ++ inQuotes t
  | missingTitle => "expected a task title".toList
  | invalidTarget t => "invalid update target ".toList ++ inQuotes t
  | invalidTaskId t => "invalid task id ".toList ++ inQuotes t
  | unexpectedToken t e =>
    "unexpected token ".toList ++ inQuotes t ++ " (expected ".toList ++ e.name ++ ")".toList
  | missingName t => "expected a name after ".toList ++ inQuotes t
  | fixedField k => "field ".toList ++ inQuotes k ++ " cannot be modified".toList
  | missingValue k => "expected value for ".toList ++ inQuotes k
  | missingFilter => "expected filter expression".toList
  | missingTerm => "expected filter term, but reached end of input".toList
  | missingParen none => "expected \")\", but reached end of input".toList
  | missingParen (some t) => "expected \")\", found ".toList ++ inQuotes t
  | unknownView t =>
    "unknown view ".toList ++ inQuotes t ++ " (expected inbox|now|waiting|later|calendar)".toList
  | invalidContext t => "invalid context argument ".toList ++ inQuotes t

def message (e : ParseError) : Text := e.cause.message

end ParseError

/-- Why reading ends without a command. -/
inductive Stop where
  | mistake (e : ParseError)
  /-- A token with a sigil cannot be cut after its first byte. -/
  | panic
deriving DecidableEq, Repr

/-- The mistake, where there is no panic. -/
def Stop.error : (s : Stop) → s ≠ .panic → ParseError
  | mistake e, _ => e
  | panic, h => absurd rfl h

/-- Why reading ended, and the tokens that were not read before. -/
structure Failure where
  stop : Stop
  rest : List Token
deriving DecidableEq, Repr

/-- The mistake `cause` at the place of the token `t`. -/
def Failure.at (t : Token) (cause : ParseError.Cause) (rest : List Token) : Failure :=
  ⟨.mistake ⟨cause, t.span⟩, rest⟩

/-- What was read, with the tokens after it, or a failure. -/
abbrev Parsed (α : Type) := Except Failure (α × List Token)

theorem map_eq_error_iff {α β ε : Type} {r : Except ε α} {f : α → β} {e : ε} :
    r.map f = .error e ↔ r = .error e := by
  cases r with
  | error e' => rw [Except.map, Except.error.injEq, Except.error.injEq]
  | ok a => exact iff_of_false (by simp [Except.map]) (by simp)

/-! ## Spans of runs -/

namespace Token

/-- The span of the tokens read on the way from `before` to `after`, a tail of it. With nothing read
it is the point where the next token begins, or the end of the line. -/
def spanBetween (eof : Position) (before after : List Token) : Span :=
  match before with
  | [] => .point eof
  | first :: _ =>
    match (before.take (before.length - after.length)).getLast? with
    | none => .point first.span.start
    | some last => first.span.cover last.span

/-- The end of the last token, or the origin when there are none. -/
def endOf (tokens : List Token) : Position :=
  match tokens.getLast? with
  | none => .origin
  | some t => t.span.stop

end Token

end Agenda
