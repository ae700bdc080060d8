import Agenda.Calendar.Timestamp
import Agenda.Command.Stop
import Agenda.Error
import Agenda.Plan
/-!
# Readings

What becomes of one line: the command it makes, if any, and the diagnostics. A line whose command is
not the one that the mode asks for makes its command all the same, and an error.

The tokens of a line can all be cut after their sigils, so that reading them does not panic, and whatever
stops it is a mistake.
-/
namespace Agenda

structure Reading where
  intent? : Option Intent
  command : Option Command
  diagnostics : List Diagnostic
  /-- When the line was read. -/
  now : Timestamp
deriving DecidableEq, Repr

namespace Reading

def hasErrors (r : Reading) : Bool := r.diagnostics.any Diagnostic.isError

def idleWarning (span : Span) : Diagnostic :=
  ⟨.warning, "W_NOOP".toList, "update has no operations".toList, some span,
    some "add an operation such as state:now or !due".toList⟩

def commandOf (mode : Mode) (input : Text) : Except Error Command :=
  let l := Lexer.lex input
  match l.failure with
  | some e => .error (.lex e)
  | none =>
    match h : Command.read mode l.tokens l.tokens with
    | .error f =>
      .error (.parse (f.stop.error
        (Command.stop_ne_panic_of_read (fun _ => Lexer.isCuttable_of_mem_lex) h)))
    | .ok c => .ok c

/-- The error that a command is not the one that the mode asks for. -/
def mismatch? (mode : Mode) (c : Command) : Option Error :=
  match mode with
  | .auto => none
  | .only i => if i = c.intent then none else some (.modeMismatch i c.intent c.span)

/-- See A.6 and B.2 of the specification. -/
def ofLine (mode : Mode) (now : Timestamp) (input : Text) : Reading × Option Error :=
  match commandOf mode input with
  | .error e => (⟨none, none, [e.toDiagnostic], now⟩, some e)
  | .ok c =>
    let warnings := if c.isIdle then [idleWarning c.span] else []
    match mismatch? mode c with
    | some e => (⟨some c.intent, some c, e.toDiagnostic :: warnings, now⟩, some e)
    | none => (⟨some c.intent, some c, warnings, now⟩, none)

/-- The plan of what was read. What has errors is rejected with the first of them. The day is that
of `buildNow` or, without it, the day on which the line was read. -/
def compile (r : Reading) (buildNow : Option Timestamp) (selected : Option Nat) :
    Except CompileError Plan :=
  match r.diagnostics.find? Diagnostic.isError with
  | some d => .error ⟨.unreadable d.message, d.span⟩
  | none =>
    match r.command with
    | none => .error ⟨.noCommand, none⟩
    | some c => c.compile (buildNow.getD r.now).date selected

/-- A line has a command when the lexer takes all of it and its tokens are read as one. -/
theorem commandOf_eq_ok_iff {mode : Mode} {input : Text} {c : Command} :
    commandOf mode input = .ok c ↔ (Lexer.lex input).failure = none ∧
      Command.read mode (Lexer.lex input).tokens (Lexer.lex input).tokens = .ok c := by
  unfold commandOf
  simp only
  split
  · next hfailure => simp [hfailure]
  · next hfailure => split <;> simp_all

/-- A line has an error where the lexer finds one, or else at the mistake where reading stops. -/
theorem commandOf_eq_error_iff {mode : Mode} {input : Text} {e : Error} :
    commandOf mode input = .error e ↔
      (∃ err, (Lexer.lex input).failure = some err ∧ e = .lex err) ∨
      (Lexer.lex input).failure = none ∧ ∃ err rest, e = .parse err ∧
        Command.read mode (Lexer.lex input).tokens (Lexer.lex input).tokens
          = .error ⟨.mistake err, rest⟩ := by
  unfold commandOf
  simp only
  split
  · next hfailure => simp [hfailure, eq_comm]
  · next hfailure =>
    split
    · next f hf =>
      obtain ⟨stop, rest⟩ := f
      cases stop with
      | mistake err => simp [hfailure, hf, Stop.error, eq_comm]
      | panic =>
        exact absurd rfl
          (Command.stop_ne_panic_of_read (fun _ => Lexer.isCuttable_of_mem_lex) hf)
    · next hok => simp [hfailure, hok]

end Reading

end Agenda
