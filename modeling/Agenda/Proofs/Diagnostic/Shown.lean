import Agenda.Command.Stop
import Agenda.Proofs.Diagnostic.Part
import Agenda.Proofs.Plan.Rejection
/-!
# Errors and what is shown for them

Every error of a line, and every error of compiling what was read, has a place: that of a character, of
tokens, of an operation or a predicate, or of the whole line. What is shown for it is the line in which the
place begins, with carets below.

Results: `points_of_commandOf` and `points_of_compile`; `pointsAt_of_pointsInto`;
`errors_point_at_their_text`.
-/
namespace Agenda

open Lexer

/-- The error has a place, which is empty or a part of the text. -/
def PointsInto (place : Option Span) (s : Text) : Prop := ∃ span, place = some span ∧ span.Points s

variable {mode : Mode} {input : Text} {c : Command}

/-! ## Errors of a line -/

theorem Failure.IsAt.points {f : Failure} {e : ParseError} (h : f.IsAt (lex input).tokens)
    (he : f.stop = .mistake e) (hclosed : ∀ t ∈ (lex input).tokens, t.kind.isOpenString = false) :
    e.span.Points input := by
  rcases h e he with ⟨t, ht, hspan⟩ | ⟨p, hspan⟩
  · rw [hspan]
    exact (Span.liesIn_token (inOrder_lex input) ht).points hclosed
  · rw [hspan]
    exact Span.points_point p input

theorem points_of_read {f : Failure} {e : ParseError}
    (h : Command.read mode (lex input).tokens (lex input).tokens = .error f) (he : f.stop = .mistake e) :
    e.span.Points input := by
  rcases Command.readFrom_eq_error (Command.read_eq_error_iff.1 h) with
    ⟨t, hfind, rfl⟩ | ⟨hclosed, hat | hline, -⟩
  · -- an open string is reported at the quote that opens it
    cases he
    obtain ⟨a, b, hpart⟩ := Token.exists_isPart (List.mem_of_find?_eq_some hfind) (trimmed_of_find_open hfind)
    exact Or.inr ⟨a, t.text, b, hpart⟩
  · exact hat.points he hclosed
  · rw [hline e he, Token.spanBetween_nil (inOrder_lex input)]
    exact Token.points_wholeSpan hclosed

theorem points_of_commandOf {e : Error} (h : Reading.commandOf mode input = .error e) :
    PointsInto e.span input := by
  rcases Reading.commandOf_eq_error_iff.1 h with ⟨err, hlex, rfl⟩ | ⟨-, err, rest, rfl, hread⟩
  · exact ⟨err.span, rfl, LexError.points hlex⟩
  · exact ⟨err.span, rfl, points_of_read hread rfl⟩

/-! ## Errors of a command -/

/-- The spans in the command of a line. -/
theorem Command.points_of_commandOf (h : Reading.commandOf mode input = .ok c) {span : Span}
    (hspan : span ∈ c.spans) : span.Points input := by
  obtain ⟨-, hclosed, i, -, hmakes⟩ := Reading.commandOf_ok_iff.1 h
  have horder := inOrder_lex input
  have hafter := Command.afterVerb_suffix (lex input).tokens
  obtain ⟨hwhole, hlies⟩ := hmakes.liesIn (horder.suffix hafter)
  rcases (hlies.mono hafter.subset).spans span hspan with rfl | hin
  · rw [hwhole, Token.spanBetween_nil horder]
    exact Token.points_wholeSpan hclosed
  · exact hin.points hclosed

theorem Command.span_mem_spans (c : Command) : c.span ∈ c.spans := by
  cases c <;> exact List.mem_cons_self ..

theorem Command.op_span_mem_spans {op : Op} (h : op ∈ c.ops) : op.span ∈ c.spans := by
  have hmem : op.span ∈ c.ops.flatMap Op.spans := List.mem_flatMap.2 ⟨op, h, List.mem_cons_self ..⟩
  cases c with
  | filter e span => cases h
  | _ => exact List.mem_cons_of_mem _ hmem

theorem Filter.leaf_span_mem_spans {e : Filter} {leaf : Filter.Leaf} (h : leaf ∈ e.leaves) :
    leaf.span ∈ e.spans := by
  induction e with
  | predicate kind text span =>
    rw [List.mem_singleton.1 h]
    exact List.mem_cons_self ..
  | negation e span ih => exact List.mem_cons_of_mem _ (ih h)
  | binary op l r span ihl ihr =>
    rcases List.mem_append.1 h with h | h
    · exact List.mem_cons_of_mem _ (List.mem_append_left _ (ihl h))
    · exact List.mem_cons_of_mem _ (List.mem_append_right _ (ihr h))

/-- A command is rejected at its own place or at that of one of its parts. -/
theorem Command.Reports.exists_span {today : Date} {selected : Option Nat} {e : CompileError}
    (h : c.Reports today selected e) : ∃ span ∈ c.spans, e.span = some span := by
  cases h with
  | createOp h | updateOp _ h => exact ⟨_, op_span_mem_spans h.mem, rfl⟩
  | missingTitle | target => exact ⟨_, span_mem_spans _, rfl⟩
  | predicate h => exact ⟨_, List.mem_cons_of_mem _ (Filter.leaf_span_mem_spans h.mem), rfl⟩

/-! ## Errors of a reading -/

namespace Reading

variable {now : Timestamp}

theorem points_of_mismatch {e : Error} (hc : commandOf mode input = .ok c) (h : mismatch? mode c = some e) :
    PointsInto e.span input := by
  unfold mismatch? at h
  split at h
  · cases h
  · split at h
    · cases h
    · cases h
      exact ⟨c.span, rfl, Command.points_of_commandOf hc c.span_mem_spans⟩

theorem points_of_diagnostic {d : Diagnostic} (h : d ∈ (ofLine mode now input).1.diagnostics)
    (herror : d.isError = true) : PointsInto d.span input := by
  rcases ofLine_cases mode now input with ⟨e, he, -, hline⟩ | ⟨c, hc, hline⟩
  · rw [hline] at h
    rw [List.mem_singleton.1 h]
    exact points_of_commandOf he
  · rw [hline] at h
    rcases List.mem_append.1 h with h | h
    · obtain ⟨e, he, rfl⟩ := Option.map_eq_some_iff.1 (Option.mem_toList.1 h)
      exact points_of_mismatch hc he
    · rw [isError_of_mem_warnings h] at herror
      cases herror

/-- What cannot be compiled is rejected for an error of its own, or as its command is. -/
theorem points_of_compile {buildNow : Option Timestamp} {selected : Option Nat} {e : CompileError}
    (h : (ofLine mode now input).1.compile buildNow selected = .error e) : PointsInto e.span input := by
  unfold compile at h
  split at h
  · next d hd =>
    cases h
    exact points_of_diagnostic (List.mem_of_find?_eq_some hd) (List.find?_some hd)
  · next hnone =>
    rcases ofLine_cases mode now input with ⟨e', -, -, hline⟩ | ⟨c, hc, hline⟩
    · rw [hline] at hnone
      cases hnone
    · rw [hline] at h
      obtain ⟨span, hspan, he⟩ := (Command.compile_eq_error_iff.1 h).exists_span
      exact ⟨span, he, Command.points_of_commandOf hc hspan⟩

end Reading

/-! ## What is shown -/

namespace Diagnostic

def hintLine (d : Diagnostic) : Text :=
  match d.hint with
  | none => []
  | some h => "\n  hint: ".toList ++ h

/-- The diagnostic has a place; unless that is empty, the line in which it begins is shown, and the carets
below mark what is there. -/
def PointsAt (d : Diagnostic) (input : Text) : Prop :=
  ∃ span, d.span = some span ∧ (span.start ≠ span.stop → ∃ front before shown tail part carets,
    span.IsMarked input front before shown tail part carets ∧
    d.render input = d.heading ++ "\n  ".toList ++ (before ++ shown) ++ "\n  ".toList
      ++ List.replicate (span.start.column - 1) ' ' ++ List.replicate carets '^' ++ d.hintLine)

theorem pointsAt_of_pointsInto {d : Diagnostic} {input : Text} (h : PointsInto d.span input) :
    d.PointsAt input := by
  obtain ⟨span, hspan, hpoints⟩ := h
  refine ⟨span, hspan, fun hne => ?_⟩
  obtain ⟨a, t, b, hpart⟩ := hpoints.resolve_left hne
  obtain ⟨front, before, shown, tail, hmarked, hline⟩ := Span.isMarked_of_isPart hpart
  refine ⟨front, before, shown, tail, t, caretCount span, hmarked, ?_⟩
  unfold render
  rw [hspan]
  simp only [excerpt, hline, underline, List.append_assoc]
  rfl

end Diagnostic

/-- Every error of a line, in whatever mode, and every error of compiling what was read has a place; unless
that is empty, what is shown for it is the line of the input in which the place begins, with carets below
just the characters of the input at that place or, where it goes on to another line, below its first. -/
theorem errors_point_at_their_text (mode : Mode) (now : Timestamp) (input : Text)
    (buildNow : Option Timestamp) (selected : Option Nat) :
    (∀ d ∈ (Reading.ofLine mode now input).1.diagnostics, d.isError = true → d.PointsAt input) ∧
    ∀ e, (Reading.ofLine mode now input).1.compile buildNow selected = .error e →
      (Error.compile e).toDiagnostic.PointsAt input := by
  refine ⟨fun d hd herror => ?_, fun e he => ?_⟩
  · exact Diagnostic.pointsAt_of_pointsInto (Reading.points_of_diagnostic hd herror)
  · exact Diagnostic.pointsAt_of_pointsInto (Reading.points_of_compile he)

/-- The second line is shown, and the caret is below the third of its characters. -/
example : (Error.lex ⟨'&', ⟨9, 2, 3⟩⟩).toDiagnostic.render "find\r\né &".toList
    = "error[E_LEX]: unexpected character \"&\"\n  é &\n    ^".toList := by decide

end Agenda
