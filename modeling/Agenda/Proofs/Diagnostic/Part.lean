import Agenda.Diagnostic
import Agenda.Proofs.Command.Places
import Agenda.Proofs.Lexer.Ends
import Agenda.Proofs.Text.Line
/-!
# Parts of a text and their spans

A part of a text begins and ends with no blank: so has every token, the character that stops the lexer, and
whatever goes from the start of one token to the end of another. Where a part begins there is a line of the
text, and the carets below it mark the part, or its first character if it goes on to another line.

Results: `exists_isPart_join` for two parts; `Span.LiesIn.points` and `LexError.points`;
`isMarked_of_isPart`.
-/
namespace Agenda

open Lexer
open Text (IsLine Trimmed isBlank)

namespace Span

/-- The span is that of `t`, which stands in `s` between `a` and `b` and has no blank at either end. -/
structure IsPart (span : Span) (s a t b : Text) : Prop where
  eq : s = a ++ t ++ b
  ne_nil : t ≠ []
  trimmed : Trimmed t
  span_eq : span = ⟨Position.origin.after a, Position.origin.after (a ++ t)⟩

variable {span span' : Span} {s a t b a' t' b' : Text}

namespace IsPart

theorem start_offset (h : span.IsPart s a t b) : span.start.offset = a.byteSize := by
  rw [h.span_eq, Position.offset_origin_after]

theorem stop_offset (h : span.IsPart s a t b) : span.stop.offset = (a ++ t).byteSize := by
  rw [h.span_eq, Position.offset_origin_after]

theorem slice_eq (h : span.IsPart s a t b) : span.slice? s = some t := by
  rw [h.span_eq, h.eq, slice?_append]

end IsPart

/-- From the start of one part to the end of another, if that is later, there is a part as well. -/
theorem exists_isPart_join (h : span.IsPart s a t b) (h' : span'.IsPart s a' t' b')
    (hlt : span.start.offset < span'.stop.offset) : ∃ u, IsPart ⟨span.start, span'.stop⟩ s a u b' := by
  rw [h.start_offset, h'.stop_offset] at hlt
  have hfirst : a <+: s := ⟨t ++ b, by rw [h.eq, List.append_assoc]⟩
  have hsecond : a' ++ t' <+: s := ⟨b', h'.eq.symm⟩
  obtain ⟨u, hu⟩ : a <+: a' ++ t' := by
    rcases List.prefix_or_prefix_of_prefix hfirst hsecond with hbefore | ⟨m, hm⟩
    · exact hbefore
    · rw [← hm, Text.byteSize_append] at hlt
      omega
  have hne : u ≠ [] := by
    rintro rfl
    rw [← hu, List.append_nil] at hlt
    omega
  have hs : s = a ++ u ++ b' := by
    rw [hu]
    exact h'.eq
  refine ⟨u, hs, hne, ⟨fun c hc => ?_, fun c hc => ?_⟩, ?_⟩
  · -- both begin where the first part does
    have hrest : t ++ b = u ++ b' := by
      have heq := h.eq.symm.trans hs
      rw [List.append_assoc, List.append_assoc] at heq
      exact List.append_cancel_left heq
    have hhead : (t ++ b).head? = some c := by
      rw [hrest, List.head?_append, hc]
      rfl
    obtain ⟨d, r, rfl⟩ := List.exists_cons_of_ne_nil h.ne_nil
    exact h.trimmed.left c hhead
  · have hlast : (a' ++ t').getLast? = some c := by
      rw [← hu, List.getLast?_append, hc]
      rfl
    rw [List.getLast?_append_of_ne_nil _ h'.ne_nil] at hlast
    exact h'.trimmed.right c hlast
  · rw [h.span_eq, h'.span_eq, hu]

/-- The span is empty, or that of a part of the text. -/
def Points (span : Span) (s : Text) : Prop := span.start = span.stop ∨ ∃ a t b, span.IsPart s a t b

theorem points_point (p : Position) (s : Text) : (point p).Points s := Or.inl rfl

end Span

/-! ## Tokens -/

variable {s : Text}

theorem Token.exists_isPart {t : Token} (ht : t ∈ (lex s).tokens) (htrim : Trimmed t.text) :
    ∃ a b, t.span.IsPart s a t.text b := by
  obtain ⟨hne, a, b, heq, hspan⟩ := (tiling_lexFrom .root [] s).exists_of_mem ht
  exact ⟨a, b, heq, hne, htrim, hspan⟩

/-- What goes from one token to another is a part of the text. -/
theorem Span.LiesIn.points {span : Span} (h : span.LiesIn (lex s).tokens)
    (hclosed : ∀ t ∈ (lex s).tokens, t.kind.isOpenString = false) : span.Points s := by
  obtain ⟨⟨t, ht, hstart⟩, ⟨u, hu, hstop⟩, hlt⟩ := h
  obtain ⟨a, b, hfirst⟩ := Token.exists_isPart ht (trimmed_of_mem_tokens ht (hclosed t ht))
  obtain ⟨a', b', hsecond⟩ := Token.exists_isPart hu (trimmed_of_mem_tokens hu (hclosed u hu))
  rw [hstart, hstop] at hlt
  obtain ⟨v, hpart⟩ := Span.exists_isPart_join hfirst hsecond hlt
  rw [← hstart, ← hstop] at hpart
  exact Or.inr ⟨a, v, b', hpart⟩

theorem Token.points_wholeSpan (hclosed : ∀ t ∈ (lex s).tokens, t.kind.isOpenString = false) :
    (wholeSpan (lex s).tokens).Points s := by
  have horder := inOrder_lex s
  have hlies := fun span (h : Span.LiesIn span (lex s).tokens) => h.points hclosed
  cases htokens : (lex s).tokens with
  | nil => exact Span.points_point _ _
  | cons t ts =>
    rw [htokens] at horder hlies
    exact hlies _ (Span.liesIn_wholeSpan horder)

/-- The character at which the lexer stops is no blank. -/
theorem LexError.points {e : LexError} (h : (lex s).failure = some e) : e.span.Points s := by
  have hcovers := covers_lex s
  obtain ⟨hblank, r, hrest⟩ := hcovers.failure_found e h
  obtain ⟨before, rest, hcut, hposition⟩ := (hcovers.failure_places e h).1
  have hrest' : rest = e.found :: r := by
    rw [Position.rest?, hcut] at hrest
    exact Option.some.inj hrest
  have hs : s = before ++ [e.found] ++ r := by
    rw [(Text.splitAtByte?_eq_some hcut).1, hrest', List.append_assoc]
    rfl
  refine Or.inr ⟨before, [e.found], r, hs, by simp, ?_, ?_⟩
  · exact Text.trimmed_of_not_blank (List.forall_mem_singleton.2 hblank)
  · rw [LexError.span, Position.after_append, ← hposition]
    rfl

/-! ## Carets -/

/-- Below the line of a text in which a span begins, as many spaces as there are characters before the span
and then carets. -/
structure Span.IsMarked (span : Span) (s front before shown tail part : Text) (carets : Nat) : Prop where
  line : IsLine s front (before ++ shown) tail
  start : span.start = Position.origin.after (front ++ before)
  in_line : shown ≠ []
  column : span.start.column - 1 = before.length
  part_eq : span.slice? s = some part
  /-- On one line the carets are below the characters of the part. -/
  one_line : '\n' ∉ part → carets = part.length ∧ shown.take carets = part
  /-- Otherwise there is one below the first of them. -/
  more_lines : '\n' ∈ part → carets = 1 ∧ shown.head? = part.head?

theorem Span.caretCount_of_isPart {span : Span} {s a t b : Text} (h : span.IsPart s a t b) :
    Diagnostic.caretCount span = if '\n' ∈ t then 1 else t.length := by
  have hlength := List.length_pos_iff.2 h.ne_nil
  have hline : span.stop.line = span.start.line + t.count '\n' := by
    rw [h.span_eq, Position.after_append, Position.line_after]
  unfold Diagnostic.caretCount
  by_cases hfeed : '\n' ∈ t
  · have hcount := List.count_pos_iff.2 hfeed
    rw [if_pos hfeed, if_neg (by omega)]
  · have hcolumn : span.stop.column = span.start.column + t.length := by
      rw [h.span_eq, Position.after_append, Position.column_after _ hfeed]
    have hcount : t.count '\n' = 0 := List.count_eq_zero.2 hfeed
    rw [if_neg hfeed, if_pos (by omega)]
    omega

/-- The line that is shown for a part is the one it begins in, and the carets below mark the part. -/
theorem Span.isMarked_of_isPart {span : Span} {s a t b : Text} (h : span.IsPart s a t b) :
    ∃ front before shown tail,
      span.IsMarked s front before shown tail t (Diagnostic.caretCount span) ∧
      Diagnostic.lineOf? s span = some (before ++ shown) := by
  obtain ⟨front, before, shown, tail, ha, hline, hhead, hinside⟩ := Text.exists_isLine a b h.ne_nil h.trimmed
  rw [← h.eq] at hline
  have hstart : span.start = Position.origin.after (front ++ before) := by
    rw [h.span_eq, ha]
  have hbefore : '\n' ∉ before := fun hmem => hline.no_feed (List.mem_append_left _ hmem)
  have hshown : shown ≠ [] := by
    rintro rfl
    obtain ⟨c, r, rfl⟩ := List.exists_cons_of_ne_nil h.ne_nil
    cases hhead
  refine ⟨front, before, shown, tail, ⟨hline, hstart, hshown, ?_, h.slice_eq, fun hfeed => ?_, fun hfeed => ?_⟩, ?_⟩
  · rw [hstart, Position.after_append, Position.column_after _ hbefore,
      Position.column_of_begins hline.begins, Nat.add_sub_cancel_left]
  · rw [caretCount_of_isPart h, if_neg hfeed]
    exact ⟨rfl, (List.prefix_iff_eq_take.1 (hinside hfeed)).symm⟩
  · rw [caretCount_of_isPart h, if_pos hfeed]
    exact ⟨rfl, hhead⟩
  · have hnumber : span.start.line - 1 = front.count '\n' := by
      have hcount : before.count '\n' = 0 := List.count_eq_zero.2 hbefore
      rw [hstart, Position.line_after, List.count_append, hcount]
      show 1 + (front.count '\n' + 0) - 1 = _
      omega
    rw [Diagnostic.lineOf?, hnumber]
    exact Text.lines_getElem?_of_isLine hline (by simp [hshown])

end Agenda
