import Agenda.Proofs.Lexer.Cuts
import Agenda.Proofs.Lexer.Tiling
/-!
# Two texts in one line

Whether what stands in a line is cut as it would be by itself depends on what comes next to it. A quotation
needs nothing: the quote it ends with is the first that no backslash stands before, whatever comes after it.
Other texts need a space after them, and no colon after the space, which would make a field of a word at the
end. No rule looks over that seam.

Results: `lexFrom_quote` and `quotation_is_read_before_any_text`; `lex_append_space`, by which the second of
two texts is cut as it is where it stands, and `space_keeps_texts_apart`.
-/
namespace Agenda.Lexer

open Text (isBlank)

/-! ## Quotations -/

theorem step_quote (s r : Text) : step .root (s.quote ++ r) = .take [] .quoted s.quote r .root :=
  step_of_rule (rootRule_quote s r) rfl

def quotation (s : Text) (p : Position) : Token := ⟨.quoted, s.quote, ⟨p, p.after s.quote⟩⟩

theorem value_quotation (s : Text) (p : Position) : (quotation s p).value = s :=
  (if_pos rfl).trans (Text.unquote_quote s)

theorem lexFrom_quote (s r : Text) (p : Position) :
    lexFrom .root p (s.quote ++ r) = (lexFrom .root (p.after s.quote) r).cons ⟨[], quotation s p⟩ := by
  rw [lexFrom_eq, lexFrom_eq, cut_of_take (step_quote s r)]
  rfl

/-- A quotation before any text is one token, which says what was quoted, and outside strings the lexer goes on
with the text. -/
theorem quotation_is_read_before_any_text (s r : Text) (p : Position) :
    Lexer.next ⟨.root, p, s.quote ++ r, false⟩
        = (some (.ok (quotation s p)), ⟨.root, p.after s.quote, r, false⟩) ∧
      (lexFrom .root p (s.quote ++ r)).tokens
        = quotation s p :: (lexFrom .root (p.after s.quote) r).tokens ∧
      (quotation s p).value = s := by
  refine ⟨?_, ?_, ?_⟩
  · simp only [Lexer.next, step_quote]
    rfl
  · rw [lexFrom_quote]
    rfl
  · exact value_quotation s p

/-- Quotes and backslashes on both sides of the last quote. -/
example : (lex (Text.quote "\"\\".toList ++ "\"\\".toList)).tokens.map Token.text
    = ["\"\\\"\\\\\"".toList, ['"'], ['\\']] := by decide +kernel

/-! ## A space between texts -/

def failureAt (p : Position) (c : Cut) : Option LexError :=
  c.stuck.map fun (gap, found) => ⟨found, (placeEnd p c.lexemes).after gap⟩

theorem failure_lexFrom (state : State) (p : Position) (s : Text) :
    (lexFrom state p s).failure = failureAt p (cut state s) := by
  rw [lexFrom_eq]
  rfl

theorem failureAt_prepend (p : Position) (ls : List Lexeme) (c : Cut) :
    failureAt p (c.prepend ls) = failureAt (placeEnd p ls) c := by
  have hplace : placeEnd p (ls ++ c.lexemes) = placeEnd (placeEnd p ls) c.lexemes := by
    simp only [placeEnd_eq, Lexeme.textOf_append, Position.after_append]
  simp only [failureAt, Cut.stuck_prepend, Cut.lexemes_prepend, hplace]

theorem failureAt_indent (p : Position) (gap : Text) (c : Cut) :
    failureAt p (c.indent gap) = failureAt (p.after gap) c := by
  obtain ⟨_ | ⟨l, ls⟩, stuck, tail⟩ := c
  · cases stuck with
    | none => rfl
    | some found => simp [failureAt, Cut.indent, placeEnd, Position.after_append]
  · simp only [failureAt, Cut.indent, placeEnd, Position.after_append]

/-- The failure of a text that stands elsewhere is at the same character, as many bytes further on. -/
theorem failureAt_offset (p : Position) (c : Cut) :
    (failureAt p c).map (fun f => (f.found, f.position.offset))
      = (failureAt .origin c).map fun f => (f.found, p.offset + f.position.offset) := by
  have horigin : Position.origin.offset = 0 := rfl
  cases hs : c.stuck with
  | none => simp [failureAt, hs]
  | some found => simp [failureAt, hs, placeEnd_eq, Position.offset_after, horigin, Nat.add_assoc]

section
variable {a b : Text} (ha : (lex a).failure = none)
  (hclosed : ∀ t ∈ (lex a).tokens, t.kind.isOpenString = false)
  (hb : (b.dropWhile isBlank).head? ≠ some ':')
include ha hclosed hb

theorem cut_append_space : cut .root (a ++ ' ' :: b)
    = (((cut .root b).indent [' ']).indent (cut .root a).tail).prepend (cut .root a).lexemes := by
  have hseparates : Separates (' ' :: b) := by
    refine ⟨fun c hc => ?_, ?_⟩
    · cases hc
      decide
    · rw [List.dropWhile_cons_of_pos (by decide)]
      exact hb
  have hlexemes := (forall_kind_lex (·.isOpenString = false) a).1 hclosed
  rw [cut_append (hseparates.harmless a) (failure_eq_none_iff.1 ha) hlexemes, cut_space]

/-- Of two texts with a space between them the second is cut as it is where it stands. -/
theorem lex_append_space :
    (lex (a ++ ' ' :: b)).tokens
        = (lex a).tokens ++ (lexFrom .root (Position.origin.after (a ++ [' '])) b).tokens ∧
      (lex (a ++ ' ' :: b)).failure = (lexFrom .root (Position.origin.after (a ++ [' '])) b).failure := by
  have hplace : ((placeEnd .origin (cut .root a).lexemes).after (cut .root a).tail).after [' ']
      = Position.origin.after (a ++ [' ']) := by
    conv_rhs => rw [← text_cut a]
    simp only [placeEnd_eq, Position.after_append]
  refine ⟨?_, ?_⟩
  · rw [tokens_lex, cut_append_space ha hclosed hb, Cut.lexemes_prepend, tokensAt_append, tokensAt_indent,
      tokensAt_indent, hplace, tokens_lex, tokens_lexFrom]
  · rw [lex, failure_lexFrom, cut_append_space ha hclosed hb, failureAt_prepend, failureAt_indent,
      failureAt_indent, hplace, failure_lexFrom]

end

/-- Two texts with a space between them are cut as they are by themselves, and fail where the second does. -/
theorem space_keeps_texts_apart (a b : Text) (ha : (lex a).failure = none)
    (hclosed : ∀ t ∈ (lex a).tokens, t.kind.isOpenString = false)
    (hb : (b.dropWhile isBlank).head? ≠ some ':') :
    (lex (a ++ ' ' :: b)).tokens.map (fun t => (t.kind, t.text))
        = (lex a).tokens.map (fun t => (t.kind, t.text)) ++ (lex b).tokens.map (fun t => (t.kind, t.text)) ∧
      (lex (a ++ ' ' :: b)).failure.map (fun f => (f.found, f.position.offset))
        = (lex b).failure.map fun f => (f.found, (a ++ [' ']).byteSize + f.position.offset) := by
  obtain ⟨htokens, hfailure⟩ := lex_append_space ha hclosed hb
  refine ⟨?_, ?_⟩
  · rw [htokens, List.map_append, tokens_lexFrom, tokens_lex b, map_tokensAt (fun _ => rfl),
      map_tokensAt (fun _ => rfl)]
  · rw [hfailure, failure_lexFrom, failureAt_offset, Position.offset_origin_after, lex, failure_lexFrom]

/-- A field word at the end of the one and a sign and a character without a rule in the other. -/
theorem space_keeps_texts_apart_here :
    (lex "add +due".toList).failure = none ∧
      (∀ t ∈ (lex "add +due".toList).tokens, t.kind.isOpenString = false) ∧
      (("-x $".toList).dropWhile isBlank).head? ≠ some ':' ∧
      (lex "add +due -x $".toList).tokens.map (fun t => (t.kind, t.text))
        = (lex "add +due".toList).tokens.map (fun t => (t.kind, t.text))
          ++ (lex "-x $".toList).tokens.map (fun t => (t.kind, t.text)) ∧
      (lex "add +due -x $".toList).failure.map (fun f => (f.found, f.position.offset)) = some ('$', 12) := by
  have ha : (lex "add +due".toList).failure = none := by decide +kernel
  have hclosed : ∀ t ∈ (lex "add +due".toList).tokens, t.kind.isOpenString = false := by decide +kernel
  have hb : (("-x $".toList).dropWhile isBlank).head? ≠ some ':' := by decide
  obtain ⟨htokens, hfailure⟩ := space_keeps_texts_apart "add +due".toList "-x $".toList ha hclosed hb
  refine ⟨ha, hclosed, hb, htokens, hfailure.trans ?_⟩
  decide +kernel

end Agenda.Lexer
