import Agenda.Proofs.Lexer.Cuts
import Agenda.Proofs.Reading
/-!
# Lines with a verb

A line that is a canonical verb, a space and more is cut into the token of the verb and what is cut
from the rest (`cut_verb`), and is read as a command of that verb's intent (`commandOf_verb`).
-/
namespace Agenda.Canonical

open Lexer

def verbLexeme (i : Intent) : Lexeme := ⟨[], .ident, i.verb⟩

/-- A verb by itself. -/
theorem cuts_verb (i : Intent) : Cuts i.verb [verbLexeme i] := by
  cases i with
  | create => exact cuts_of_rule (c := 'a') (r := ['d', 'd']) rfl rfl
  | update => exact cuts_of_rule (c := 's') (r := ['e', 't']) rfl rfl
  | filter => exact cuts_of_rule (c := 'f') (r := ['i', 'n', 'd']) rfl rfl
  | view => exact cuts_of_rule (c := 'v') (r := ['i', 'e', 'w']) rfl rfl
  | context => exact cuts_of_rule (c := 'c') (r := "ontext".toList) rfl rfl

/-- A verb is cut off before a space. The verb `context` is a field word too and must not have a colon
after it. -/
theorem cut_verb {i : Intent} {u : Text} (h : i = .context → Separates (' ' :: u)) :
    cut .root (i.verb ++ ' ' :: u) = (cut .root (' ' :: u)).prepend [verbLexeme i] := by
  cases i with
  | create => exact cut_of_rule (c := 'a') (r := ['d', 'd']) rfl rfl
  | update => exact cut_of_rule (c := 's') (r := ['e', 't']) rfl rfl
  | filter => exact cut_of_rule (c := 'f') (r := ['i', 'n', 'd']) rfl rfl
  | view => exact cut_of_rule (c := 'v') (r := ['i', 'e', 'w']) rfl rfl
  | context => exact (cuts_verb .context).cut_append _ (h rfl)

/-- A verb and, after a space, more. -/
theorem cut_line {i : Intent} {s : Text} {ls : List Lexeme} (h : Cuts s ls)
    (hs : s = [] ∨ ∃ u, s = ' ' :: u ∧ (i = .context → Opens u)) :
    cut .root (i.verb ++ s) = ⟨verbLexeme i :: ls, none, []⟩ := by
  rcases hs with rfl | ⟨u, rfl, hu⟩
  · have := h.cut_eq
    rw [cut_nil] at this
    obtain rfl : [] = ls := congrArg Cut.lexemes this
    rw [List.append_nil, (cuts_verb i).cut_eq]
  · rw [cut_verb fun hi => (hu hi).separates, h.cut_eq]; rfl

/-- A line that is cut into a verb and more makes what the verb asks for of the tokens after it. -/
theorem commandOf_verb {i : Intent} {s : Text} {ls : List Lexeme}
    (hcut : cut .root s = ⟨verbLexeme i :: ls, none, []⟩)
    (closed : ∀ l ∈ ls, l.kind.isOpenString = false) :
    ∃ eof whole, ∀ c,
      Command.Makes eof whole i (tokensAt (Position.origin.after i.verb) ls) c →
      Reading.commandOf .auto s = .ok c := by
  have htokens : (lex s).tokens
      = ⟨.ident, i.verb, ⟨.origin, Position.origin.after i.verb⟩⟩
        :: tokensAt (Position.origin.after i.verb) ls := by
    rw [tokens_lex, hcut]; rfl
  have hfailure : (lex s).failure = none := failure_eq_none_iff.2 (by rw [hcut])
  have hopen : ∀ t ∈ (lex s).tokens, t.kind.isOpenString = false := by
    intro t ht
    rw [htokens] at ht
    rcases List.mem_cons.1 ht with rfl | ht
    · rfl
    · obtain ⟨l, hl, he⟩ := exists_of_mem_tokensAt ht
      have := closed l hl
      rw [show l.kind = l.token.kind from rfl, he] at this
      exact this
  have hverb : Command.leadingVerb (lex s).tokens = some i := by
    rw [htokens, Command.leadingVerb, if_pos rfl, Intent.ofVerb?_verb]
  have hafter : Command.afterVerb (lex s).tokens
      = tokensAt (Position.origin.after i.verb) ls := by
    rw [Command.afterVerb, hverb, htokens]
    rfl
  refine ⟨Token.endOf (lex s).tokens, (lex s).tokens, fun c hc => ?_⟩
  refine Reading.commandOf_ok_iff.2 ⟨hfailure, hopen, i, by rw [hverb]; rfl, ?_⟩
  rw [hafter]
  exact hc

end Agenda.Canonical
