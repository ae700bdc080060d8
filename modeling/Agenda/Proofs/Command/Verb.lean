import Agenda.Proofs.Canonical.Line
import Agenda.Proofs.Command.Alike
/-!
# A mode stands for its verb

A line that begins with no verb is read in the mode of an intent as it is read, in mode `auto`, with the
verb of that intent and a space in front. The tokens after the verb are those of the line in other places,
so the two make the same command up to spans, or neither makes one. One verb is special: `context` is a
field word too, and a colon after it makes a field of the two, so that the line has no verb; but then the
line begins with a colon, which asks for no context either.

Results: readings that are alike but for places make the same command (`ReadAlike.command_eq`);
`forced_mode_reads_as_verb`.
-/
namespace Agenda

open Lexer
open Text (isBlank)

namespace Reading

/-! ## Readings that differ in places -/

/-- The lines fail alike, ask for the same thing, and have alike tokens after the verb. -/
structure ReadAlike (mode : Mode) (s : Text) (mode' : Mode) (s' : Text) : Prop where
  failure : (lex s).failure = none ↔ (lex s').failure = none
  closed : (∀ t ∈ (lex s).tokens, t.kind.isOpenString = false) ↔
    ∀ t ∈ (lex s').tokens, t.kind.isOpenString = false
  intent : (Command.leadingVerb (lex s).tokens).or mode.intent?
    = (Command.leadingVerb (lex s').tokens).or mode'.intent?
  alike : Alike (Command.afterVerb (lex s).tokens) (Command.afterVerb (lex s').tokens)

namespace ReadAlike

variable {mode mode' : Mode} {s s' : Text}

theorem symm (h : ReadAlike mode s mode' s') : ReadAlike mode' s' mode s :=
  ⟨h.failure.symm, h.closed.symm, h.intent.symm, h.alike.symm⟩

theorem exists_commandOf (h : ReadAlike mode s mode' s') {c : Command}
    (hc : commandOf mode s = .ok c) :
    ∃ c', commandOf mode' s' = .ok c' ∧ c'.withoutSpans = c.withoutSpans := by
  obtain ⟨hfailure, hclosed, i, hi, hmakes⟩ := commandOf_ok_iff.1 hc
  obtain ⟨c', hmakes', hsame⟩ := h.alike.makes hmakes
  refine ⟨c', commandOf_ok_iff.2 ⟨h.failure.1 hfailure, h.closed.1 hclosed, i, ?_, hmakes'⟩, hsame⟩
  rw [← h.intent, hi]

/-- Both make the same command up to spans, or neither makes one. -/
theorem command_eq (h : ReadAlike mode s mode' s') :
    (commandOf mode s).toOption.map Command.withoutSpans
      = (commandOf mode' s').toOption.map Command.withoutSpans := by
  cases hc : commandOf mode s with
  | ok c =>
    obtain ⟨c', hc', hsame⟩ := h.exists_commandOf hc
    rw [hc']
    exact congrArg some hsame.symm
  | error e =>
    cases hc' : commandOf mode' s' with
    | error e' => rfl
    | ok c' =>
      obtain ⟨c, hok, -⟩ := h.symm.exists_commandOf hc'
      rw [hc] at hok
      cases hok

end ReadAlike

/-! ## The verb in front -/

section
variable {i : Intent} {s : Text}

theorem cut_verb_line (hs : i = .context → (s.dropWhile isBlank).head? ≠ some ':') :
    cut .root (i.verb ++ ' ' :: s)
      = ((cut .root s).indent [' ']).prepend [Canonical.verbLexeme i] := by
  rw [Canonical.cut_verb fun hi => ?_, cut_space]
  refine ⟨fun c hc => ?_, ?_⟩
  · cases hc; decide
  · rw [List.dropWhile_cons_of_pos (by decide)]
    exact hs hi

/-- The tokens of a line with a verb in front. -/
theorem tokens_verb_line (hs : i = .context → (s.dropWhile isBlank).head? ≠ some ':') :
    (lex (i.verb ++ ' ' :: s)).tokens
      = ⟨.ident, i.verb, ⟨.origin, Position.origin.after i.verb⟩⟩
        :: tokensAt ((Position.origin.after i.verb).after [' ']) (cut .root s).lexemes := by
  rw [tokens_lex, cut_verb_line hs, Cut.lexemes_prepend, ← tokensAt_indent]
  rfl

/-- A line without a verb in the mode of an intent, and with its verb. -/
theorem readAlike_verb (h : Command.leadingVerb (lex s).tokens = none)
    (hs : i = .context → (s.dropWhile isBlank).head? ≠ some ':') :
    ReadAlike (.only i) s .auto (i.verb ++ ' ' :: s) := by
  have htokens := tokens_verb_line hs
  have hverb : Command.leadingVerb (lex (i.verb ++ ' ' :: s)).tokens = some i := by
    rw [htokens, Command.leadingVerb, if_pos rfl, Intent.ofVerb?_verb]
  have halike := alike_tokensAt .origin ((Position.origin.after i.verb).after [' '])
    (cut .root s).lexemes
  rw [← tokens_lex] at halike
  refine ⟨?_, ?_, ?_, ?_⟩
  · rw [← Option.isNone_iff_eq_none, ← Option.isNone_iff_eq_none, failure_lex, failure_lex,
      cut_verb_line hs, Cut.stuck_prepend, stuck_indent]
  · rw [htokens, List.forall_mem_cons]
    exact (halike.forall_iff fun _ => rfl).trans (and_iff_right rfl).symm
  · rw [h, hverb]; rfl
  · rw [Command.afterVerb, Command.afterVerb, h, hverb, htokens]
    exact halike

/-! ## A colon in front -/

/-- The first token of a line comes from the rule for its first character. -/
theorem exists_tokens_of_rule {c : Char} {r : Text} {kind : TokenKind} {n : Nat}
    (hs : s.dropWhile isBlank = c :: r) (hr : rootRule c r = some (kind, n)) :
    ∃ span ts, (lex s).tokens = ⟨kind, c :: r.take n, span⟩ :: ts := by
  rw [tokens_lex, cut_of_take (step_root_take hs hr), Cut.lexemes_prepend, List.singleton_append,
    tokensAt_cons]
  exact ⟨_, _, rfl⟩

/-- A line that begins with a colon asks for no context. -/
theorem not_commandOf_of_colon (hs : (s.dropWhile isBlank).head? = some ':') (c : Command) :
    commandOf (.only .context) s ≠ .ok c := by
  intro hc
  obtain ⟨-, -, i, hi, hmakes⟩ := commandOf_ok_iff.1 hc
  obtain ⟨r, hr⟩ := List.head?_eq_some_iff.1 hs
  obtain ⟨span, ts, htokens⟩ := exists_tokens_of_rule hr rfl
  rw [htokens] at hi hmakes
  obtain rfl : Intent.context = i := Option.some.inj hi
  change Command.Makes _ _ _ (⟨.colon, _, span⟩ :: ts) c at hmakes
  cases hmakes with
  | context named => cases named

/-- Nor does it make a command after the word `context`: the word and the colon are a field. -/
theorem not_commandOf_context_of_colon (hs : (s.dropWhile isBlank).head? = some ':') (c : Command) :
    commandOf .auto (Intent.context.verb ++ ' ' :: s) ≠ .ok c := by
  intro hc
  obtain ⟨-, -, i, hi, -⟩ := commandOf_ok_iff.1 hc
  have hcolon : ((' ' :: s).dropWhile isBlank).head? = some ':' := by
    rw [List.dropWhile_cons_of_pos (by decide)]
    exact hs
  obtain ⟨n, (hfield : fieldColon? ('c' :: ("ontext".toList ++ ' ' :: s)) = some n)⟩ :=
    exists_fieldColon? (show Intent.context.verb ∈ Field.words by decide) hcolon
  have hdrop : (Intent.context.verb ++ ' ' :: s).dropWhile isBlank
      = 'c' :: ("ontext".toList ++ ' ' :: s) := List.dropWhile_cons_of_neg (by decide)
  have hrule : rootRule 'c' ("ontext".toList ++ ' ' :: s) = some (.setField, n - 1) := by
    show some (wordRule 'c' ("ontext".toList ++ ' ' :: s)) = _
    rw [wordRule, hfield]
  obtain ⟨span, ts, htokens⟩ := exists_tokens_of_rule hdrop hrule
  rw [htokens] at hi
  cases hi

end

theorem toOption_eq_none {α : Type} {r : Except Error α} (h : ∀ a, r ≠ .ok a) : r.toOption = none := by
  cases r with
  | error e => rfl
  | ok a => exact absurd rfl (h a)

/-- A line without a verb makes, in the mode of an intent, the command up to spans that it makes in mode
`auto` with the verb of the intent and a space in front; or neither makes one. -/
theorem forced_mode_reads_as_verb (i : Intent) (now now' : Timestamp) (s : Text)
    (h : Command.leadingVerb (lex s).tokens = none) :
    (ofLine (.only i) now s).1.command.map Command.withoutSpans
      = (ofLine .auto now' (i.verb ++ ' ' :: s)).1.command.map Command.withoutSpans := by
  rw [command_ofLine, command_ofLine]
  by_cases hs : i = .context → (s.dropWhile isBlank).head? ≠ some ':'
  · exact (readAlike_verb h hs).command_eq
  · obtain ⟨rfl, hcolon⟩ := Classical.not_imp.1 hs
    have hs := not_not.1 hcolon
    rw [toOption_eq_none (not_commandOf_of_colon hs),
      toOption_eq_none (not_commandOf_context_of_colon hs)]

/-- A title with a tag, of which both make the same command, and a colon, after which no context is asked
for in either way. -/
theorem forced_mode_reads_as_verb_lines :
    let now : Timestamp := ⟨⟨2025, 3, 9, by decide, by decide, by decide, by decide⟩, 12, 0, 0, 0, 0⟩
    let made (mode : Mode) (s : Text) := (ofLine mode now s).1.command.map Command.withoutSpans
    let call := "call #home".toList
    let home := ": #home".toList
    made (.only .create) call = some (.create "call".toList [.tag .project "home".toList .zero] .zero) ∧
      made (.only .create) call = made .auto (Intent.create.verb ++ ' ' :: call) ∧
      made (.only .context) home = none ∧
      made (.only .context) home = made .auto (Intent.context.verb ++ ' ' :: home) := by
  intro now made call home
  have hcall : Command.leadingVerb (lex call).tokens = none := by decide +kernel
  have hhome : Command.leadingVerb (lex home).tokens = none := by decide +kernel
  exact ⟨by decide +kernel, forced_mode_reads_as_verb .create now now call hcall, by decide +kernel,
    forced_mode_reads_as_verb .context now now home hhome⟩

end Reading

end Agenda
