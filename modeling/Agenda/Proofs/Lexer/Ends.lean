import Agenda.Proofs.Lexer.Named
import Agenda.Proofs.Text.Trim
/-!
# Both ends of a token

A token may have blanks in it, as a quotation has, or a field with blanks before its colon, but it begins
and ends with none. This holds of every token outside open strings, and of the quote that opens one.

Results: `trimmed_of_rootRule`; `trimmed_of_mem_tokens` and `trimmed_of_find_open`.
-/
namespace Agenda.Lexer

open Text (isBlank Trimmed)

/-- The text ends in no blank. -/
def EndsFull (s : Text) : Prop := ∀ c, s.getLast? = some c → isBlank c = false

theorem endsFull_of_not_blank {s : Text} (h : ∀ c ∈ s, isBlank c = false) : EndsFull s :=
  (Text.trimmed_of_not_blank h).right

theorem endsFull_concat (s : Text) {c : Char} (h : isBlank c = false) : EndsFull (s ++ [c]) := by
  intro d hd
  rw [List.getLast?_concat] at hd
  cases hd
  exact h

theorem not_blank_of_isWordChar {c : Char} (h : isWordChar c = true) : isBlank c = false :=
  (isPlainChar_of_isWordChar h).1

/-! ## Rules -/

/-- A closed quotation ends in a quote. -/
theorem exists_take_of_closingQuote? {r : Text} {n : Nat} (h : closingQuote? r = some n) :
    ∃ s, r.take n = s ++ ['"'] := by
  induction r using closingQuote?.induct generalizing n with
  | case1 => cases h
  | case2 r =>
    rw [closingQuote?_quote] at h
    cases h
    exact ⟨[], rfl⟩
  | case3 => cases h
  | case4 d r _ ih =>
    rw [closingQuote?_backslash] at h
    obtain ⟨m, hm, rfl⟩ := Option.map_eq_some_iff.1 h
    obtain ⟨s, hs⟩ := ih hm
    exact ⟨'\\' :: d :: s, by rw [List.take_succ_cons, List.take_succ_cons, hs]; rfl⟩
  | case5 c r hquote hslash ih =>
    rw [closingQuote?_cons (by simp [isPlain, hquote, hslash])] at h
    obtain ⟨m, hm, rfl⟩ := Option.map_eq_some_iff.1 h
    obtain ⟨s, hs⟩ := ih hm
    exact ⟨c :: s, by rw [List.take_succ_cons, hs]; rfl⟩

theorem endsFull_quoteRule (r : Text) : EndsFull ('"' :: r.take (quoteRule r).2) := by
  unfold quoteRule
  split
  · next n hn =>
    obtain ⟨s, hs⟩ := exists_take_of_closingQuote? hn
    rw [hs, ← List.cons_append]
    exact endsFull_concat _ (by decide)
  · exact endsFull_concat [] (by decide)

theorem endsFull_wordLength {c : Char} (hc : isBlank c = false) (r : Text) :
    EndsFull (c :: r.take (wordLength r)) := by
  refine endsFull_of_not_blank (List.forall_mem_cons.2 ⟨hc, fun d hd => ?_⟩)
  rw [wordLength, take_length_takeWhile] at hd
  exact not_blank_of_isWordChar (List.mem_takeWhile_imp hd)

theorem endsFull_hashRule (r : Text) : EndsFull ('#' :: r.take (hashRule r).2) := by
  have halone : EndsFull ['#'] := endsFull_concat [] (by decide)
  unfold hashRule
  split
  · exact halone
  · next d r =>
    split
    · refine endsFull_of_not_blank (List.forall_mem_cons.2 ⟨by decide, fun e he => ?_⟩)
      rw [take_length_takeWhile] at he
      exact not_blank_of_isWordChar (isWordChar_of_isDigit (List.mem_takeWhile_imp he))
    · split
      · exact endsFull_wordLength (by decide) _
      · exact halone

theorem endsFull_atRule (r : Text) : EndsFull ('@' :: r.take (atRule r).2) := by
  have halone : EndsFull ['@'] := endsFull_concat [] (by decide)
  unfold atRule
  split
  · exact halone
  · split
    · exact endsFull_wordLength (by decide) _
    · exact halone

/-- A field with its colon ends in the colon. -/
theorem endsFull_fieldColon? (front : Text) {s : Text} {n : Nat} (h : fieldColon? s = some n) :
    EndsFull (front ++ s.take n) := by
  obtain ⟨w, -, blanks, -, htake⟩ := take_fieldColon? h
  rw [htake, ← List.append_assoc]
  exact endsFull_concat _ (by decide)

theorem endsFull_signRule {field alone : TokenKind} {c : Char} (hc : isBlank c = false) (r : Text) :
    EndsFull (c :: r.take (signRule field alone r).2) := by
  unfold signRule
  split
  · next n hn => exact endsFull_fieldColon? [c] hn
  · exact endsFull_concat [] hc

theorem endsFull_bangRule (r : Text) : EndsFull ('!' :: r.take (bangRule r).2) := by
  unfold bangRule
  split
  · next n hn =>
    obtain ⟨w, hw, htake⟩ := take_fieldWord? hn
    refine endsFull_of_not_blank (List.forall_mem_cons.2 ⟨by decide, fun d hd => ?_⟩)
    rw [htake] at hd
    exact not_blank_of_isWordChar (isWordChar_of_mem_words hw d hd)
  · exact endsFull_concat [] (by decide)

theorem endsFull_wordRule {c : Char} (hc : isBlank c = false) (r : Text) :
    EndsFull (c :: r.take (wordRule c r).2) := by
  unfold wordRule
  split
  · next n hn =>
    have hzero := ne_zero_of_fieldColon? hn
    have htake : c :: r.take (n - 1) = (c :: r).take n := by
      obtain ⟨m, rfl⟩ : ∃ m, n = m + 1 := ⟨n - 1, by omega⟩
      rfl
    show EndsFull (c :: r.take (n - 1))
    rw [htake]
    exact endsFull_fieldColon? [] hn
  · exact endsFull_wordLength hc r

theorem endsFull_doubledRule {kind : TokenKind} {c : Char} (hc : isBlank c = false) {r : Text}
    {out : TokenKind × Nat} (h : doubledRule kind c r = some out) : EndsFull (c :: r.take out.2) := by
  unfold doubledRule at h
  split at h
  · next hd =>
    cases h
    obtain ⟨u, rfl⟩ := List.head?_eq_some_iff.1 hd
    exact endsFull_concat [c] hc
  · cases h

/-- What the rules make a token begins and ends with no blank. -/
theorem trimmed_of_rootRule {c : Char} {r : Text} {out : TokenKind × Nat} (h : rootRule c r = some out) :
    Trimmed (c :: r.take out.2) := by
  have hc : isBlank c = false := isBlank_eq_false_of_rule h
  refine ⟨fun d hd => by cases hd; exact hc, ?_⟩
  cases applies_of_rootRule h with
  | quote => exact endsFull_quoteRule r
  | hash => exact endsFull_hashRule r
  | context => exact endsFull_atRule r
  | plus | minus => exact endsFull_signRule hc r
  | bang => exact endsFull_bangRule r
  | colon | comma | leftParen | rightParen | star => exact endsFull_concat [] hc
  | ampersand hr | bar hr => exact endsFull_doubledRule hc hr
  | word => exact endsFull_wordRule hc r

/-! ## Tokens -/

theorem trimmed_of_mem_tokens {s : Text} {t : Token} (h : t ∈ (lex s).tokens)
    (hopen : t.kind.isOpenString = false) : Trimmed t.text := by
  obtain ⟨c, r, n, hrule, htext⟩ := exists_rule_of_mem_tokens h hopen
  rw [htext]
  exact trimmed_of_rootRule hrule

/-- Up to the first quote that stays open the lexer is outside strings. -/
theorem exists_rule_of_find_open {p : Position} {s : Text} {t : Token}
    (h : (lexFrom .root p s).tokens.find? (·.kind.isOpenString) = some t) :
    ∃ c r n, rootRule c r = some (t.kind, n) ∧ t.text = c :: r.take n := by
  generalize hstate : State.root = state at h
  fun_induction lexFrom state p s with
  | case1 => cases h
  | case2 => cases h
  | case3 state p s gap kind text rest next hs start stop ih =>
    subst hstate
    obtain ⟨c, r, n, -, hrule, -, htext, -, hnext⟩ := rule_of_step_root hs
    simp only [Lexed.tokens, Lexed.cons, List.map_cons, List.find?_cons] at h
    split at h
    · cases h
      exact ⟨c, r, n, hrule, htext⟩
    · next hclosed =>
      refine ih ?_ h
      rw [hnext, after_root (ne_quoteStart_of_closed (by simpa using hclosed))]

theorem trimmed_of_find_open {s : Text} {t : Token}
    (h : (lex s).tokens.find? (·.kind.isOpenString) = some t) : Trimmed t.text := by
  obtain ⟨c, r, n, hrule, htext⟩ := exists_rule_of_find_open h
  rw [htext]
  exact trimmed_of_rootRule hrule

end Agenda.Lexer
