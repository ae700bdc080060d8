import Agenda.Canonical
import Agenda.Proofs.Lexer.Cuts
import Agenda.Proofs.ValueRun
/-!
# Runs that stand for themselves

A text that passes `Canonical.isPlainRun` is cut into the tokens that it was found to have wherever it
stands, and these join to it again: `plain_of_isPlainRun` puts this together as `Plain`.
-/
namespace Agenda.Lexer

/-- A text that does not end in a blank has nothing after its last token. -/
theorem cuts_of_getLast? {s : Text} (h : ∀ c, s.getLast? = some c → Text.isBlank c = false)
    (hs : (cut .root s).stuck = none)
    (closed : ∀ l ∈ (cut .root s).lexemes, l.kind.isOpenString = false) :
    Cuts s (cut .root s).lexemes := by
  have htail : (cut .root s).tail = [] := by
    rw [← text_cut s] at h
    exact Text.eq_nil_of_blank h (blank_of_mem_tail hs closed)
  exact cuts_of_cut hs closed htail

end Agenda.Lexer

namespace Agenda.Canonical

open Lexer

/-- A text that is cut into tokens which all satisfy `fits` and which join to it again. -/
structure Plain (fits : Token → Bool) (s : Text) (ls : List Lexeme) : Prop where
  cuts : Cuts s ls
  ne_nil : ls ≠ []
  fits : ∀ l ∈ ls, fits l.token = true
  join : ValueRun.join (ls.map Lexeme.token) = s

theorem plain_of_isPlainRun {fits : Token → Bool} (hfits : ∀ t, fits t.unplaced = fits t)
    (hopen : ∀ t, fits t = true → t.kind.isOpenString = false) {s : Text}
    (h : isPlainRun fits s = true) : ∃ ls, Plain fits s ls := by
  rw [isPlainRun, failure_lex, tokens_lex] at h
  simp only [Bool.and_eq_true, Bool.not_eq_true', beq_iff_eq] at h
  obtain ⟨⟨⟨hs, hne⟩, hall⟩, hjoin⟩ := h
  rw [ValueRun.join_tokensAt] at hjoin
  rw [all_tokensAt hfits] at hall
  have hls := List.all_eq_true.1 hall
  have hstuck : (cut .root s).stuck = none := Option.isNone_iff_eq_none.1 hs
  have closed : ∀ l ∈ (cut .root s).lexemes, l.kind.isOpenString = false := fun l hl =>
    hopen l.token (hls l hl)
  have htrim : Text.Trimmed s := by rw [← hjoin]; exact ValueRun.trimmed_join _
  refine ⟨_, cuts_of_getLast? htrim.right hstuck closed, ?_, hls, hjoin⟩
  intro hnil
  rw [hnil] at hne
  cases hne

end Agenda.Canonical
