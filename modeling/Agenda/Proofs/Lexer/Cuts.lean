import Agenda.Op.Basic
import Agenda.Proofs.Lexer.Boundary
/-!
# Texts that are cut as they were put together

`Cuts s ls` says that `s` is cut into the lexemes `ls` before every separating text, `Firm s ls` that
it is before every text at all. The forms that canonical texts are put together from are of the one
kind or the other: a quotation and a field with its colon are firm; a word, a tag, a number and a
clearing need a separating text after them. Both compose (`Cuts.append`, `Firm.append`), and a space
in front goes to the first gap (`Cuts.spaced`).
-/
namespace Agenda.Lexer

open Text (isBlank)

/-- Before a separating text, `s` is cut into `ls` and nothing is left over. -/
structure Cuts (s : Text) (ls : List Lexeme) : Prop where
  closed : ∀ l ∈ ls, l.kind.isOpenString = false
  cut_append : ∀ u, Separates u → cut .root (s ++ u) = (cut .root u).prepend ls

/-- Before any text, `s` is cut into `ls` and nothing is left over. -/
structure Firm (s : Text) (ls : List Lexeme) : Prop where
  closed : ∀ l ∈ ls, l.kind.isOpenString = false
  cut_append : ∀ u, cut .root (s ++ u) = (cut .root u).prepend ls

theorem Firm.cuts {s : Text} {ls : List Lexeme} (h : Firm s ls) : Cuts s ls :=
  ⟨h.closed, fun u _ => h.cut_append u⟩

theorem cuts_nil : Cuts [] [] := ⟨fun _ h => (by cases h), fun _ _ => rfl⟩

/-- A text that is cut without a tail and without open strings. -/
theorem cuts_of_cut {s : Text} (hs : (cut .root s).stuck = none)
    (closed : ∀ l ∈ (cut .root s).lexemes, l.kind.isOpenString = false)
    (tail : (cut .root s).tail = []) : Cuts s (cut .root s).lexemes :=
  ⟨closed, fun u hu => by rw [Lexer.cut_append (hu.harmless s) hs closed, tail, Cut.indent_nil]⟩

theorem Cuts.cut_eq {s : Text} {ls : List Lexeme} (h : Cuts s ls) : cut .root s = ⟨ls, none, []⟩ := by
  have := h.cut_append [] separates_nil
  rw [List.append_nil, cut_nil] at this
  rw [this, Cut.prepend, Cut.empty, List.append_nil]

theorem Cuts.append {s t : Text} {ls ms : List Lexeme} (hs : Cuts s ls) (ht : Cuts t ms)
    (between : ∀ u, Separates u → Separates (t ++ u)) : Cuts (s ++ t) (ls ++ ms) := by
  refine ⟨fun l hl => (List.mem_append.1 hl).elim (hs.closed l) (ht.closed l), fun u hu => ?_⟩
  rw [List.append_assoc, hs.cut_append _ (between u hu), ht.cut_append u hu, Cut.prepend_append]

theorem Firm.append {s t : Text} {ls ms : List Lexeme} (hs : Firm s ls) (ht : Cuts t ms) :
    Cuts (s ++ t) (ls ++ ms) := by
  refine ⟨fun l hl => (List.mem_append.1 hl).elim (hs.closed l) (ht.closed l), fun u hu => ?_⟩
  rw [List.append_assoc, hs.cut_append, ht.cut_append u hu, Cut.prepend_append]

/-! ## A space in front -/

def spaced : List Lexeme → List Lexeme
  | [] => []
  | l :: ls => { l with gap := ' ' :: l.gap } :: ls

theorem spaced_append {ls : List Lexeme} (h : ls ≠ []) (ms : List Lexeme) :
    spaced (ls ++ ms) = spaced ls ++ ms := by
  cases ls with
  | nil => exact absurd rfl h
  | cons l ls => rfl

theorem closed_spaced {ls : List Lexeme} (h : ∀ l ∈ ls, l.kind.isOpenString = false) :
    ∀ l ∈ spaced ls, l.kind.isOpenString = false := by
  cases ls with
  | nil => exact h
  | cons m ms =>
    intro l hl
    rcases List.mem_cons.1 hl with rfl | hl
    · exact h m (by simp)
    · exact h l (by simp [hl])

theorem indent_space {ls : List Lexeme} (h : ls ≠ []) (stuck : Option (Text × Char)) (tail : Text) :
    Cut.indent [' '] ⟨ls, stuck, tail⟩ = ⟨spaced ls, stuck, tail⟩ := by
  cases ls with
  | nil => exact absurd rfl h
  | cons l ls => rfl

/-- Blanks in front change no kind. -/
theorem exists_mem_indent (gap : Text) {c : Cut} {l : Lexeme} (h : l ∈ c.lexemes) :
    ∃ m ∈ (c.indent gap).lexemes, m.kind = l.kind := by
  obtain ⟨_ | ⟨l', ls⟩, stuck, tail⟩ := c
  · cases h
  · rcases List.mem_cons.1 h with rfl | h
    · exact ⟨_, List.mem_cons_self, rfl⟩
    · exact ⟨l, List.mem_cons_of_mem _ h, rfl⟩

theorem cut_space (s : Text) : cut .root (' ' :: s) = (cut .root s).indent [' '] :=
  cut_blank_append (List.forall_mem_singleton.2 (by decide)) s

theorem Cuts.spaced {s : Text} {ls : List Lexeme} (h : Cuts s ls) (hne : ls ≠ []) :
    Cuts (' ' :: s) (spaced ls) := by
  refine ⟨closed_spaced h.closed, fun u hu => ?_⟩
  rw [List.cons_append, cut_space, h.cut_append u hu]
  cases ls with
  | nil => exact absurd rfl hne
  | cons l ls => rfl

theorem tokensAt_spaced (p : Position) (ls : List Lexeme) :
    tokensAt p (spaced ls) = tokensAt (p.next ' ') ls := by
  cases ls <;> rfl

/-! ## What separates -/

/-- The text begins with a character that is neither a blank nor a colon. -/
def Opens (s : Text) : Prop := ∃ c r, s = c :: r ∧ isBlank c = false ∧ c ≠ ':'

theorem Opens.append {s : Text} (h : Opens s) (u : Text) : Opens (s ++ u) := by
  obtain ⟨c, r, rfl, hc⟩ := h
  exact ⟨c, r ++ u, rfl, hc⟩

theorem Opens.separates {s : Text} (h : Opens s) : Separates (' ' :: s) := by
  obtain ⟨c, r, rfl, hb, hc⟩ := h
  refine ⟨fun d hd => ?_, ?_⟩
  · cases hd; decide
  · have : isBlank ' ' = true := by decide
    simp [this, hb, hc]

theorem separates_rightParen (u : Text) : Separates (')' :: u) := by
  refine ⟨fun d hd => ?_, ?_⟩
  · cases hd; decide
  · have : isBlank ')' = false := by decide
    simp [this]

/-! ## Single tokens -/

/-- A rule that covers all of a text. -/
theorem step_of_rule {c : Char} {r u : Text} {kind : TokenKind}
    (h : rootRule c (r ++ u) = some (kind, r.length)) (hk : kind.isOpenString = false) :
    step .root (c :: r ++ u) = .take [] kind (c :: r) u .root := by
  have hb := isBlank_eq_false_of_rule h
  have hs : (c :: (r ++ u)).dropWhile isBlank = c :: (r ++ u) := by simp [hb]
  have hgap : (c :: (r ++ u)).takeWhile isBlank = [] := by simp [hb]
  have hstep := step_root_take hs h
  rw [List.take_left, List.drop_left, hgap, after_root (ne_quoteStart_of_closed hk)] at hstep
  exact hstep

theorem cut_of_rule {c : Char} {r u : Text} {kind : TokenKind}
    (h : rootRule c (r ++ u) = some (kind, r.length)) (hk : kind.isOpenString = false) :
    cut .root (c :: r ++ u) = (cut .root u).prepend [⟨[], kind, c :: r⟩] := cut_of_take (step_of_rule h hk)

theorem firm_of_rule {c : Char} {r : Text} {kind : TokenKind}
    (h : ∀ u, rootRule c (r ++ u) = some (kind, r.length)) (hk : kind.isOpenString = false) :
    Firm (c :: r) [⟨[], kind, c :: r⟩] := by
  refine ⟨fun l hl => ?_, fun u => cut_of_rule (h u) hk⟩
  rw [List.mem_singleton] at hl
  rw [hl]; exact hk

theorem cuts_of_rule {c : Char} {r : Text} {kind : TokenKind}
    (h : rootRule c r = some (kind, r.length)) (hk : kind.isOpenString = false) :
    Cuts (c :: r) [⟨[], kind, c :: r⟩] := by
  refine ⟨fun l hl => ?_, fun u hu => cut_of_rule (rootRule_append hu.breaks (Or.inl hu.colon) h ?_) hk⟩
  · rw [List.mem_singleton] at hl
    rw [hl]; exact hk
  · intro hq; subst hq; cases hk

theorem rootRule_quote (s u : Text) :
    rootRule '"' (Text.escape s ++ ['"'] ++ u) = some (.quoted, (Text.escape s ++ ['"']).length) := by
  rw [List.append_assoc, List.singleton_append, List.length_append]
  show some (quoteRule _) = _
  rw [quoteRule, closingQuote?_escape]
  rfl

theorem firm_quote (s : Text) : Firm s.quote [⟨[], .quoted, s.quote⟩] := firm_of_rule (rootRule_quote s) rfl

theorem firm_leftParen : Firm ['('] [⟨[], .leftParen, ['(']⟩] := firm_of_rule (fun _ => rfl) rfl

theorem firm_rightParen : Firm [')'] [⟨[], .rightParen, [')']⟩] := firm_of_rule (fun _ => rfl) rfl

/-! ## Tags -/

/-- A name that may stand after a sigil. -/
structure IsTagName (name : Text) : Prop where
  start : ∃ c r, name = c :: r ∧ isTagStart c = true
  wordChars : ∀ c ∈ name, isWordChar c = true

theorem IsTagName.not_blank {name : Text} (h : IsTagName name) : ∀ c ∈ name, isBlank c = false := by
  intro c hc
  cases hb : isBlank c with
  | false => rfl
  | true =>
    have := h.wordChars c hc
    rw [isWordChar_eq_false_of_isBlank hb] at this
    cases this

def tagToken : TagKind → TokenKind
  | .project => .projectTag
  | .context => .contextTag

theorem cuts_tag (kind : TagKind) {name : Text} (h : IsTagName name) :
    Cuts (kind.sigil :: name) [⟨[], tagToken kind, kind.sigil :: name⟩] := by
  obtain ⟨⟨c, r, rfl, hc⟩, hw⟩ := h
  have hlen : wordLength (c :: r) = (c :: r).length := by
    rw [wordLength, List.takeWhile_eq_self_iff.2 hw]
  cases kind with
  | project =>
    refine cuts_of_rule ?_ rfl
    show some (hashRule (c :: r)) = _
    rw [hashRule, isDigit_eq_false_of_isTagStart hc, if_neg (by simp), if_pos hc, hlen]
    rfl
  | context =>
    refine cuts_of_rule ?_ rfl
    show some (atRule (c :: r)) = _
    rw [atRule, if_pos hc, hlen]
    rfl

/-! ## Fields -/

theorem fieldColon?_word {w : Text} (hw : w ∈ Field.words) (u : Text) :
    fieldColon? (w ++ ':' :: u) = some (w.length + 1) :=
  fieldColon?_eq_some_iff.2 ⟨w, hw, [], u, by simp, rfl, rfl⟩

theorem fieldWord?_word {w : Text} (hw : w ∈ Field.words) : fieldWord? w = some w.length := by
  have : ∀ w ∈ Field.words, fieldWord? w = some w.length := by decide
  exact this w hw

/-- A field word begins as a word does. -/
theorem rootRule_word {w : Text} (hw : w ∈ Field.words) :
    ∃ c r, w = c :: r ∧ ∀ s, rootRule c s = some (wordRule c s) := by
  simp only [Field.words, List.mem_cons, List.not_mem_nil, or_false] at hw
  rcases hw with rfl | rfl | rfl | rfl | rfl | rfl | rfl | rfl | rfl | rfl | rfl | rfl | rfl | rfl <;>
    exact ⟨_, _, rfl, fun _ => rfl⟩

def editToken : Edit → TokenKind
  | .set => .setField
  | .add => .addField
  | .remove => .removeField

/-- A field with its colon needs nothing after it. -/
theorem firm_field (how : Edit) {w : Text} (hw : w ∈ Field.words) :
    Firm (how.sign ++ w ++ [':']) [⟨[], editToken how, how.sign ++ w ++ [':']⟩] := by
  have hlen (c : Char) : (w ++ [c]).length = w.length + 1 := by simp
  cases how with
  | set =>
    have hcolon := fieldColon?_word hw
    obtain ⟨c, r, rfl, hr⟩ := rootRule_word hw
    refine firm_of_rule (c := c) (r := r ++ [':']) (fun u => ?_) rfl
    have := hcolon u
    rw [List.cons_append] at this
    rw [hr, List.append_assoc, List.singleton_append, wordRule, this, List.length_append]
    rfl
  | add =>
    refine firm_of_rule (c := '+') (fun u => ?_) rfl
    show some (signRule .addField .addOp (w ++ [':'] ++ u)) = some (.addField, (w ++ [':']).length)
    rw [signRule, List.append_assoc, List.singleton_append, fieldColon?_word hw, hlen]
  | remove =>
    refine firm_of_rule (c := '-') (fun u => ?_) rfl
    show some (signRule .removeField .removeOp (w ++ [':'] ++ u))
      = some (.removeField, (w ++ [':']).length)
    rw [signRule, List.append_assoc, List.singleton_append, fieldColon?_word hw, hlen]

theorem cuts_clear {w : Text} (hw : w ∈ Field.words) :
    Cuts ('!' :: w) [⟨[], .clearField, '!' :: w⟩] := by
  refine cuts_of_rule ?_ rfl
  show some (bangRule w) = _
  rw [bangRule, fieldWord?_word hw]

end Agenda.Lexer
