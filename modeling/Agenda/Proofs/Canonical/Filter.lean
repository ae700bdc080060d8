import Agenda.Proofs.Canonical.Line
import Agenda.Proofs.Canonical.Run
import Agenda.Proofs.Field
import Agenda.Proofs.Lexer.Shape
import Mathlib.Tactic.SplitIfs
/-!
# The canonical form of a filter reads back

`Prints s text e` says that a text is cut into lexemes from which, wherever they stand and whatever
comes after them that ends a value, the symbol `s` of the grammar derives the filter `e` up to spans.
The pieces of a canonical form print their filters: predicates as atoms, a text in parentheses as an
atom, and each operator as the symbol of its level when its operands print as the symbols that the
grammar wants there.

Results: a canonical form inside one of a given level is of the symbol that may stand there
(`exists_prints_canonicalIn`); the canonical form of every filter whose field predicates have a text
reads back as that filter (`reads_back`).
-/
namespace Agenda.Filter

open Lexer Canonical GrammarSymbol

/-! ## Symbols -/

/-- How weakly a symbol binds. -/
def GrammarSymbol.rank : GrammarSymbol → Nat
  | atom => 0
  | notExpr => 1
  | andExpr => 2
  | orExpr => 3

/-- Every symbol derives what a stronger one derives. -/
theorem Derives.weaken {s s' : GrammarSymbol} {ts rest : List Token} {e : Filter}
    (h : Derives s ts e rest) (hs : s.rank ≤ s'.rank) : Derives s' ts e rest := by
  cases s <;> cases s' <;> simp only [GrammarSymbol.rank] at hs <;> first
    | exact h
    | omega
    | exact .plain h
    | exact .term h
    | exact .alternative h
    | exact .term (.plain h)
    | exact .alternative (.term h)
    | exact .alternative (.term (.plain h))

/-- The symbol that may stand inside a canonical form of level `outer`. -/
def slot (outer : Nat) (onRight : Bool) : GrammarSymbol :=
  if outer + onRight.toNat ≤ 1 then orExpr
  else if outer + onRight.toNat ≤ 2 then andExpr
  else notExpr

/-- The text is cut into `ls`, and from these `s` derives `e` up to spans. -/
structure Prints (s : GrammarSymbol) (text : Text) (e : Filter) (ls : List Lexeme) : Prop where
  cuts : Cuts text ls
  ne_nil : ls ≠ []
  opens : Opens text
  derives : ∀ p rest, Stops rest →
    ∃ e', Derives s (tokensAt p ls ++ rest) e' rest ∧ e'.withoutSpans = e.withoutSpans

theorem Prints.weaken {s s' : GrammarSymbol} {text : Text} {e : Filter} {ls : List Lexeme}
    (h : Prints s text e ls) (hs : s.rank ≤ s'.rank) : Prints s' text e ls := by
  refine ⟨h.cuts, h.ne_nil, h.opens, fun p rest hrest => ?_⟩
  obtain ⟨e', he, hspans⟩ := h.derives p rest hrest
  exact ⟨e', he.weaken hs, hspans⟩

/-! ## Operators -/

theorem opens_of_head {c : Char} (r : Text) (hb : Text.isBlank c = false) (hc : c ≠ ':') :
    Opens (c :: r) := ⟨c, r, rfl, hb, hc⟩

/-- A delimiter stops a value. -/
theorem stops_cons {t : Token} (ts : List Token) (h : isDelimiter t = true) : Stops (t :: ts) := by
  intro u hu; cases hu; exact h

/-- A filter in parentheses. -/
theorem Prints.parens {text : Text} {e : Filter} {ls : List Lexeme} (h : Prints orExpr text e ls) :
    Prints atom ('(' :: (text ++ [')'])) e
      (⟨[], .leftParen, ['(']⟩ :: (ls ++ [⟨[], .rightParen, [')']⟩])) := by
  refine ⟨?_, by simp, opens_of_head _ (by decide) (by decide), fun p rest _ => ?_⟩
  · refine firm_leftParen.append (h.cuts.append firm_rightParen.cuts fun u _ => ?_)
    exact separates_rightParen u
  · rw [tokensAt_cons, tokensAt_append, tokensAt_cons, tokensAt_nil, List.cons_append,
      List.append_assoc, List.singleton_append]
    obtain ⟨e', he, hspans⟩ := h.derives _ _ (stops_cons (t := ⟨.rightParen, [')'], _⟩) rest rfl)
    exact ⟨e', .group rfl he rfl, hspans⟩

/-- The word of an operator. -/
theorem cuts_name (op : BoolOp) : Cuts op.name [⟨[], .ident, op.name⟩] := by
  cases op with
  | and => exact cuts_of_rule (c := 'a') (r := ['n', 'd']) rfl rfl
  | or => exact cuts_of_rule (c := 'o') (r := ['r']) rfl rfl

theorem opens_name (op : BoolOp) : Opens op.name := by
  cases op with
  | and => exact opens_of_head (c := 'a') ['n', 'd'] (by decide) (by decide)
  | or => exact opens_of_head (c := 'o') ['r'] (by decide) (by decide)

/-- The symbol on the left of an operator, which is that of the operator itself. -/
def leftSymbol : BoolOp → GrammarSymbol
  | .and => andExpr
  | .or => orExpr

def rightSymbol : BoolOp → GrammarSymbol
  | .and => notExpr
  | .or => andExpr

theorem stops_operator (op : BoolOp) (p : Position) (ts : List Token) :
    Stops (tokensAt p (spaced [⟨[], .ident, op.name⟩]) ++ ts) := by
  rw [spaced, tokensAt_cons, tokensAt_nil, List.singleton_append]
  cases op <;> exact stops_cons _ rfl

/-- Two filters with an operator between them. -/
theorem Prints.binary {lt rt : Text} {l r : Filter} {span : Span} {ls ms : List Lexeme} (op : BoolOp)
    (hl : Prints (leftSymbol op) lt l ls) (hr : Prints (rightSymbol op) rt r ms) :
    Prints (leftSymbol op) (lt ++ ' ' :: op.name ++ ' ' :: rt) (.binary op l r span)
      (ls ++ spaced [⟨[], .ident, op.name⟩] ++ spaced ms) := by
  refine ⟨?_, by simp [hl.ne_nil], (hl.opens.append _).append _, fun p rest hrest => ?_⟩
  · refine (hl.cuts.append ((cuts_name op).spaced (by simp)) fun u _ => ?_).append
      (hr.cuts.spaced hr.ne_nil) fun u _ => ?_
    · exact ((opens_name op).append u).separates
    · exact (hr.opens.append u).separates
  · rw [tokensAt_append, tokensAt_append, tokensAt_spaced _ ms, List.append_assoc, List.append_assoc]
    generalize (placeEnd p (ls ++ spaced [⟨[], .ident, op.name⟩])).next ' ' = q
    obtain ⟨r', hr', hrs⟩ := hr.derives q rest hrest
    obtain ⟨l', hl', hls⟩ := hl.derives p _ (stops_operator op _ _)
    refine ⟨combine op l' r', ?_, by rw [combine, withoutSpans, hls, hrs]; rfl⟩
    cases op with
    | and => exact .and hl' rfl hr'
    | or => exact .or hl' rfl hr'

/-- A negation. -/
theorem Prints.negation {text : Text} {e : Filter} {span : Span} {ls : List Lexeme}
    (h : Prints notExpr text e ls) :
    Prints notExpr ("not ".toList ++ text) (.negation e span)
      (⟨[], .ident, "not".toList⟩ :: spaced ls) := by
  have hnot : Cuts "not".toList [⟨[], .ident, "not".toList⟩] :=
    cuts_of_rule (c := 'n') (r := ['o', 't']) rfl rfl
  refine ⟨?_, by simp, opens_of_head (c := 'n') _ (by decide) (by decide), fun p rest hrest => ?_⟩
  · refine hnot.append (h.cuts.spaced h.ne_nil) fun u _ => ?_
    exact (h.opens.append u).separates
  · rw [tokensAt_cons, tokensAt_spaced]
    obtain ⟨e', he, hspans⟩ := h.derives _ rest hrest
    exact ⟨_, .not rfl he, by rw [withoutSpans, hspans]; rfl⟩

/-! ## Predicates -/

/-- A quotation is a value. -/
theorem isValue_quote (p : Position) (s : Text) (rest : List Token) :
    ∃ span, IsValue (tokensAt p [⟨[], .quoted, s.quote⟩] ++ rest) s span rest := by
  rw [tokensAt_cons, tokensAt_nil, List.singleton_append]
  have := @IsValue.quotation ⟨.quoted, s.quote, ⟨p, p.after s.quote⟩⟩ rest rfl
  rw [Token.value, if_pos rfl, Text.unquote_quote] at this
  exact ⟨_, this⟩

theorem not_delimiter_of_fits {t : Token} (h : fitsFilterValue t = true) :
    isDelimiter t = false ∧ t.kind ≠ .quoted := by
  simp only [fitsFilterValue, isKeyword, Bool.and_eq_true, Bool.not_eq_true', bne_iff_ne,
    Bool.or_eq_false_iff] at h
  obtain ⟨⟨⟨⟨⟨⟨⟨⟨hand, hor⟩, hnot⟩, -⟩, hq⟩, hparen⟩, handOp⟩, horOp⟩, -⟩ := h
  refine ⟨?_, hq⟩
  rw [isDelimiter, beq_false_of_ne hparen, beq_false_of_ne handOp, beq_false_of_ne horOp, hand, hor,
    hnot]
  rfl

theorem closed_of_fits {t : Token} (h : fitsFilterValue t = true) : t.kind.isOpenString = false := by
  simp only [fitsFilterValue, Bool.and_eq_true, Bool.not_eq_true'] at h
  exact h.1.1.1.1.1.2

/-- A run of tokens that fit is a value. -/
theorem isValue_plain {s : Text} {ls : List Lexeme} (h : Plain fitsFilterValue s ls) (p : Position)
    {rest : List Token} (hrest : Stops rest) :
    ∃ span, IsValue (tokensAt p ls ++ rest) s span rest := by
  have hfits : ∀ t ∈ tokensAt p ls, isDelimiter t = false ∧ t.kind ≠ .quoted := by
    intro t ht
    obtain ⟨l, hl, he⟩ := exists_of_mem_tokensAt ht
    have := h.fits l hl
    rw [he] at this
    exact not_delimiter_of_fits this
  have hjoin := ValueRun.join_tokensAt p ls
  rw [h.join] at hjoin
  cases htok : tokensAt p ls with
  | nil => exact absurd (tokensAt_eq_nil.1 htok) h.ne_nil
  | cons t ts =>
    rw [htok] at hfits hjoin
    have := IsValue.run (hfits t (by simp)).2 (fun u hu => (hfits u hu).1) hrest
    rw [hjoin] at this
    exact ⟨_, this⟩

theorem name_mem_words (kind : PredicateKind) : kind.name ∈ Field.words := by
  cases kind <;> decide

theorem ofKey_name (kind : PredicateKind) (text : Text) (span : Span) :
    ofKey (Field.key (kind.name ++ [':'])) text span = .predicate kind text span := by
  have hkey : Field.key ([] ++ kind.name ++ [':']) = Field.unalias kind.name :=
    Field.key_of_word (name_mem_words kind) rfl (by decide)
  rw [List.nil_append] at hkey
  rw [hkey]
  cases kind <;> rfl

theorem opens_kind_name (kind : PredicateKind) : Opens kind.name := by
  cases kind <;> exact ⟨_, _, rfl, by decide, by decide⟩

/-- A field with a value that is not blank. -/
theorem prints_field {kind : PredicateKind} {text vt : Text} {span : Span} {ls : List Lexeme}
    (cuts : Cuts vt ls) (value : ∀ p rest, Stops rest → ∃ span,
      IsValue (tokensAt p ls ++ rest) text span rest)
    (hne : text ≠ []) (htrim : Text.trim text = text) :
    Prints atom (kind.name ++ ':' :: vt) (.predicate kind text span)
      (⟨[], .setField, kind.name ++ [':']⟩ :: ls) := by
  refine ⟨?_, by simp, (opens_kind_name kind).append _, fun p rest hrest => ?_⟩
  · rw [List.append_cons]
    exact (firm_field .set (name_mem_words kind)).append cuts
  · rw [tokensAt_cons]
    obtain ⟨vs, hv⟩ := value _ rest hrest
    refine ⟨_, .field rfl (.intro hv (by rw [htrim]; exact hne)), ?_⟩
    rw [ofKey_name, htrim]; rfl

/-- A quotation by itself. -/
theorem prints_quote (text : Text) (span : Span) :
    Prints atom text.quote (.predicate .text text span) [⟨[], .quoted, text.quote⟩] := by
  refine ⟨(firm_quote text).cuts, by simp, opens_of_head _ (by decide) (by decide),
    fun p rest _ => ?_⟩
  obtain ⟨vs, hv⟩ := isValue_quote p text rest
  exact ⟨_, .text hv rfl, rfl⟩

/-- A word that is no keyword is one token, with nothing around it. -/
theorem cuts_of_isPlainWord {s : Text} (h : isPlainWord s = true) :
    Cuts s [⟨[], .ident, s⟩] ∧ fitsFilterValue ⟨.ident, s, .zero⟩ = true := by
  simp only [isPlainWord, failure_lex, tokens_lex, Bool.and_eq_true] at h
  obtain ⟨hs, h⟩ := h
  have hstuck : (cut .root s).stuck = none := Option.isNone_iff_eq_none.1 hs
  have htext := text_cut s
  split at h
  · next t htok =>
    simp only [Bool.and_eq_true, beq_iff_eq] at h
    obtain ⟨⟨hk, ht⟩, hfits⟩ := h
    cases hls : (cut .root s).lexemes with
    | nil => rw [hls] at htok; cases htok
    | cons l ls =>
      rw [hls, tokensAt_cons, List.cons.injEq] at htok
      obtain ⟨rfl, hnil⟩ := htok
      rw [tokensAt_eq_nil.1 hnil] at hls
      obtain ⟨gap, kind, text⟩ := l
      obtain rfl : kind = .ident := hk
      obtain rfl : text = s := ht
      have hlen := congrArg List.length htext
      rw [hls] at hlen
      simp only [Lexeme.textOf_cons, Lexeme.textOf_nil, List.length_append, List.length_nil] at hlen
      obtain rfl : gap = [] := List.eq_nil_of_length_eq_zero (by omega)
      have htail : (cut .root text).tail = [] := List.eq_nil_of_length_eq_zero (by omega)
      have hcuts := cuts_of_cut hstuck (by rw [hls]; simp; rfl) htail
      rw [hls] at hcuts
      exact ⟨hcuts, hfits⟩
  · cases h

/-- A word by itself. -/
theorem prints_word {text : Text} (span : Span) (h : isPlainWord text = true) :
    Prints atom text (.predicate .text text span) [⟨[], .ident, text⟩] := by
  obtain ⟨hcuts, hfits⟩ := cuts_of_isPlainWord h
  have hsolid : Solid .ident text := (hcuts.shape (List.mem_singleton_self _)).solid rfl
  refine ⟨hcuts, by simp, hsolid.opens, fun p rest hrest => ?_⟩
  have hjoin : ValueRun.join [(⟨.ident, text, .zero⟩ : Token)] = text := by
    rw [ValueRun.join_singleton (by simp), (Text.trimmed_of_not_blank hsolid.not_blank).trim_eq]
  have hplain : Plain fitsFilterValue text [⟨[], .ident, text⟩] := by
    refine ⟨hcuts, by simp, fun l hl => ?_, hjoin⟩
    rw [List.mem_singleton.1 hl]; exact hfits
  obtain ⟨vs, hv⟩ := isValue_plain hplain p hrest
  exact ⟨_, .text hv rfl, rfl⟩

/-- What a field predicate needs to be read back: a text without blanks around it. -/
def HasText (q : PredicateKind × Text) : Prop := q.1 ≠ .text → q.2 ≠ [] ∧ Text.trim q.2 = q.2

theorem exists_prints_predicate {kind : PredicateKind} {text : Text} (span : Span)
    (h : HasText (kind, text)) :
    ∃ ls, Prints atom (predicateText kind text) (.predicate kind text span) ls := by
  unfold predicateText
  by_cases hk : kind = .text
  · rw [if_pos hk, hk]
    split
    · next hw => exact ⟨_, prints_word span hw⟩
    · exact ⟨_, prints_quote text span⟩
  · obtain ⟨hne, htrim⟩ := h hk
    rw [if_neg hk]
    split
    · next hp =>
      obtain ⟨ls, hls⟩ := plain_of_isPlainRun (fun _ => rfl) (fun _ => closed_of_fits) hp
      exact ⟨_, prints_field hls.cuts (fun p rest => isValue_plain hls p) hne htrim⟩
    · exact ⟨_, prints_field (firm_quote text).cuts (fun p rest _ => isValue_quote p text rest) hne
        htrim⟩

/-! ## Filters -/

theorem slot_left (op : BoolOp) : slot op.level false = leftSymbol op := by cases op <;> rfl

theorem slot_right (op : BoolOp) : slot op.level true = rightSymbol op := by cases op <;> rfl

theorem rank_leftSymbol_le {op : BoolOp} {outer : Nat} {onRight : Bool}
    (h : needsParens op.level outer onRight = false) :
    (leftSymbol op).rank ≤ (slot outer onRight).rank := by
  have hle : outer + onRight.toNat ≤ op.level := by
    simp only [needsParens, Bool.or_eq_false_iff, decide_eq_false_iff_not, Bool.and_eq_false_iff,
      beq_eq_false_iff_ne] at h
    have hlevel : op.level < negationLevel := by cases op <;> decide
    obtain ⟨h1, h2⟩ := h
    cases onRight with
    | false => simp only [Bool.toNat_false]; omega
    | true =>
      have : op.level ≠ outer := by
        rcases h2 with (h2 | h2) | h2
        · cases h2
        · exact h2
        · exact absurd hlevel h2
      simp only [Bool.toNat_true]; omega
  cases op with
  | or =>
    have hor : outer + onRight.toNat ≤ 1 := hle
    rw [slot, if_pos hor]; exact Nat.le_refl _
  | and =>
    have hand : outer + onRight.toNat ≤ 2 := hle
    rw [slot, if_pos hand]
    split
    · exact Nat.le_succ _
    · exact Nat.le_refl _

theorem rank_notExpr_le (outer : Nat) (onRight : Bool) : notExpr.rank ≤ (slot outer onRight).rank := by
  unfold slot
  split_ifs <;> decide

theorem exists_prints_parenthesized {s : GrammarSymbol} {own outer : Nat} {onRight : Bool}
    {body : Text} {e : Filter} {ls : List Lexeme} (h : Prints s body e ls)
    (hs : needsParens own outer onRight = false → s.rank ≤ (slot outer onRight).rank) :
    ∃ ms, Prints (slot outer onRight) (parenthesized (needsParens own outer onRight) body) e ms := by
  unfold parenthesized
  split
  · exact ⟨_, (h.weaken (by cases s <;> simp [GrammarSymbol.rank])).parens.weaken (Nat.zero_le _)⟩
  · next hn => exact ⟨ls, h.weaken (hs (by simpa using hn))⟩

/-- The canonical form of a filter inside one of any level prints as the symbol that may stand
there. -/
theorem exists_prints_canonicalIn (e : Filter) (h : ∀ q ∈ e.predicates, HasText q) :
    ∀ outer onRight, ∃ ls, Prints (slot outer onRight) (e.canonicalIn outer onRight) e ls := by
  induction e with
  | binary op l r span ihl ihr =>
    intro outer onRight
    obtain ⟨ls, hls⟩ := ihl (fun q hq => h q (by simp [predicates, hq])) op.level false
    obtain ⟨ms, hms⟩ := ihr (fun q hq => h q (by simp [predicates, hq])) op.level true
    rw [slot_left] at hls
    rw [slot_right] at hms
    exact exists_prints_parenthesized (hls.binary op hms) rank_leftSymbol_le
  | negation e span ih =>
    intro outer onRight
    obtain ⟨ls, hls⟩ := ih h negationLevel false
    exact exists_prints_parenthesized (Prints.negation hls) fun _ => rank_notExpr_le _ _
  | predicate kind text span =>
    intro outer onRight
    obtain ⟨ls, hls⟩ := exists_prints_predicate span (h (kind, text) (by simp [predicates]))
    exact ⟨ls, hls.weaken (Nat.zero_le _)⟩

/-! ## Lines -/

/-- The canonical form after its verb is read as the filter, up to spans. -/
theorem commandOf_canonical (e : Filter) (h : ∀ q ∈ e.predicates, HasText q) :
    ∃ e' span, Reading.commandOf .auto (Intent.filter.verb ++ ' ' :: e.canonical)
      = .ok (.filter e' span) ∧ e'.withoutSpans = e.withoutSpans := by
  obtain ⟨ls, hls⟩ := exists_prints_canonicalIn e h 0 false
  have hcuts := hls.cuts.spaced hls.ne_nil
  have hcut : cut .root (Intent.filter.verb ++ ' ' :: e.canonical)
      = ⟨verbLexeme .filter :: spaced ls, none, []⟩ :=
    cut_line hcuts (Or.inr ⟨_, rfl, fun h => by cases h⟩)
  obtain ⟨eof, whole, hread⟩ := commandOf_verb hcut hcuts.closed
  obtain ⟨e', he, hspans⟩ := hls.derives ((Position.origin.after Intent.filter.verb).next ' ') []
    fun _ h => by cases h
  rw [List.append_nil, ← tokensAt_spaced] at he
  exact ⟨e', _, hread _ (.filter he), hspans⟩

/-- The canonical form of a filter reads back as that filter: for every tree whose field predicates
have a text without blanks around it, the line `find` with its canonical form is read without a
mistake, as a filter equal to it up to spans. -/
theorem reads_back (e : Filter) (h : ∀ q ∈ e.predicates, q.1 ≠ .text → q.2 ≠ [] ∧ Text.trim q.2 = q.2)
    (now : Timestamp) :
    ∃ e' span, Reading.ofLine .auto now ("find ".toList ++ e.canonical)
        = (⟨some .filter, some (.filter e' span), [], now⟩, none) ∧ e'.withoutSpans = e.withoutSpans := by
  obtain ⟨e', span, hread, hspans⟩ := commandOf_canonical e h
  exact ⟨e', span, ofLine_of_commandOf hread rfl now, hspans⟩

/-- `find not (due:next week or "")`, a tree with a group, a run and an empty text. -/
theorem reads_back_group :
    let now : Timestamp := ⟨⟨2025, 3, 9, by decide, by decide, by decide, by decide⟩, 12, 0, 0, 0, 0⟩
    let e := negation (binary .or (predicate .due "next week".toList .zero)
      (predicate .text [] .zero) .zero) .zero
    (∀ q ∈ e.predicates, q.1 ≠ .text → q.2 ≠ [] ∧ Text.trim q.2 = q.2) ∧
      ∃ e' span, Reading.ofLine .auto now ("find ".toList ++ e.canonical)
        = (⟨some .filter, some (.filter e' span), [], now⟩, none) ∧ e'.withoutSpans = e.withoutSpans := by
  intro now e
  have h : ∀ q ∈ e.predicates, q.1 ≠ .text → q.2 ≠ [] ∧ Text.trim q.2 = q.2 := by decide
  exact ⟨h, reads_back e h now⟩

end Agenda.Filter
