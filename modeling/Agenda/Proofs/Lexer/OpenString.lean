import Agenda.Proofs.Lexer.Shape
import Agenda.Proofs.Lexer.Tiling
import Mathlib.Data.List.Chain
import Mathlib.Data.List.DropRight
/-!
# Quotes that are never closed

Whether a quote closes depends on the backslashes right before it: it does when their number is even. A quote
outside strings after which none closes (`StaysOpen`) begins an open string, and everything after it belongs
to that string: it is cut into plain text, escapes and, at the very end, a lone backslash, without a gap and
without a failure. So an open string never ends, and there is one at most.

The look ahead for a closing quote and the rule inside an open string read backslashes each in its own way.
That they agree is the invariant here: no quote closes after any step in an open string
(`step_string_of_staysOpen`).

Results: `closingQuote?_eq_none_iff`; `isOpenRun_cut` for a run in an open string; `emits_iff` for when there
is one; `open_quote_takes_all_the_rest`.
-/
namespace Agenda.Lexer

open Text (isBlank)

/-! ## Quotes that close -/

def slashesAtEnd (s : Text) : Nat := (s.rtakeWhile (· == '\\')).length

/-- No quote in the text closes: the number of backslashes before each is odd. -/
def StaysOpen (r : Text) : Prop := ∀ a b, r = a ++ '"' :: b → slashesAtEnd a % 2 = 1

theorem slashesAtEnd_cons (c : Char) (a : Text) :
    slashesAtEnd (c :: a)
      = if c = '\\' ∧ slashesAtEnd a = a.length then a.length + 1 else slashesAtEnd a := by
  simp only [slashesAtEnd, List.rtakeWhile, List.length_reverse, List.reverse_cons, List.takeWhile_append]
  by_cases hc : c = '\\'
  · simp only [hc]
    split <;> simp_all
  · simp only [hc]
    split <;> simp_all

/-- A backslash with the character after it in front changes the number by two or not at all. -/
theorem slashesAtEnd_pair (c : Char) (a : Text) :
    slashesAtEnd ('\\' :: c :: a) % 2 = slashesAtEnd a % 2 := by
  have hle : slashesAtEnd a ≤ a.length := (List.rtakeWhile_suffix _ _).length_le
  by_cases h : c = '\\' ∧ slashesAtEnd a = a.length
  · have hc : slashesAtEnd (c :: a) = a.length + 1 := by rw [slashesAtEnd_cons, if_pos h]
    rw [slashesAtEnd_cons, hc, List.length_cons, if_pos ⟨rfl, rfl⟩, h.2]
    omega
  · have hc : slashesAtEnd (c :: a) = slashesAtEnd a := by rw [slashesAtEnd_cons, if_neg h]
    rw [slashesAtEnd_cons, hc, List.length_cons, if_neg (by omega)]

theorem staysOpen_nil : StaysOpen [] := by
  intro a b h
  cases a <;> cases h

theorem not_staysOpen_quote (r : Text) : ¬ StaysOpen ('"' :: r) := fun h => by
  have := h [] r rfl
  cases this

theorem staysOpen_cons_iff {c : Char} (hc : isPlain c = true) {r : Text} :
    StaysOpen (c :: r) ↔ StaysOpen r := by
  obtain ⟨hquote, hslash⟩ : c ≠ '"' ∧ c ≠ '\\' := by simpa [isPlain] using hc
  have hcount (a : Text) : slashesAtEnd (c :: a) = slashesAtEnd a := by
    rw [slashesAtEnd_cons, if_neg (fun h => hslash h.1)]
  constructor
  · rintro h a b rfl
    rw [← hcount]
    exact h (c :: a) b rfl
  · intro h a b hab
    cases a with
    | nil => cases hab; exact absurd rfl hquote
    | cons d a =>
      cases hab
      rw [hcount]
      exact h a b rfl

theorem staysOpen_backslash : StaysOpen ['\\'] := by
  intro a b h
  match a, h with
  | [_], h => cases h
  | _ :: _ :: _, h => cases h

theorem staysOpen_pair_iff {c : Char} {r : Text} : StaysOpen ('\\' :: c :: r) ↔ StaysOpen r := by
  constructor
  · rintro h a b rfl
    rw [← slashesAtEnd_pair c]
    exact h ('\\' :: c :: a) b rfl
  · intro h a b hab
    rcases a with _ | ⟨d, _ | ⟨e, a⟩⟩
    · cases hab
    · cases hab
      decide
    · cases hab
      rw [slashesAtEnd_pair]
      exact h a b rfl

/-- No quote is found to close just when none does. -/
theorem closingQuote?_eq_none_iff {r : Text} : closingQuote? r = none ↔ StaysOpen r := by
  induction r using closingQuote?.induct with
  | case1 => exact iff_of_true rfl staysOpen_nil
  | case2 r =>
    rw [closingQuote?_quote]
    exact iff_of_false (by simp) (not_staysOpen_quote r)
  | case3 => exact iff_of_true rfl staysOpen_backslash
  | case4 c r _ ih => rw [closingQuote?_backslash, Option.map_eq_none_iff, ih, staysOpen_pair_iff]
  | case5 c r hquote hslash ih =>
    have hplain : isPlain c = true := by simp [isPlain, hquote, hslash]
    rw [closingQuote?_cons hplain, Option.map_eq_none_iff, ih, staysOpen_cons_iff hplain]

/-! ## In an open string -/

/-- A kind of token that an open string is made of after its quote. -/
def isStringPart : TokenKind → Bool
  | .stringText | .stringEscape | .stringBackslash => true
  | _ => false

theorem staysOpen_dropWhile {r : Text} (h : StaysOpen r) : StaysOpen (r.dropWhile isPlain) := by
  induction r with
  | nil => exact h
  | cons c r ih =>
    rw [List.dropWhile_cons]
    split
    · next hc => exact ih ((staysOpen_cons_iff hc).1 h)
    · exact h

/-- A step where no quote closes takes a part of the string, from where it stands; no quote closes after it,
and nothing comes after a lone backslash. -/
theorem step_string_of_staysOpen {s gap text rest : Text} {kind : TokenKind} {next : State}
    (hs : StaysOpen s) (h : step .string s = .take gap kind text rest next) :
    gap = [] ∧ isStringPart kind = true ∧ next = .string ∧ StaysOpen rest ∧
      (kind = .stringBackslash → rest = []) := by
  match s, h with
  | c :: r, h =>
    have hquote : c ≠ '"' := by
      rintro rfl
      exact not_staysOpen_quote r hs
    by_cases hslash : c = '\\'
    · subst hslash
      match r, h with
      | [], h =>
        cases h
        exact ⟨rfl, rfl, rfl, staysOpen_nil, fun _ => rfl⟩
      | d :: r, h =>
        cases h
        exact ⟨rfl, rfl, rfl, staysOpen_pair_iff.1 hs, fun h => by cases h⟩
    · have hplain : isPlain c = true := by simp [isPlain, hquote, hslash]
      simp only [step, stringRule, if_neg hquote, if_neg hslash] at h
      cases h
      refine ⟨rfl, rfl, rfl, ?_, fun h => by cases h⟩
      rw [drop_length_takeWhile]
      exact staysOpen_dropWhile ((staysOpen_cons_iff hplain).1 hs)

/-- Lexemes of an open string: no gaps, and a lone backslash only at the end. -/
structure IsOpenRun (ls : List Lexeme) : Prop where
  gap : ∀ l ∈ ls, l.gap = []
  part : ∀ l ∈ ls, isStringPart l.kind = true
  backslash_last : ∀ l ∈ ls.dropLast, l.kind ≠ .stringBackslash

theorem isOpenRun_nil : IsOpenRun [] := ⟨by simp, by simp, by simp⟩

theorem IsOpenRun.cons {l : Lexeme} {ls : List Lexeme} (h : IsOpenRun ls) (hgap : l.gap = [])
    (hpart : isStringPart l.kind = true) (hlast : l.kind = .stringBackslash → ls = []) :
    IsOpenRun (l :: ls) := by
  refine ⟨List.forall_mem_cons.2 ⟨hgap, h.gap⟩, List.forall_mem_cons.2 ⟨hpart, h.part⟩, ?_⟩
  cases ls with
  | nil => simp
  | cons m ms =>
    rw [List.dropLast_cons_cons]
    exact List.forall_mem_cons.2 ⟨fun hk => (by cases hlast hk), h.backslash_last⟩

/-- Where no quote closes all of a text is cut into an open string. -/
theorem isOpenRun_cut {s : Text} (hs : StaysOpen s) :
    IsOpenRun (cut .string s).lexemes ∧ (cut .string s).stuck = none ∧ (cut .string s).tail = [] := by
  generalize hst : State.string = st
  induction st, s using cut.induct with
  | case1 st s h =>
    subst hst
    rw [cut_of_done h]
    cases s with
    | nil => exact ⟨isOpenRun_nil, rfl, rfl⟩
    | cons c r => cases h
  | case2 st s gap c h =>
    subst hst
    cases s <;> cases h
  | case3 st s gap kind text rest next h ih =>
    subst hst
    obtain ⟨hgap, hpart, rfl, hrest, hlast⟩ := step_string_of_staysOpen hs h
    obtain ⟨hrun, hstuck, htail⟩ := ih hrest rfl
    rw [cut_of_take h]
    refine ⟨hrun.cons hgap hpart fun hk => ?_, hstuck, htail⟩
    rw [hlast hk, cut_nil]
    rfl

/-! ## The quote that opens it -/

/-- Only the rule for a quote makes a quotation or opens a string. -/
theorem not_string_of_rule {c : Char} {r : Text} {out : TokenKind × Nat} (h : rootRule c r = some out)
    (hc : c ≠ '"') : out.1 ≠ .quoted ∧ out.1.isOpenString = false := by
  cases applies_of_rootRule h with
  | quote => exact absurd rfl hc
  | hash =>
    unfold hashRule
    repeat' split
    all_goals exact ⟨by simp, rfl⟩
  | context =>
    unfold atRule
    repeat' split
    all_goals exact ⟨by simp, rfl⟩
  | plus | minus =>
    unfold signRule
    split <;> exact ⟨by simp, rfl⟩
  | bang =>
    unfold bangRule
    split <;> exact ⟨by simp, rfl⟩
  | ampersand hr | bar hr =>
    unfold doubledRule at hr
    split at hr <;> cases hr
    exact ⟨by simp, rfl⟩
  | word =>
    unfold wordRule
    split <;> exact ⟨by simp, rfl⟩
  | _ => exact ⟨by simp, rfl⟩

/-- Outside strings the rules make no token of an open string but a quote that stays open. -/
theorem open_or_closed_of_rule {c : Char} {r : Text} {out : TokenKind × Nat} (h : rootRule c r = some out) :
    (c = '"' ∧ out = (.quoteStart, 0) ∧ StaysOpen r) ∨ out.1.isOpenString = false := by
  by_cases hc : c = '"'
  · subst hc
    cases Option.some.inj h
    unfold quoteRule
    split
    · exact Or.inr rfl
    · next hnone => exact Or.inl ⟨rfl, rfl, closingQuote?_eq_none_iff.1 hnone⟩
  · exact Or.inr (not_string_of_rule h hc).2

/-- A step outside strings begins an open string at a quote that stays open, and stays outside otherwise. -/
theorem step_root_cases {s gap text rest : Text} {kind : TokenKind} {next : State}
    (h : step .root s = .take gap kind text rest next) :
    (kind = .quoteStart ∧ next = .string ∧ s.dropWhile isBlank = '"' :: rest ∧ StaysOpen rest) ∨
      (kind.isOpenString = false ∧ next = .root ∧
        ∀ r, s.dropWhile isBlank = '"' :: r → ¬ StaysOpen r) := by
  obtain ⟨c, r, n, hs, hrule, -, -, rfl, rfl⟩ := rule_of_step_root h
  rcases open_or_closed_of_rule hrule with ⟨rfl, hout, hopen⟩ | hclosed
  · cases hout
    exact Or.inl ⟨rfl, rfl, hs, hopen⟩
  · have hk : kind ≠ .quoteStart := ne_quoteStart_of_closed hclosed
    refine Or.inr ⟨hclosed, after_root hk, fun r' hr' hopen => hk ?_⟩
    rw [hs] at hr'
    cases hr'
    have hquote : quoteRule r = (kind, n) := Option.some.inj hrule
    rw [quoteRule, closingQuote?_eq_none_iff.2 hopen] at hquote
    exact (congrArg Prod.fst hquote).symm

/-! ## The whole text -/

/-- In a cut from outside strings everything before an open quote is closed, and everything after it is an
open string to the end. -/
theorem cut_open {s : Text} {front after : List Lexeme} {q : Lexeme}
    (hs : (cut .root s).lexemes = front ++ q :: after) (hq : q.kind = .quoteStart) :
    (∀ l ∈ front, l.kind.isOpenString = false) ∧ IsOpenRun after ∧ (cut .root s).stuck = none ∧
      (cut .root s).tail = [] := by
  generalize hst : State.root = st at hs ⊢
  induction st, s using cut.induct generalizing front with
  | case1 st s h => rw [cut_of_done h] at hs; simp at hs
  | case2 st s gap c h => rw [cut_of_stuck h] at hs; simp at hs
  | case3 st s gap kind text rest next h ih =>
    subst hst
    rw [cut_of_take h] at hs ⊢
    rw [Cut.lexemes_prepend, List.singleton_append] at hs
    rcases step_root_cases h with ⟨rfl, rfl, -, hopen⟩ | ⟨hclosed, rfl, -⟩
    · obtain ⟨hrun, hend⟩ := isOpenRun_cut hopen
      cases front with
      | nil => cases hs; exact ⟨by simp, hrun, hend⟩
      | cons l front =>
        -- a second quote would be a part of the first one's string
        have hmem : q ∈ (cut .string rest).lexemes := by
          rw [(List.cons.inj hs).2]
          simp
        have hpart := hrun.part q hmem
        rw [hq] at hpart
        cases hpart
    · cases front with
      | nil =>
        cases hs
        rw [show kind = .quoteStart from hq] at hclosed
        cases hclosed
      | cons l front =>
        obtain ⟨hl, hrest⟩ := List.cons.inj hs
        obtain ⟨hfront, hend⟩ := ih rfl hrest
        exact ⟨List.forall_mem_cons.2 ⟨hl ▸ hclosed, hfront⟩, hend⟩

/-- Without an open quote there is nothing of an open string. -/
theorem closed_of_no_quote {s : Text} (hs : ∀ l ∈ (cut .root s).lexemes, l.kind ≠ .quoteStart) :
    ∀ l ∈ (cut .root s).lexemes, l.kind.isOpenString = false := by
  generalize hst : State.root = st at hs ⊢
  induction st, s using cut.induct with
  | case1 st s h => rw [cut_of_done h]; simp
  | case2 st s gap c h => rw [cut_of_stuck h]; simp
  | case3 st s gap kind text rest next h ih =>
    subst hst
    rw [cut_of_take h, Cut.lexemes_prepend, List.singleton_append] at hs ⊢
    obtain ⟨hkind, hrest⟩ := List.forall_mem_cons.1 hs
    rcases step_root_cases h with ⟨rfl, -⟩ | ⟨hclosed, rfl, -⟩
    · exact absurd rfl hkind
    · exact List.forall_mem_cons.2 ⟨hclosed, ih rfl hrest⟩

/-- A string that is open never ends. -/
theorem quoteEnd_not_in_cut {s : Text} : ∀ l ∈ (cut .root s).lexemes, l.kind ≠ .quoteEnd := by
  intro l hl hend
  by_cases hquote : ∃ q ∈ (cut .root s).lexemes, q.kind = .quoteStart
  · obtain ⟨q, hq, hkind⟩ := hquote
    obtain ⟨front, after, hs⟩ := List.append_of_mem hq
    obtain ⟨hfront, hrun, -⟩ := cut_open hs hkind
    rw [hs] at hl
    rcases List.mem_append.1 hl with hl | hl
    · have hclosed := hfront l hl
      rw [hend] at hclosed
      cases hclosed
    · rcases List.mem_cons.1 hl with rfl | hl
      · rw [hend] at hkind
        cases hkind
      · have hpart := hrun.part l hl
        rw [hend] at hpart
        cases hpart
  · have hclosed := closed_of_no_quote (fun m hm hk => hquote ⟨m, hm, hk⟩) l hl
    rw [hend] at hclosed
    cases hclosed

/-- The lexer, as it goes on, comes to a quote outside strings after which `r` is left. -/
inductive ReachesQuote (r : Text) : Lexer → Prop
  | here {l : Lexer} (outside : l.state = .root) (going : l.failed = false)
      (quote : l.rest.dropWhile isBlank = '"' :: r) : ReachesQuote r l
  | later {l : Lexer} (h : ReachesQuote r l.next.2) : ReachesQuote r l

/-- A lexer that is at its end, and at no quote, comes to none. -/
theorem not_reachesQuote_of_stopped {r : Text} {l : Lexer} (hstop : l.next.2 = l)
    (hhere : l.failed = true ∨ l.rest.dropWhile isBlank = []) : ¬ ReachesQuote r l := by
  intro h
  induction h with
  | here _ going quote => rcases hhere with h | h <;> simp_all
  | later _ ih => exact ih (by rw [hstop, hstop]) (by rwa [hstop])

theorem next_of_take {l : Lexer} {gap text rest : Text} {kind : TokenKind} {next : State}
    (hl : l.failed = false) (h : step l.state l.rest = .take gap kind text rest next) :
    l.next.2 = ⟨next, (l.position.after gap).after text, rest, false⟩ := by
  simp only [Lexer.next, hl, h]
  rfl

/-- There is an open quote just when the lexer comes to one outside strings that nothing closes. -/
theorem emits_iff (p : Position) (s : Text) :
    (∃ l ∈ (cut .root s).lexemes, l.kind = .quoteStart)
      ↔ ∃ r, ReachesQuote r ⟨.root, p, s, false⟩ ∧ StaysOpen r := by
  generalize hst : State.root = st
  induction st, s using cut.induct generalizing p with
  | case1 st s h =>
    subst hst
    rw [cut_of_done h]
    refine iff_of_false (by simp) ?_
    rintro ⟨r, hr, -⟩
    refine not_reachesQuote_of_stopped ?_ (Or.inr ?_) hr
    · simp [Lexer.next, h]
    · exact List.dropWhile_eq_nil_iff.2 (blank_of_step_done h)
  | case2 st s gap c h =>
    subst hst
    rw [cut_of_stuck h]
    refine iff_of_false (by simp) ?_
    rintro ⟨r, hr, -⟩
    cases hr with
    | here _ _ quote =>
      simp only [step, quote] at h
      cases h
    | later hr =>
      refine not_reachesQuote_of_stopped ?_ (Or.inl ?_) hr <;> simp [Lexer.next, h]
  | case3 st s gap kind text rest next h ih =>
    subst hst
    rw [cut_of_take h]
    have hnext := next_of_take (l := ⟨.root, p, s, false⟩) rfl h
    rcases step_root_cases h with ⟨rfl, rfl, hquote, hopen⟩ | ⟨hclosed, rfl, hshut⟩
    · exact iff_of_true ⟨_, List.mem_cons_self, rfl⟩ ⟨rest, .here rfl rfl hquote, hopen⟩
    · have hkind : kind ≠ .quoteStart := ne_quoteStart_of_closed hclosed
      rw [Cut.lexemes_prepend, List.singleton_append, List.exists_mem_cons_iff, or_iff_right hkind, ih _ rfl,
        ← hnext]
      refine exists_congr fun r => and_congr_left fun hr => ⟨.later, fun h => ?_⟩
      cases h with
      | here _ _ quote => exact absurd hr (hshut r quote)
      | later h => exact h

/-! ## Tokens in their places -/

/-- The lexemes of a list of tokens, from the one for a given token on. -/
theorem exists_of_tokensAt_eq_append {p : Position} {ls : List Lexeme} {front ts : List Token} {q : Token}
    (h : tokensAt p ls = front ++ q :: ts) :
    ∃ before l after, ls = before ++ l :: after ∧ front = tokensAt p before ∧
      q :: ts = tokensAt (placeEnd p before) (l :: after) := by
  induction front generalizing p ls with
  | nil =>
    cases ls with
    | nil => cases h
    | cons l ls => exact ⟨[], l, ls, rfl, rfl, h.symm⟩
  | cons t front ih =>
    cases ls with
    | nil => cases h
    | cons l ls =>
      obtain ⟨ht, hrest⟩ := List.cons.inj h
      obtain ⟨before, m, after, rfl, rfl, hq⟩ := ih hrest
      exact ⟨l :: before, m, after, rfl, by rw [tokensAt_cons, ← ht], hq⟩

/-- Tokens without gaps between them touch, each the next. -/
theorem isChain_touches {l : Lexeme} {ls : List Lexeme} (h : ∀ m ∈ ls, m.gap = []) (p : Position) :
    (tokensAt p (l :: ls)).IsChain fun t u => t.touches u = true := by
  induction ls generalizing p l with
  | nil => exact .singleton _
  | cons m ls ih =>
    obtain ⟨hm, hls⟩ := List.forall_mem_cons.1 h
    rw [tokensAt_cons]
    refine List.isChain_cons.2 ⟨fun u hu => ?_, ih hls _⟩
    exact (touches_iff rfl hu).2 hm

theorem textOf_of_no_gap {ls : List Lexeme} (h : ∀ l ∈ ls, l.gap = []) :
    Lexeme.textOf ls = (ls.map Lexeme.text).flatten := by
  rw [Lexeme.textOf, List.map_congr_left fun l hl => by rw [h l hl, List.nil_append]]

/-- The tokens `q :: ts` of `s` are a quote and the open string after it, up to the end of `s`. -/
structure OpensString (s : Text) (q : Token) (ts : List Token) : Prop where
  parts : ∀ t ∈ ts, isStringPart t.kind = true
  no_gap : (q :: ts).IsChain fun t u => t.touches u = true
  takes_rest : q.span.start.rest? s = some ((q :: ts).map Token.text).flatten
  backslash_last : ∀ t ∈ ts.dropLast, t.kind ≠ .stringBackslash

/-- An open string of lexemes, in its place. -/
theorem IsOpenRun.opensString {s : Text} {before after : List Lexeme} {l : Lexeme} (h : IsOpenRun after)
    (hs : Lexeme.textOf (before ++ l :: after) = s) {q : Token} {ts : List Token}
    (hq : q :: ts = tokensAt (placeEnd .origin before) (l :: after)) : OpensString s q ts := by
  have hstart : q.span.start = Position.origin.after (Lexeme.textOf before ++ l.gap) := by
    rw [tokensAt_cons] at hq
    rw [(List.cons.inj hq).1, placeEnd_eq, Position.after_append]
  have htext : ((q :: ts).map Token.text).flatten = l.text ++ Lexeme.textOf after := by
    rw [hq, map_text_tokensAt, List.map_cons, List.flatten_cons, textOf_of_no_gap h.gap]
  have hts : ts.map Token.unplaced = after.map Lexeme.token := by
    have hall := unplaced_tokensAt (placeEnd .origin before) (l :: after)
    rw [← hq] at hall
    exact (List.cons.inj hall).2
  refine ⟨fun t ht => ?_, hq ▸ isChain_touches h.gap _, ?_, fun t ht => ?_⟩
  · obtain ⟨m, hm, he⟩ := List.mem_map.1 (hts ▸ List.mem_map_of_mem ht)
    rw [← t.kind_unplaced, ← he]
    exact h.part m hm
  · rw [hstart, htext, ← hs, Lexeme.textOf_append, Lexeme.textOf_cons, ← List.append_assoc,
      Position.rest?_append]
  · have hlast := List.mem_map_of_mem (f := Token.unplaced) ht
    rw [List.map_dropLast, hts, ← List.map_dropLast] at hlast
    obtain ⟨m, hm, he⟩ := List.mem_map.1 hlast
    rw [← t.kind_unplaced, ← he]
    exact h.backslash_last m hm

/-- A quote that nothing closes takes all the rest, and nothing else begins an open string. -/
theorem open_quote_takes_all_the_rest (s : Text) :
    ((∃ t ∈ (lex s).tokens, t.kind = .quoteStart) ↔ ∃ r, ReachesQuote r (start s) ∧ StaysOpen r) ∧
    (∀ front q ts, (lex s).tokens = front ++ q :: ts → q.kind = .quoteStart →
      (∀ t ∈ front, t.kind.isOpenString = false) ∧ OpensString s q ts ∧ (lex s).failure = none) ∧
    (∀ t ∈ (lex s).tokens, t.kind ≠ .quoteEnd) ∧
    ((∀ t ∈ (lex s).tokens, t.kind ≠ .quoteStart) →
      ∀ t ∈ (lex s).tokens, t.kind.isOpenString = false) := by
  have hkinds : (lex s).tokens.map Token.kind = (cut .root s).lexemes.map Lexeme.kind := by
    rw [tokens_lex, map_kind_tokensAt]
  have hall (P : TokenKind → Prop) :
      (∀ t ∈ (lex s).tokens, P t.kind) ↔ ∀ l ∈ (cut .root s).lexemes, P l.kind := by
    rw [← List.forall_mem_map, hkinds, List.forall_mem_map]
  refine ⟨?_, fun front q ts hs hq => ?_, ?_, fun h => ?_⟩
  · rw [← List.mem_map, hkinds, List.mem_map]
    exact emits_iff .origin s
  · rw [tokens_lex] at hs
    obtain ⟨before, l, after, hls, rfl, hts⟩ := exists_of_tokensAt_eq_append hs
    have hl : l.kind = .quoteStart := by
      rw [← hq, (List.cons.inj (hts.trans (tokensAt_cons ..))).1]
    obtain ⟨hbefore, hrun, hstuck, htail⟩ := cut_open hls hl
    have htext : Lexeme.textOf (before ++ l :: after) = s := by
      rw [← hls]
      simpa only [htail, List.append_nil] using text_cut s
    refine ⟨fun t ht => ?_, hrun.opensString htext hts, ?_⟩
    · obtain ⟨m, hm, he⟩ := exists_of_mem_tokensAt ht
      rw [← t.kind_unplaced, ← he]
      exact hbefore m hm
    · rw [← Option.isNone_iff_eq_none, failure_lex, hstuck]
      rfl
  · exact (hall (· ≠ .quoteEnd)).2 quoteEnd_not_in_cut
  · exact (hall (·.isOpenString = false)).2 (closed_of_no_quote ((hall (· ≠ .quoteStart)).1 h))

/-- The backslash before the second quote is itself escaped in the first text only. -/
example : (lex "a \"b\\\\\"".toList).tokens.map Token.kind = [.ident, .quoted] ∧
    (lex "a \"b\\\"".toList).tokens.map Token.kind
      = [.ident, .quoteStart, .stringText, .stringEscape] := by
  decide +kernel

end Agenda.Lexer
