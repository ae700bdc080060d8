import Agenda.Op.Parser
import Agenda.Proofs.Canonical.Run
/-!
# The canonical form of a value reads back

What a run of lexemes is read as depends on what follows them: nothing, or an operation with a gap
before it (`Follows`). Then the run goes exactly up to there (`splitValue_tokensAt`), and a value in
its canonical form is read as a value with the same text (`exists_readValue_value`). Whether it is a
quotation again depends on the form it got: `Value.reread` says so.
-/
namespace Agenda

namespace Canonical

/-- The value can stand without quotes around all of it. -/
def standsBare (raw : Text) : Bool :=
  isPlainRun fitsOpValue raw || readsBackAs raw (requoted raw)

end Canonical

/-- The value as it is read back from its canonical form: one that cannot stand bare comes back as a
quotation. -/
def Value.reread (v : Value) : Value := { v with quoted := v.quoted || !Canonical.standsBare v.raw }

namespace Canonical

open Lexer

/-! ## What follows a run -/

/-- Nothing comes, or an operation that a gap sets off. -/
def Follows (ms : List Lexeme) : Prop :=
  ∀ m, ms.head? = some m → m.gap ≠ [] ∧ m.kind.startsOp = true

/-- A lexeme that neither begins an operation nor is a sigil without a name. -/
def IsWordLexeme (l : Lexeme) : Prop := l.kind.startsOp = false ∧ l.kind.isMark = false

theorem isTag_of_startsOp_eq_false {k : TokenKind} (h : k.startsOp = false) : k.isTag = false := by
  cases k <;> first | rfl | cases h

theorem begins_eq_false {t : Token} {ts : List Token} (ht : t.kind.startsOp = false)
    (hnext : ∀ u, ts.head? = some u → u.kind.isTag = false ∨ t.touches u = false) :
    Op.begins (t :: ts) = false := by
  cases ts with
  | nil => simp [Op.begins, ht]
  | cons u us => rcases hnext u rfl with h | h <;> simp [Op.begins, ht, h]

/-- No operation begins at a word, provided that no tag touches it. -/
theorem not_begins (p : Position) {l : Lexeme} {ls : List Lexeme} (hl : l.kind.startsOp = false)
    (hnext : ∀ m, ls.head? = some m → m.kind.isTag = false ∨ m.gap ≠ []) :
    Op.begins (tokensAt p (l :: ls)) = false := by
  rw [tokensAt_cons]
  refine begins_eq_false hl fun u hu => ?_
  cases ls with
  | nil => cases hu
  | cons m ms =>
    rcases hnext m rfl with hm | hm
    · cases hu; exact Or.inl hm
    · have htouch := touches_iff (t := ⟨l.kind, l.text, ⟨p.after l.gap, (p.after l.gap).after l.text⟩⟩)
        rfl hu
      exact Or.inr (by rw [← Bool.not_eq_true, htouch]; exact hm)

/-- A run goes on up to what follows it. -/
theorem not_begins_run (p : Position) {l : Lexeme} {ls ms : List Lexeme} (hl : IsWordLexeme l)
    (hls : ∀ l ∈ ls, IsWordLexeme l) (hms : Follows ms) :
    Op.begins (tokensAt p (l :: (ls ++ ms))) = false := by
  refine not_begins p hl.1 fun m hm => ?_
  cases ls with
  | nil => exact Or.inr (hms m hm).1
  | cons l' ls =>
    cases hm
    exact Or.inl (isTag_of_startsOp_eq_false (hls m (by simp)).1)

theorem begins_follows (p : Position) {ms : List Lexeme} (hms : Follows ms) (hne : ms ≠ []) :
    Op.begins (tokensAt p ms) = true := by
  cases ms with
  | nil => exact absurd rfl hne
  | cons m ms => rw [tokensAt_cons]; simp [Op.begins, (hms m rfl).2]

theorem splitValue_tokensAt (p : Position) {ls ms : List Lexeme} (hls : ∀ l ∈ ls, IsWordLexeme l)
    (hms : Follows ms) :
    Op.splitValue (tokensAt p (ls ++ ms)) = (tokensAt p ls, tokensAt (placeEnd p ls) ms) := by
  induction ls generalizing p with
  | nil =>
    cases ms with
    | nil => rfl
    | cons m ms =>
      have hb := begins_follows p hms (by simp)
      rw [List.nil_append, tokensAt_cons] at *
      rw [Op.splitValue, hb]
      rfl
  | cons l ls ih =>
    have hl := hls l (by simp)
    have hls' : ∀ l ∈ ls, IsWordLexeme l := fun m hm => hls m (by simp [hm])
    have hb := not_begins_run p hl hls' hms
    rw [List.cons_append, tokensAt_cons] at *
    rw [Op.splitValue, hb, Bool.false_or, if_neg (by rw [hl.2]; simp), ih _ hls', tokensAt_cons]
    rfl

/-! ## Values -/

/-- A run of words that starts with no quotation is read as what it joins to. -/
theorem readValue_run (eof : Position) (field : Field) (t : Token) (p : Position)
    {l : Lexeme} {ls ms : List Lexeme} {raw : Text} (hq : l.kind ≠ .quoted)
    (hls : ∀ m ∈ l :: ls, IsWordLexeme m) (hms : Follows ms)
    (hjoin : ValueRun.join ((l :: ls).map Lexeme.token) = raw) (hne : raw ≠ []) :
    ∃ span, Op.readValue eof field t (tokensAt p (l :: ls ++ ms))
      = .ok (⟨raw, false, span⟩, tokensAt (placeEnd p (l :: ls)) ms) := by
  have hsplit := splitValue_tokensAt p hls hms
  have hrun : ValueRun.join (tokensAt p (l :: ls)) = raw := by rw [ValueRun.join_tokensAt, hjoin]
  have hread : Op.readValue eof field t (tokensAt p (l :: ls ++ ms))
      = Op.readValue.readRun eof field t (tokensAt p (l :: ls ++ ms)) := by
    rw [List.cons_append, tokensAt_cons, Op.readValue, if_neg hq]
  rw [hread, Op.readValue.readRun, hsplit]
  simp only [hrun, if_neg hne]
  exact ⟨_, rfl⟩

theorem readValue_quote (eof : Position) (field : Field) (t : Token) (p : Position) (raw : Text)
    (ms : List Lexeme) :
    ∃ span, Op.readValue eof field t (tokensAt p ([⟨[], .quoted, raw.quote⟩] ++ ms))
      = .ok (⟨raw, true, span⟩, tokensAt (placeEnd p [⟨[], .quoted, raw.quote⟩]) ms) := by
  rw [List.singleton_append, tokensAt_cons, Op.readValue, if_pos rfl, Token.value, if_pos rfl,
    Text.unquote_quote]
  exact ⟨_, rfl⟩

theorem fits_iff {t : Token} : fitsOpValue t = true ↔
    t.kind.startsOp = false ∧ t.kind.isOpenString = false ∧ t.kind ≠ .quoted
      ∧ t.kind.isMark = false := by
  simp [fitsOpValue, and_assoc]

theorem isWordLexeme_of_fits {l : Lexeme} (h : fitsOpValue l.token = true) : IsWordLexeme l :=
  ⟨(fits_iff.1 h).1, (fits_iff.1 h).2.2.2⟩

/-- A plain run of a value: it does not start with a quotation and nothing ends it. -/
theorem exists_plain {s : Text} (h : isPlainRun fitsOpValue s = true) :
    ∃ l ls, Plain fitsOpValue s (l :: ls) ∧ l.kind ≠ .quoted ∧ ∀ m ∈ l :: ls, IsWordLexeme m := by
  obtain ⟨ls, hls⟩ := plain_of_isPlainRun (fun _ => rfl) (fun _ ht => (fits_iff.1 ht).2.1) h
  cases ls with
  | nil => exact absurd rfl hls.ne_nil
  | cons l ls =>
    exact ⟨l, ls, hls, (fits_iff.1 (hls.fits l (by simp))).2.2.1,
      fun m hm => isWordLexeme_of_fits (hls.fits m hm)⟩

theorem Plain.ne_nil_text {fits : Token → Bool} {s : Text} {ls : List Lexeme}
    (h : Plain fits s ls) : s ≠ [] := by
  intro hs
  subst hs
  have := h.cuts.cut_eq
  rw [cut_nil] at this
  exact h.ne_nil (congrArg Cut.lexemes this).symm

/-- Fragments that do not end in a blank, with spaces between them, do not end in a blank. -/
theorem getLast?_joinWith {ps : List Text} (hne : ps ≠ [])
    (h : ∀ p ∈ ps, ∃ c, p.getLast? = some c ∧ Text.isBlank c = false) :
    ∃ c, (Text.joinWith ' ' ps).getLast? = some c ∧ Text.isBlank c = false := by
  induction ps with
  | nil => exact absurd rfl hne
  | cons p ps ih =>
    cases ps with
    | nil => exact h p (by simp)
    | cons q qs =>
      obtain ⟨c, hc, hb⟩ := ih (by simp) fun r hr => h r (by simp [hr])
      refine ⟨c, ?_, hb⟩
      rw [Text.joinWith_cons ' ' p (by simp), List.getLast?_append, List.getLast?_cons, hc]
      rfl

theorem getLast?_requoted (s : Text) :
    ∃ c, (requoted s).getLast? = some c ∧ Text.isBlank c = false := by
  refine getLast?_joinWith (by simpa using Text.pieces_ne_nil ' ' s) fun q hq => ?_
  obtain ⟨p, -, rfl⟩ := List.mem_map.1 hq
  split
  · next hp =>
    obtain ⟨l, ls, hls, -, -⟩ := exists_plain hp
    have htrim : Text.Trimmed p := by rw [← hls.join]; exact ValueRun.trimmed_join _
    cases hl : p.getLast? with
    | none => exact absurd (List.getLast?_eq_none_iff.1 hl) hls.ne_nil_text
    | some c => exact ⟨c, rfl, htrim.right c hl⟩
  · refine ⟨'"', ?_, by decide⟩
    rw [Text.quote, ← List.cons_append, List.getLast?_concat]

/-- What the check of a rendered value looks at are its lexemes. -/
theorem readsBackAs_iff {raw rendered : Text} :
    readsBackAs raw rendered = true ↔
      (cut .root rendered).stuck = none ∧
        ((cut .root rendered).lexemes.head?.any fun l => l.kind != .quoted) = true ∧
        (∀ l ∈ (cut .root rendered).lexemes, l.kind = .quoted ∨ fitsOpValue l.token = true) ∧
        ValueRun.join ((cut .root rendered).lexemes.map Lexeme.token) = raw := by
  have hhead (ls : List Lexeme) : ((tokensAt .origin ls).head?.any fun t => t.kind != .quoted)
      = ls.head?.any fun l => l.kind != .quoted := by
    cases ls <;> rfl
  rw [readsBackAs, failure_lex, tokens_lex]
  simp only [Bool.and_eq_true, beq_iff_eq, ValueRun.join_tokensAt, hhead, and_assoc,
    Option.isNone_iff_eq_none]
  rw [all_tokensAt (fun _ => rfl), List.all_eq_true]
  simp only [Bool.or_eq_true, beq_iff_eq]
  rfl

/-- A text that reads back as a value is a run of words that starts with no quotation. -/
theorem exists_of_readsBackAs {raw rendered : Text} (h : readsBackAs raw rendered = true)
    (hend : ∀ c, rendered.getLast? = some c → Text.isBlank c = false) :
    ∃ l ls, Cuts rendered (l :: ls) ∧ l.kind ≠ .quoted ∧ (∀ m ∈ l :: ls, IsWordLexeme m)
      ∧ ValueRun.join ((l :: ls).map Lexeme.token) = raw := by
  obtain ⟨hs, hhead, hfits, hjoin⟩ := readsBackAs_iff.1 h
  have hcuts : Cuts rendered (cut .root rendered).lexemes := by
    refine cuts_of_getLast? hend hs fun l hl => ?_
    rcases hfits l hl with hk | hk
    · rw [hk]; rfl
    · exact (fits_iff.1 hk).2.1
  have hword : ∀ l ∈ (cut .root rendered).lexemes, IsWordLexeme l := by
    intro l hl
    rcases hfits l hl with hk | hk
    · exact ⟨by rw [hk]; rfl, by rw [hk]; rfl⟩
    · exact isWordLexeme_of_fits hk
  cases hls : (cut .root rendered).lexemes with
  | nil => rw [hls] at hhead; cases hhead
  | cons l ls =>
    rw [hls] at hhead hjoin hcuts hword
    exact ⟨l, ls, hcuts, by simpa using hhead, hword, hjoin⟩

theorem readsBackAs_nil : readsBackAs [] (requoted []) = false := by
  have hcut : cut .root (requoted []) = ⟨[⟨[], .quoted, Text.quote []⟩], none, []⟩ := by
    have hplain : isPlainRun fitsOpValue [] = false := by
      rw [isPlainRun, failure_lex, tokens_lex, cut_nil]; rfl
    rw [requoted, Text.pieces, List.map_singleton, hplain]
    exact (firm_quote []).cuts.cut_eq
  rw [← Bool.not_eq_true, readsBackAs_iff, hcut]
  simp

/-- A value that comes back as a quotation is written as one. -/
theorem value_eq_quote {v : Value} (h : v.reread.quoted = true) : value v = v.raw.quote := by
  simp only [Value.reread, Bool.or_eq_true, Bool.not_eq_true', standsBare,
    Bool.or_eq_false_iff] at h
  rcases h with hq | ⟨hplain, hback⟩
  · simp [value, hq]
  · simp [value, hplain, hback]

/-- Another value is written as a run of words that starts with no quotation. -/
theorem exists_run_of_value {v : Value} (h : v.reread.quoted = false) :
    v.raw ≠ [] ∧ ∃ l ls, Cuts (value v) (l :: ls) ∧ l.kind ≠ .quoted ∧
      (∀ m ∈ l :: ls, IsWordLexeme m) ∧ ValueRun.join ((l :: ls).map Lexeme.token) = v.raw := by
  simp only [Value.reread, Bool.or_eq_false_iff, Bool.not_eq_false', standsBare] at h
  obtain ⟨hq, hbare⟩ := h
  cases hplain : isPlainRun fitsOpValue v.raw with
  | true =>
    obtain ⟨l, ls, hls, hkind, hword⟩ := exists_plain hplain
    have hv : value v = v.raw := by simp [value, hq, hplain]
    rw [hv]
    exact ⟨hls.ne_nil_text, l, ls, hls.cuts, hkind, hword, hls.join⟩
  | false =>
    have hback : readsBackAs v.raw (requoted v.raw) = true := by
      rw [hplain, Bool.false_or] at hbare; exact hbare
    have hne : v.raw ≠ [] := by
      intro hnil
      rw [hnil, readsBackAs_nil] at hback
      cases hback
    have hv : value v = requoted v.raw := by simp [value, hq, hplain, hback]
    obtain ⟨c, hc, hb⟩ := getLast?_requoted v.raw
    have hend : ∀ d, (requoted v.raw).getLast? = some d → Text.isBlank d = false := by
      intro d hd
      rw [hc] at hd
      cases hd
      exact hb
    rw [hv]
    exact ⟨hne, exists_of_readsBackAs hback hend⟩

/-- The canonical form of a value, before whatever may follow it, is read as a value with the same text:
a quotation when it was one or cannot stand bare. -/
theorem exists_readValue_value (v : Value) :
    ∃ ls, Cuts (value v) ls ∧ ∀ eof field t p ms, Follows ms →
      ∃ span, Op.readValue eof field t (tokensAt p (ls ++ ms))
        = .ok ({ v.reread with span := span }, tokensAt (placeEnd p ls) ms) := by
  have hreread (span : Span) : { v.reread with span := span } = ⟨v.raw, v.reread.quoted, span⟩ := rfl
  simp only [hreread]
  cases hquoted : v.reread.quoted with
  | true =>
    rw [value_eq_quote hquoted]
    exact ⟨_, (firm_quote v.raw).cuts, fun eof field t p ms _ =>
      readValue_quote eof field t p v.raw ms⟩
  | false =>
    obtain ⟨hne, l, ls, hcuts, hkind, hword, hjoin⟩ := exists_run_of_value hquoted
    exact ⟨_, hcuts, fun eof field t p ms hms => readValue_run eof field t p hkind hword hms hjoin hne⟩

end Canonical

end Agenda
