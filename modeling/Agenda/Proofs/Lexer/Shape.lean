import Agenda.Proofs.Lexer.Cuts
/-!
# What tokens look like

The rules say of some kinds what their text is: a tag is its sigil and a name; a token that may stand
within a value has no blank in it, and no colon or comma unless it is one. Every token of a line is of
the shape of its kind (`shape_of_mem_tokens`).
-/
namespace Agenda.Lexer

open Text (isBlank)

/-- A kind of token, other than a quotation, that may stand within a value. -/
def isSolidKind (k : TokenKind) : Bool :=
  !k.startsOp && !k.isOpenString && k != .quoted && !k.isMark

/-- A text in one piece: a colon, a comma, or characters that are neither these nor blank. -/
structure Solid (kind : TokenKind) (text : Text) : Prop where
  ne_nil : text ≠ []
  not_blank : ∀ d ∈ text, isBlank d = false
  glue : (kind = .colon ∧ text = [':']) ∨ (kind = .comma ∧ text = [',']) ∨
    ((kind ≠ .colon ∧ kind ≠ .comma) ∧ ∀ d ∈ text, d ≠ ':' ∧ d ≠ ',')

/-- The text is what the rules make of tokens of the given kind. -/
structure Shape (kind : TokenKind) (text : Text) : Prop where
  tag : ∀ k, kind = tagToken k → ∃ name, text = k.sigil :: name ∧ IsTagName name
  solid : isSolidKind kind = true → Solid kind text

theorem shape_of_other {kind : TokenKind} {text : Text} (ht : kind.isTag = false)
    (hs : isSolidKind kind = false) : Shape kind text := by
  refine ⟨?_, fun h => by rw [hs] at h; cases h⟩
  rintro (_ | _) rfl <;> cases ht

theorem shape_of_solid {kind : TokenKind} {text : Text} (ht : kind.isTag = false)
    (hs : Solid kind text) : Shape kind text := by
  refine ⟨?_, fun _ => hs⟩
  rintro (_ | _) rfl <;> cases ht

/-! ## Characters -/

def IsPlainChar (d : Char) : Prop := isBlank d = false ∧ d ≠ ':' ∧ d ≠ ','

theorem isPlainChar_of_isWordChar {d : Char} (h : isWordChar d = true) : IsPlainChar d := by
  refine ⟨?_, ?_, ?_⟩
  · cases hb : isBlank d with
    | false => rfl
    | true => rw [isWordChar_eq_false_of_isBlank hb] at h; cases h
  · intro hd; subst hd; revert h; decide
  · intro hd; subst hd; revert h; decide

/-- The signs that are neither blank nor a colon or comma. -/
theorem isPlainChar_of_sign : ∀ d ∈ "#@+-!()&|*".toList, IsPlainChar d := by
  intro d hd
  have hall : ("#@+-!()&|*".toList.all fun d => !isBlank d && d != ':' && d != ',') = true := by decide
  simpa [IsPlainChar, and_assoc] using List.all_eq_true.1 hall d hd

theorem solid_of_plainChars {kind : TokenKind} {c : Char} {r : Text} (hc : IsPlainChar c)
    (hr : ∀ d ∈ r, IsPlainChar d) (hk : kind ≠ .colon ∧ kind ≠ .comma) : Solid kind (c :: r) := by
  have hall : ∀ d ∈ c :: r, IsPlainChar d := List.forall_mem_cons.2 ⟨hc, hr⟩
  exact ⟨by simp, fun d hd => (hall d hd).1, Or.inr (Or.inr ⟨hk, fun d hd => (hall d hd).2⟩)⟩

theorem Solid.isPlainChar {kind : TokenKind} {text : Text} (h : Solid kind text)
    (hk : kind ≠ .colon ∧ kind ≠ .comma) : ∀ d ∈ text, IsPlainChar d := by
  intro d hd
  rcases h.glue with ⟨h', -⟩ | ⟨h', -⟩ | ⟨-, hall⟩
  · exact absurd h' hk.1
  · exact absurd h' hk.2
  · exact ⟨h.not_blank d hd, hall d hd⟩

/-- A word begins with neither a blank nor a colon. -/
theorem Solid.opens {text : Text} (h : Solid .ident text) : Opens text := by
  cases text with
  | nil => exact absurd rfl h.ne_nil
  | cons c r =>
    obtain ⟨hb, hc, -⟩ := h.isPlainChar ⟨by simp, by simp⟩ c (by simp)
    exact ⟨c, r, rfl, hb, hc⟩

/-! ## Rules -/

theorem take_length_takeWhile (p : Char → Bool) (r : Text) :
    r.take (r.takeWhile p).length = r.takeWhile p :=
  (List.prefix_iff_eq_take.1 (List.takeWhile_prefix p)).symm

theorem drop_length_takeWhile (p : Char → Bool) (r : Text) :
    r.drop (r.takeWhile p).length = r.dropWhile p := by
  induction r with
  | nil => rfl
  | cons c r ih => by_cases h : p c <;> simp [h, ih]

theorem isTagName_take {d : Char} {r : Text} (hd : isTagStart d = true) :
    IsTagName ((d :: r).take (wordLength (d :: r))) := by
  have hw := isWordChar_of_isTagStart hd
  rw [wordLength, take_length_takeWhile]
  exact ⟨⟨d, r.takeWhile isWordChar, by simp [hw], hd⟩, fun c hc => List.mem_takeWhile_imp hc⟩

theorem shape_hashRule (r : Text) : Shape (hashRule r).1 ('#' :: r.take (hashRule r).2) := by
  unfold hashRule
  split
  · exact shape_of_other rfl rfl
  · next d r =>
    split
    · refine shape_of_solid rfl (solid_of_plainChars ⟨by decide, by decide, by decide⟩ ?_ (by simp))
      intro e he
      rw [take_length_takeWhile] at he
      exact isPlainChar_of_isWordChar (isWordChar_of_isDigit (List.mem_takeWhile_imp he))
    · split
      · next hd =>
        refine ⟨?_, fun h => by cases h⟩
        rintro (_ | _) h
        · exact ⟨_, rfl, isTagName_take hd⟩
        · cases h
      · exact shape_of_other rfl rfl

theorem shape_atRule (r : Text) : Shape (atRule r).1 ('@' :: r.take (atRule r).2) := by
  unfold atRule
  split
  · exact shape_of_other rfl rfl
  · next d r =>
    split
    · next hd =>
      refine ⟨?_, fun h => by cases h⟩
      rintro (_ | _) h
      · cases h
      · exact ⟨_, rfl, isTagName_take hd⟩
    · exact shape_of_other rfl rfl

theorem shape_wordRule {c : Char} (hc : isWordStart c = true) (r : Text) :
    Shape (wordRule c r).1 (c :: r.take (wordRule c r).2) := by
  have hw : isWordChar c = true := by simp [isWordChar, hc]
  unfold wordRule
  split
  · exact shape_of_other rfl rfl
  · refine shape_of_solid rfl (solid_of_plainChars (isPlainChar_of_isWordChar hw) ?_ (by simp))
    intro d hd
    simp only [wordLength, take_length_takeWhile] at hd
    exact isPlainChar_of_isWordChar (List.mem_takeWhile_imp hd)

/-- A sign by itself. -/
theorem solid_sign {kind : TokenKind} {c : Char} (hc : IsPlainChar c) (r : Text)
    (hk : kind ≠ .colon ∧ kind ≠ .comma) : Solid kind (c :: r.take 0) :=
  solid_of_plainChars hc (fun _ h => (by cases h)) hk

theorem shape_signRule {field alone : TokenKind} {c : Char} (hc : IsPlainChar c)
    (hf : isSolidKind field = false ∧ field.isTag = false) (ht : alone.isTag = false)
    (hk : alone ≠ .colon ∧ alone ≠ .comma) (r : Text) :
    Shape (signRule field alone r).1 (c :: r.take (signRule field alone r).2) := by
  unfold signRule
  split
  · exact shape_of_other hf.2 hf.1
  · exact shape_of_solid ht (solid_sign hc r hk)

theorem shape_of_doubledRule {kind : TokenKind} {c : Char} {r : Text} {out : TokenKind × Nat}
    (hc : IsPlainChar c) (ht : kind.isTag = false) (hk : kind ≠ .colon ∧ kind ≠ .comma)
    (h : doubledRule kind c r = some out) : Shape out.1 (c :: r.take out.2) := by
  unfold doubledRule at h
  split at h
  · next hd =>
    cases h
    refine shape_of_solid ht (solid_of_plainChars hc (fun d hd' => ?_) hk)
    cases r with
    | nil => cases hd
    | cons e r =>
      cases hd
      rw [List.take_succ_cons, List.take_zero, List.mem_singleton] at hd'
      rw [hd']; exact hc
  · cases h

theorem shape_quoteRule (r : Text) : Shape (quoteRule r).1 ('"' :: r.take (quoteRule r).2) := by
  unfold quoteRule
  split
  · exact shape_of_other rfl rfl
  · exact shape_of_other rfl rfl

theorem shape_bangRule (r : Text) : Shape (bangRule r).1 ('!' :: r.take (bangRule r).2) := by
  have hc : IsPlainChar '!' := ⟨by decide, by decide, by decide⟩
  unfold bangRule
  split
  · exact shape_of_other rfl rfl
  · exact shape_of_solid rfl (solid_sign hc r (by decide))

/-- The rules make tokens of the shape of their kind. -/
theorem shape_rootRule {c : Char} {r : Text} {out : TokenKind × Nat}
    (h : rootRule c r = some out) : Shape out.1 (c :: r.take out.2) := by
  cases applies_of_rootRule h with
  | quote => exact shape_quoteRule r
  | hash => exact shape_hashRule r
  | context => exact shape_atRule r
  | plus => exact shape_signRule (isPlainChar_of_sign _ (by decide)) ⟨rfl, rfl⟩ rfl (by decide) r
  | minus => exact shape_signRule (isPlainChar_of_sign _ (by decide)) ⟨rfl, rfl⟩ rfl (by decide) r
  | bang => exact shape_bangRule r
  | colon => exact shape_of_solid rfl ⟨by simp, by simp; decide, Or.inl ⟨rfl, rfl⟩⟩
  | comma => exact shape_of_solid rfl ⟨by simp, by simp; decide, Or.inr (Or.inl ⟨rfl, rfl⟩)⟩
  | leftParen => exact shape_of_solid rfl (solid_sign (isPlainChar_of_sign _ (by decide)) r (by decide))
  | rightParen => exact shape_of_solid rfl (solid_sign (isPlainChar_of_sign _ (by decide)) r (by decide))
  | star => exact shape_of_solid rfl (solid_sign (isPlainChar_of_sign _ (by decide)) r (by decide))
  | ampersand hr => exact shape_of_doubledRule (isPlainChar_of_sign _ (by decide)) rfl (by decide) hr
  | bar hr => exact shape_of_doubledRule (isPlainChar_of_sign _ (by decide)) rfl (by decide) hr
  | word _ hw _ => exact shape_wordRule hw r

/-! ## Tokens -/

theorem isOpenString_of_step_string {s gap text rest : Text} {kind : TokenKind} {next : State}
    (h : step .string s = .take gap kind text rest next) : kind.isOpenString = true := by
  simp only [step] at h
  split at h
  · cases h
  · next c r =>
    cases h
    unfold stringRule
    split
    · rfl
    · split
      · split <;> rfl
      · rfl

/-- Every token of a text is of the shape of its kind. -/
theorem shape_of_mem_cut {state : State} {s : Text} {l : Lexeme} (h : l ∈ (cut state s).lexemes) :
    Shape l.kind l.text := by
  induction state, s using cut.induct with
  | case1 state s hs => rw [cut_of_done hs] at h; cases h
  | case2 state s gap c hs => rw [cut_of_stuck hs] at h; cases h
  | case3 state s gap kind text rest next hs ih =>
    rw [cut_of_take hs, Cut.lexemes_prepend, List.singleton_append] at h
    rcases List.mem_cons.1 h with rfl | h
    · cases state with
      | root =>
        obtain ⟨c, r, n, -, hr, -, rfl, -, -⟩ := rule_of_step_root hs
        exact shape_rootRule hr
      | string =>
        have hopen := isOpenString_of_step_string hs
        refine shape_of_other ?_ ?_
        · cases kind <;> first | rfl | cases hopen
        · simp [isSolidKind, hopen]
    · exact ih h

theorem shape_of_mem_tokens {s : Text} {t : Token} (h : t ∈ (lex s).tokens) : Shape t.kind t.text := by
  rw [tokens_lex] at h
  obtain ⟨l, hl, he⟩ := exists_of_mem_tokensAt h
  have hshape : Shape l.token.kind l.token.text := shape_of_mem_cut hl
  rw [he] at hshape
  exact hshape

/-- Every lexeme of a text that is cut as it was put together is of the shape of its kind. -/
theorem Cuts.shape {s : Text} {ls : List Lexeme} (h : Cuts s ls) {l : Lexeme} (hl : l ∈ ls) :
    Shape l.kind l.text := by
  have hcut : l ∈ (cut .root s).lexemes := by rw [h.cut_eq]; exact hl
  exact shape_of_mem_cut hcut

end Agenda.Lexer
