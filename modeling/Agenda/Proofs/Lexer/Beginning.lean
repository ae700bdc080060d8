import Agenda.Proofs.Lexer.OpenString
/-!
# Beginnings of a line

While a line is typed the lexer sees its beginnings, and it may cut them quite otherwise than the line: what
is to be a quotation is an open string, what is to be a field is a word and blanks, and of an operator there
is one half. Only the last of these fails.

The lexer runs over a beginning and over the whole line in step, as long as it takes the same tokens. Where it
does not, what is left of the beginning is an open string or has word characters and blanks only (`Trails`),
and neither stops it; or it is half an operator (`EndsInHalf`).

Results: `rootRule_append_or` for one token; `cut_of_beginning` for a run, by induction on the cut of the
beginning; `beginning_fails_in_half_an_operator_only`.
-/
namespace Agenda.Lexer

open Text (isBlank)

/-! ## Word characters and blanks -/

/-- Word characters and blanks, and nothing else. -/
def Trails (s : Text) : Prop := ∀ d ∈ s, isWordChar d = true ∨ isBlank d = true

theorem Trails.of_subset {s t : Text} (h : Trails s) (hs : t ⊆ s) : Trails t := fun d hd => h d (hs hd)

theorem trails_of_wordChars {s : Text} (h : ∀ d ∈ s, isWordChar d = true) : Trails s :=
  fun d hd => Or.inl (h d hd)

theorem eq_minus_of_sign {c : Char} (hc : c ∈ signs) (h : isWordChar c = true) : c = '-' := by
  have hall : (signs.all fun d => !isWordChar d || d == '-') = true := by decide
  simpa [h] using List.all_eq_true.1 hall c hc

/-- Some rule accepts each word character. -/
theorem rootRule_ne_none_of_isWordChar {c : Char} (h : isWordChar c = true) (r : Text) :
    rootRule c r ≠ none := by
  by_cases hc : c ∈ signs
  · rw [eq_minus_of_sign hc h]
    exact Option.some_ne_none _
  · have hminus : c ≠ '-' := by
      intro hc'
      exact hc (hc' ▸ by decide)
    have hstart : isWordStart c = true := by simpa [isWordChar, hminus] using h
    rw [rootRule_of_not_sign hc, if_pos hstart]
    exact Option.some_ne_none _

theorem Trails.isWordChar_of_dropWhile {s r : Text} {c : Char} (h : Trails s)
    (hs : s.dropWhile isBlank = c :: r) : isWordChar c = true := by
  have hmem : c ∈ s := List.dropWhile_subset _ (by rw [hs]; exact List.mem_cons_self)
  have hblank : isBlank c = false := eq_false_of_dropWhile hs
  exact (h c hmem).resolve_right (by simp [hblank])

/-- Word characters and blanks do not stop the lexer. -/
theorem stuck_cut_of_trails {s : Text} (h : Trails s) : (cut .root s).stuck = none := by
  generalize hst : State.root = st
  induction st, s using cut.induct with
  | case1 st s hs => rw [cut_of_done hs]
  | case2 st s gap c hs =>
    subst hst
    obtain ⟨r, hdrop, hnone, -⟩ := rule_of_step_stuck hs
    exact absurd hnone (rootRule_ne_none_of_isWordChar (h.isWordChar_of_dropWhile hdrop) r)
  | case3 st s gap kind text rest next hs ih =>
    subst hst
    obtain ⟨c, r, n, hdrop, hrule, -, -, rfl, rfl⟩ := rule_of_step_root hs
    have hc : c ≠ '"' := by
      intro hc
      have hword := h.isWordChar_of_dropWhile hdrop
      rw [hc] at hword
      revert hword
      decide
    have hrest : r.drop n ⊆ s := fun d hd =>
      List.dropWhile_subset _ (by rw [hdrop]; exact List.mem_cons_of_mem _ (List.mem_of_mem_drop hd))
    have hkind : kind ≠ .quoteStart := ne_quoteStart_of_closed (not_string_of_rule hrule hc).2
    rw [cut_of_take hs, Cut.stuck_prepend]
    exact ih (h.of_subset hrest) (after_root hkind).symm

/-! ## Rules before a text that goes on -/

/-- What looks no further than the first character that goes on no word finds the same when the text goes on,
unless the text is one of word characters. -/
theorem append_eq_or_wordChars {α : Type} {f : Text → α}
    (hf : ∀ {u : Text}, Breaks u → ∀ r, f (r ++ u) = f r) (s u : Text) :
    f (s ++ u) = f s ∨ ∀ d ∈ s, isWordChar d = true := by
  cases hrest : s.dropWhile isWordChar with
  | nil => exact Or.inr (List.dropWhile_eq_nil_iff.1 hrest)
  | cons d z =>
    have hd : isWordChar d = false := eq_false_of_dropWhile hrest
    have hbreaks (v : Text) : Breaks (d :: v) := by
      intro e he
      cases he
      exact hd
    have hs : s = s.takeWhile isWordChar ++ d :: z := by rw [← hrest, List.takeWhile_append_dropWhile]
    refine Or.inl ?_
    calc f (s ++ u) = f (s.takeWhile isWordChar ++ d :: (z ++ u)) := by
          rw [← List.cons_append, ← List.append_assoc, ← hs]
      _ = f (s.takeWhile isWordChar) := hf (hbreaks _) _
      _ = f (s.takeWhile isWordChar ++ d :: z) := (hf (hbreaks _) _).symm
      _ = f s := by rw [← hs]

/-- A field arises when a text goes on only if it was a field before, or was on its way to its colon. -/
theorem fieldColon?_append_or (s u : Text) : fieldColon? (s ++ u) = fieldColon? s ∨ Trails s := by
  cases hn : fieldColon? (s ++ u) with
  | none => exact Or.inl (fieldColon?_eq_none hn).symm
  | some n =>
    obtain ⟨w, hw, blanks, rest, hb, htext, hlength⟩ := fieldColon?_eq_some_iff.1 hn
    have htrails : Trails (w ++ blanks) := by
      intro d hd
      rcases List.mem_append.1 hd with hd | hd
      · exact Or.inl (isWordChar_of_mem_words hw d hd)
      · exact Or.inr (hb d hd)
    rw [← List.append_assoc] at htext
    rcases List.append_eq_append_iff.1 htext with ⟨more, hmore, -⟩ | ⟨more, hs, hrest⟩
    · exact Or.inr (htrails.of_subset (hmore ▸ List.subset_append_left ..))
    · cases more with
      | nil => exact Or.inr (htrails.of_subset (by rw [hs, List.append_nil]; exact List.Subset.refl _))
      | cons c more =>
        obtain ⟨rfl, -⟩ := List.cons.inj hrest
        refine Or.inl (Eq.symm (fieldColon?_eq_some_iff.2 ⟨w, hw, blanks, more, hb, ?_, hlength⟩))
        rw [hs, List.append_assoc]

theorem wordRule_append_or (c : Char) (s u : Text) :
    wordRule c (s ++ u) = wordRule c s ∨ Trails s := by
  rcases fieldColon?_append_or (c :: s) u with hfield | htrails
  · rcases append_eq_or_wordChars (fun hu r => wordLength_append r hu) s u with hlength | hword
    · rw [wordRule, ← List.cons_append, hfield, hlength]
      exact Or.inl rfl
    · exact Or.inr (trails_of_wordChars hword)
  · exact Or.inr (htrails.of_subset (List.subset_cons_self ..))

/-- Outside quotations a rule applies in the same way when the text goes on, unless the text has word
characters and blanks only. -/
theorem rootRule_append_or {c : Char} {s : Text} {out : TokenKind × Nat} (h : rootRule c s = some out)
    (hc : c ≠ '"') (u : Text) : rootRule c (s ++ u) = some out ∨ Trails s := by
  cases applies_of_rootRule h with
  | quote => exact absurd rfl hc
  | hash => exact (append_eq_or_wordChars hashRule_append s u).imp (congrArg some) trails_of_wordChars
  | context => exact (append_eq_or_wordChars atRule_append s u).imp (congrArg some) trails_of_wordChars
  | plus | minus =>
    exact (fieldColon?_append_or s u).imp_left fun hfield => congrArg some (signRule_append _ _ hfield)
  | bang => exact (append_eq_or_wordChars bangRule_append s u).imp (congrArg some) trails_of_wordChars
  | ampersand hr | bar hr => exact Or.inl (doubledRule_append u hr)
  | word _ _ hrule =>
    rw [hrule]
    exact (wordRule_append_or c s u).imp_left (congrArg some)
  | _ => exact Or.inl rfl

/-- A rule applies in the same way when the text goes on, or the rest of the text does not stop the lexer. -/
theorem rootRule_append_or_cut {c : Char} {s : Text} {kind : TokenKind} {n : Nat}
    (h : rootRule c s = some (kind, n)) (u : Text) :
    (rootRule c (s ++ u) = some (kind, n) ∧ kind ≠ .quoteStart) ∨
      (cut (State.root.after kind) (s.drop n)).stuck = none := by
  rcases open_or_closed_of_rule h with ⟨-, hout, hopen⟩ | hclosed
  · cases hout
    exact Or.inr (isOpenRun_cut hopen).2.1
  · have hkind : kind ≠ .quoteStart := ne_quoteStart_of_closed hclosed
    by_cases hc : c = '"'
    · subst hc
      have hquote : quoteRule s = (kind, n) := Option.some.inj h
      refine Or.inl ⟨?_, hkind⟩
      rw [← h]
      exact congrArg some (quoteRule_append (by rw [hquote]; exact hkind))
    · rw [after_root hkind]
      exact (rootRule_append_or h hc u).imp (fun hrule => ⟨hrule, hkind⟩)
        fun htrails => stuck_cut_of_trails (htrails.of_subset (List.drop_subset ..))

/-! ## Halves of operators -/

/-- The character is half an operator of the given kind. -/
inductive HalfOf : Char → TokenKind → Prop
  | ampersand : HalfOf '&' .andOp
  | bar : HalfOf '|' .orOp

theorem half_of_doubledRule {kind : TokenKind} {c : Char} {s u : Text} {out : TokenKind × Nat}
    (hnone : doubledRule kind c s = none) (h : doubledRule kind c (s ++ u) = some out) :
    s = [] ∧ u.head? = some c ∧ out = (kind, 1) := by
  unfold doubledRule at hnone h
  cases s with
  | nil =>
    split at h
    · next hu =>
      cases h
      exact ⟨rfl, hu, rfl⟩
    · cases h
  | cons d s =>
    rw [List.cons_append, List.head?_cons] at h
    rw [List.head?_cons] at hnone
    rw [h] at hnone
    cases hnone

/-- A character that no rule accepts, but one does when the text goes on, is half an operator at the end of
the text. -/
theorem half_of_rule {c : Char} {s u : Text} {out : TokenKind × Nat} (hnone : rootRule c s = none)
    (h : rootRule c (s ++ u) = some out) :
    s = [] ∧ u.head? = some c ∧ ∃ kind, HalfOf c kind ∧ out = (kind, 1) := by
  cases applies_of_rootRule h with
  | ampersand hr =>
    obtain ⟨hs, hu, hout⟩ := half_of_doubledRule hnone hr
    exact ⟨hs, hu, _, .ampersand, hout⟩
  | bar hr =>
    obtain ⟨hs, hu, hout⟩ := half_of_doubledRule hnone hr
    exact ⟨hs, hu, _, .bar, hout⟩
  | word _ _ hrule =>
    rw [hrule] at hnone
    cases hnone
  | _ => exact absurd hnone (Option.some_ne_none _)

/-! ## Runs -/

/-- The text `p` is cut up to its last character, half an operator of the given kind. Before `u` it is cut in
the same way, and then comes the operator. -/
structure EndsInHalf (p u gap : Text) (c : Char) (kind : TokenKind) : Prop where
  half : HalfOf c kind
  stuck : (cut .root p).stuck = some (gap, c)
  tail : (cut .root p).tail = gap ++ [c]
  goes_on : ∃ after, (cut .root (p ++ u)).lexemes = (cut .root p).lexemes ++ ⟨gap, kind, [c, c]⟩ :: after

/-- The beginning of a text that does not stop the lexer does not either, or ends in half an operator. -/
theorem cut_of_beginning (p u : Text) (hs : (cut .root (p ++ u)).stuck = none) :
    (cut .root p).stuck = none ∨ ∃ gap c kind, EndsInHalf p u gap c kind := by
  generalize hst : State.root = st
  induction st, p using cut.induct with
  | case1 st p h => exact Or.inl (by rw [cut_of_done h])
  | case2 st p gap c h =>
    subst hst
    obtain ⟨x, hdrop, hnone, hgap⟩ := rule_of_step_stuck h
    have hdrop' := dropWhile_append_of_cons u hdrop
    have htake' : (p ++ u).takeWhile isBlank = gap := by
      rw [takeWhile_append_of_ne_nil u (by simp [hdrop]), hgap]
    cases hrule : rootRule c (x ++ u) with
    | none =>
      have hstep : step .root (p ++ u) = .stuck gap c := by simp only [step, hdrop', hrule, htake']
      rw [cut_of_stuck hstep] at hs
      cases hs
    | some out =>
      obtain ⟨rfl, hu, kind, hhalf, rfl⟩ := half_of_rule hnone hrule
      obtain ⟨r, rfl⟩ := List.head?_eq_some_iff.1 hu
      have hp : p = gap ++ [c] := by rw [hgap, ← hdrop, List.takeWhile_append_dropWhile]
      have hstep := step_root_take hdrop' hrule
      rw [htake'] at hstep
      refine Or.inr ⟨gap, c, kind, hhalf, by rw [cut_of_stuck h], by rw [cut_of_stuck h, hp], ?_⟩
      rw [cut_of_stuck h, cut_of_take hstep]
      exact ⟨_, rfl⟩
  | case3 st p gap kind text rest next h ih =>
    subst hst
    obtain ⟨c, x, n, hdrop, hrule, rfl, rfl, rfl, rfl⟩ := rule_of_step_root h
    rw [cut_of_take h, Cut.stuck_prepend]
    rcases rootRule_append_or_cut hrule u with ⟨hrule', hkind⟩ | hfine
    · have hstep := step_root_take_append hdrop (length_rootRule_le hrule) hrule' hkind
      rw [cut_of_take hstep] at hs
      rw [after_root hkind] at h ih ⊢
      refine (ih hs rfl).imp_right ?_
      intro hhalf
      obtain ⟨gap, d, kind', hends⟩ := hhalf
      obtain ⟨after, hafter⟩ := hends.goes_on
      refine ⟨gap, d, kind', hends.half, ?_, ?_, after, ?_⟩
      · rw [cut_of_take h, Cut.stuck_prepend, hends.stuck]
      · rw [cut_of_take h, Cut.tail_prepend, hends.tail]
      · rw [cut_of_take h, cut_of_take hstep, Cut.lexemes_prepend, Cut.lexemes_prepend, hafter,
          List.append_assoc]
    · exact Or.inl hfine

/-! ## The whole line -/

/-- Of a line that is cut to its end every beginning is cut to its end, or fails at its last character, the
first half of an operator of the line. -/
theorem beginning_fails_in_half_an_operator_only (s p : Text) (hs : (lex s).failure = none)
    (hp : p <+: s) :
    (lex p).failure = none ∨
      ∃ front c kind, HalfOf c kind ∧ p = front ++ [c] ∧
        (lex p).failure = some ⟨c, Position.origin.after front⟩ ∧
        ∃ ts, (lex s).tokens = (lex p).tokens
          ++ ⟨kind, [c, c], ⟨Position.origin.after front, Position.origin.after (front ++ [c, c])⟩⟩ :: ts := by
  obtain ⟨u, rfl⟩ := hp
  rcases cut_of_beginning p u (failure_eq_none_iff.1 hs) with hfine | ⟨gap, c, kind, hends⟩
  · exact Or.inl (failure_eq_none_iff.2 hfine)
  · obtain ⟨after, hafter⟩ := hends.goes_on
    have htext := text_cut p
    rw [hends.tail, ← List.append_assoc] at htext
    have hplace : placeEnd .origin (cut .root p).lexemes
        = Position.origin.after (Lexeme.textOf (cut .root p).lexemes) := placeEnd_eq _ _
    refine Or.inr ⟨Lexeme.textOf (cut .root p).lexemes ++ gap, c, kind, hends.half, htext.symm, ?_, ?_⟩
    · rw [lex, lexFrom_eq, hends.stuck, hplace, Position.after_append]
      rfl
    · refine ⟨tokensAt (Position.origin.after (Lexeme.textOf (cut .root p).lexemes ++ gap ++ [c, c])) after, ?_⟩
      rw [tokens_lex, tokens_lex, hafter, tokensAt_append, tokensAt_cons, hplace, Position.after_append,
        Position.after_append, Position.after_append]

/-- The second half of the operator is still to be typed. -/
theorem beginning_fails_in_half_an_operator_only_here :
    (lex "x || #a".toList).failure = none ∧ "x |".toList <+: "x || #a".toList ∧
      ∃ front c kind, HalfOf c kind ∧ "x |".toList = front ++ [c] ∧
        (lex "x |".toList).failure = some ⟨c, Position.origin.after front⟩ ∧
        ∃ ts, (lex "x || #a".toList).tokens = (lex "x |".toList).tokens
          ++ ⟨kind, [c, c], ⟨Position.origin.after front, Position.origin.after (front ++ [c, c])⟩⟩ :: ts := by
  have hs : (lex "x || #a".toList).failure = none := by decide +kernel
  have hp : "x |".toList <+: "x || #a".toList := by decide
  have hfails : (lex "x |".toList).failure ≠ none := by decide +kernel
  exact ⟨hs, hp, (beginning_fails_in_half_an_operator_only _ _ hs hp).resolve_left hfails⟩

/-- A field, a quotation and what no rule accepts inside it, as they are typed. -/
example : ∀ p ∈ "set 3 +due : \"a $\" !id".toList.inits, (lex p).failure = none := by decide +kernel

end Agenda.Lexer
