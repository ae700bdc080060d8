import Agenda.Proofs.Lexer.Ends
import Agenda.Proofs.Lexer.OpenString
import Agenda.Proofs.ValueRun
/-!
# Runs that are joined and cut again

A value run joins its tokens with one space between neighbours, or with none where one of them sticks. Cut
again, a joined run without quotes gives the same tokens. A field with its colon, a colon, a comma, a
parenthesis and an operator are the same token before every text; all other tokens are word characters after
their first, which end before a blank, a colon or a comma, and which become a field only before a colon. So
it is enough that the text after a token goes on no word, and that a colon comes next only where one did
before (`Replaces`).

`CutsInto` says what a text without quotes is cut into, by one rule for each token; the run is taken by
induction on it.

Results: `stands_of_rule`; `cutsInto_spread`; `joined_run_is_cut_again`.
-/
namespace Agenda.Lexer

open Text (isBlank)
open ValueRun (spread join sticksBefore sticksAfter)

/-! ## Tokens before another text -/

/-- The text `v` may take the place of `u` after a token: it goes on no word, and a colon comes next only if
one comes next in `u`. -/
structure Replaces (v u : Text) : Prop where
  breaks : Breaks v
  colon : (v.dropWhile isBlank).head? = some ':' → (u.dropWhile isBlank).head? = some ':'

/-- A field with its colon, cut off from what comes after it, is one before every text. -/
theorem fieldColon?_take_append {s : Text} {n : Nat} (h : fieldColon? s = some n) (v : Text) :
    fieldColon? (s.take n ++ v) = some n := by
  obtain ⟨w, hw, blanks, hb, htake⟩ := take_fieldColon? h
  have hn : n = w.length + blanks.length + 1 := by
    have hlength := congrArg List.length htake
    rw [List.length_take_of_le (length_fieldColon?_le h)] at hlength
    simpa [Nat.add_assoc] using hlength
  refine fieldColon?_eq_some_iff.2 ⟨w, hw, blanks, v, hb, ?_, hn⟩
  rw [htake]
  simp

/-- A word that makes no field before a text makes none before one that may take its place. -/
theorem fieldColon?_replaced {x u v : Text} (hx : ∀ c ∈ x, isWordChar c = true) (hv : Replaces v u)
    (h : fieldColon? (x ++ u) = none) : fieldColon? (x ++ v) = none := by
  rw [Option.eq_none_iff_forall_ne_some]
  intro n hn
  obtain ⟨w, hw, blanks, rest, hb, hs, -⟩ := fieldColon?_eq_some_iff.1 hn
  have hword := congrArg (List.takeWhile isWordChar) hs
  rw [takeWhile_exact hx hv.breaks,
    takeWhile_exact (isWordChar_of_mem_words hw) (breaks_of_colon hb rest)] at hword
  subst hword
  have hcolon : (v.dropWhile isBlank).head? = some ':' := by
    rw [List.append_cancel_left hs, List.dropWhile_append_of_pos hb]
    rfl
  obtain ⟨m, hm⟩ := exists_fieldColon? hw (hv.colon hcolon)
  rw [hm] at h
  cases h

/-! ## Rules before another text -/

/-- What a rule takes of a text is word characters, and it takes them again before what may come after them
instead. -/
structure Settles (rule : Text → TokenKind × Nat) (r : Text) : Prop where
  wordChars : ∀ d ∈ r.take (rule r).2, isWordChar d = true
  again : ∀ v, Replaces v (r.drop (rule r).2) → rule (r.take (rule r).2 ++ v) = rule r

/-- A rule that takes nothing of a text. -/
theorem settles_of_zero {rule : Text → TokenKind × Nat} {r : Text} (hzero : (rule r).2 = 0)
    (hagain : ∀ v, Replaces v r → rule v = rule r) : Settles rule r := by
  refine ⟨?_, ?_⟩
  · rw [hzero]
    simp
  · rw [hzero]
    exact hagain

/-- A rule that takes the word characters of one class at the start of a text. -/
theorem settles_of_takeWhile {rule : Text → TokenKind × Nat} {r : Text} {kind : TokenKind}
    {p : Char → Bool} (hp : ∀ d, p d = true → isWordChar d = true)
    (hrule : rule r = (kind, (r.takeWhile p).length))
    (hagain : ∀ v, Replaces v (r.dropWhile p) →
      rule (r.takeWhile p ++ v) = (kind, (r.takeWhile p).length)) : Settles rule r := by
  refine ⟨?_, ?_⟩
  · rw [hrule, take_length_takeWhile]
    exact fun d hd => hp d (List.mem_takeWhile_imp hd)
  · rw [hrule, take_length_takeWhile, drop_length_takeWhile]
    exact hagain

theorem settles_hashRule (r : Text) : Settles hashRule r := by
  cases r with
  | nil => exact settles_of_zero rfl fun v hv => hashRule_append hv.breaks []
  | cons d r =>
    by_cases hd : d.isDigit = true
    · have hrule : hashRule (d :: r) = (.hashNumber, ((d :: r).takeWhile Char.isDigit).length) := by
        simp [hashRule, hd]
      refine settles_of_takeWhile (fun _ => isWordChar_of_isDigit) hrule fun v hv => ?_
      rw [hashRule_append hv.breaks]
      simp [hashRule, hd, List.takeWhile_idem]
    · by_cases ht : isTagStart d = true
      · have hrule : hashRule (d :: r) = (.projectTag, ((d :: r).takeWhile isWordChar).length) := by
          simp [hashRule, hd, ht, wordLength]
        refine settles_of_takeWhile (fun _ => id) hrule fun v hv => ?_
        rw [hashRule_append hv.breaks]
        simp [hashRule, hd, ht, isWordChar_of_isTagStart ht, wordLength, List.takeWhile_idem]
      · have hrule : hashRule (d :: r) = (.projectMark, 0) := by simp [hashRule, hd, ht]
        refine settles_of_zero (by rw [hrule]) fun v hv => ?_
        rw [hrule]
        exact hashRule_append hv.breaks []

theorem settles_atRule (r : Text) : Settles atRule r := by
  cases r with
  | nil => exact settles_of_zero rfl fun v hv => atRule_append hv.breaks []
  | cons d r =>
    by_cases ht : isTagStart d = true
    · have hrule : atRule (d :: r) = (.contextTag, ((d :: r).takeWhile isWordChar).length) := by
        simp [atRule, ht, wordLength]
      refine settles_of_takeWhile (fun _ => id) hrule fun v hv => ?_
      rw [atRule_append hv.breaks]
      simp [atRule, ht, isWordChar_of_isTagStart ht, wordLength, List.takeWhile_idem]
    · have hrule : atRule (d :: r) = (.contextMark, 0) := by simp [atRule, ht]
      refine settles_of_zero (by rw [hrule]) fun v hv => ?_
      rw [hrule]
      exact atRule_append hv.breaks []

theorem settles_bangRule (r : Text) : Settles bangRule r := by
  cases hn : fieldWord? r with
  | none =>
    have hrule : bangRule r = (.clearOp, 0) := by rw [bangRule, hn]
    refine settles_of_zero (by rw [hrule]) fun v hv => ?_
    rw [hrule]
    exact bangRule_append hv.breaks []
  | some n =>
    have hrule : bangRule r = (.clearField, n) := by rw [bangRule, hn]
    obtain ⟨w, hw, htake⟩ := take_fieldWord? hn
    have hlength : w.length = n := by
      rw [← htake, List.length_take]
      exact Nat.min_eq_left (length_fieldWord?_le hn)
    refine ⟨?_, fun v hv => ?_⟩
    · rw [hrule, htake]
      exact isWordChar_of_mem_words hw
    · rw [bangRule_append hv.breaks, hrule, htake, bangRule, fieldWord?_word hw, hlength]

/-- A sign that no field comes after. -/
theorem settles_signRule {field alone : TokenKind} {r : Text} (h : fieldColon? r = none) :
    Settles (signRule field alone) r := by
  have hrule : signRule field alone r = (alone, 0) := by rw [signRule, h]
  refine settles_of_zero (by rw [hrule]) fun v hv => ?_
  have hfield : fieldColon? ([] ++ v) = none := fieldColon?_replaced (by simp) hv h
  rw [hrule, signRule, show fieldColon? v = none from hfield]

/-- A word that is no field. -/
theorem settles_wordRule {c : Char} {r : Text} (hc : isWordStart c = true)
    (h : fieldColon? (c :: r) = none) : Settles (wordRule c) r := by
  have hword : ∀ d ∈ r.takeWhile isWordChar, isWordChar d = true := fun d hd => List.mem_takeWhile_imp hd
  refine settles_of_takeWhile (fun _ => id) (by rw [wordRule, h, wordLength]) fun v hv => ?_
  have hfield : fieldColon? (c :: r.takeWhile isWordChar ++ v) = none := by
    refine fieldColon?_replaced (List.forall_mem_cons.2 ⟨by simp [isWordChar, hc], hword⟩) hv ?_
    rw [List.cons_append, List.takeWhile_append_dropWhile, h]
  rw [wordRule, ← List.cons_append, hfield, wordLength, takeWhile_exact hword hv.breaks]

/-- How the token that begins with `c` and goes on in `r` stands in its text. -/
inductive Stands (c : Char) (r : Text) (out : TokenKind × Nat) : Prop
  /-- It is the same before every text. -/
  | firm (again : ∀ v, rootRule c (r.take out.2 ++ v) = some out)
  /-- It has no blank, colon or comma in it, and is the same before what may take the place of what comes
  after it. -/
  | plain (chars : ∀ d ∈ c :: r.take out.2, IsPlainChar d)
      (again : ∀ v, Replaces v (r.drop out.2) → rootRule c (r.take out.2 ++ v) = some out)

theorem Settles.stands {rule : Text → TokenKind × Nat} {r : Text} (h : Settles rule r) {c : Char}
    (hc : IsPlainChar c) (hrule : ∀ s, rootRule c s = some (rule s)) : Stands c r (rule r) :=
  .plain (List.forall_mem_cons.2 ⟨hc, fun d hd => isPlainChar_of_isWordChar (h.wordChars d hd)⟩)
    fun v hv => by rw [hrule, h.again v hv]

theorem stands_signRule {c : Char} {field alone : TokenKind} (hc : IsPlainChar c)
    (hrule : ∀ s, rootRule c s = some (signRule field alone s)) (r : Text) :
    Stands c r (signRule field alone r) := by
  cases hn : fieldColon? r with
  | none => exact (settles_signRule hn).stands hc hrule
  | some n =>
    have hsign : signRule field alone r = (field, n) := by rw [signRule, hn]
    rw [hsign]
    refine .firm fun v => ?_
    rw [hrule, signRule, fieldColon?_take_append hn]

theorem stands_wordRule {c : Char} (hc : isWordStart c = true)
    (hrule : ∀ s, rootRule c s = some (wordRule c s)) (r : Text) : Stands c r (wordRule c r) := by
  cases hn : fieldColon? (c :: r) with
  | none =>
    have hword : isWordChar c = true := by simp [isWordChar, hc]
    exact (settles_wordRule hc hn).stands (isPlainChar_of_isWordChar hword) hrule
  | some n =>
    obtain ⟨m, rfl⟩ := Nat.exists_eq_succ_of_ne_zero (ne_zero_of_fieldColon? hn)
    have hfield (v : Text) : fieldColon? (c :: (r.take m ++ v)) = some (m + 1) :=
      fieldColon?_take_append hn v
    refine .firm fun v => ?_
    simp only [hrule, wordRule, hn, Nat.succ_sub_one, hfield]

theorem stands_of_doubledRule {kind : TokenKind} {c : Char} {r : Text} {out : TokenKind × Nat}
    (hrule : ∀ s, rootRule c s = doubledRule kind c s) (h : doubledRule kind c r = some out) :
    Stands c r out := by
  refine .firm fun v => ?_
  rw [hrule]
  unfold doubledRule at h
  split at h
  · next hhead =>
    cases h
    obtain ⟨r', rfl⟩ := List.head?_eq_some_iff.1 hhead
    simp [doubledRule]
  · cases h

/-- Outside quotations every token stands in one of the two ways. -/
theorem stands_of_rule {c : Char} {r : Text} {out : TokenKind × Nat} (h : rootRule c r = some out)
    (hc : c ≠ '"') : Stands c r out := by
  cases applies_of_rootRule h with
  | quote => exact absurd rfl hc
  | hash => exact (settles_hashRule r).stands (isPlainChar_of_sign _ (by decide)) fun _ => rfl
  | context => exact (settles_atRule r).stands (isPlainChar_of_sign _ (by decide)) fun _ => rfl
  | plus | minus => exact stands_signRule (isPlainChar_of_sign _ (by decide)) (fun _ => rfl) r
  | bang => exact (settles_bangRule r).stands (isPlainChar_of_sign _ (by decide)) fun _ => rfl
  | ampersand hr | bar hr => exact stands_of_doubledRule (fun _ => rfl) hr
  | word _ hword hrule => exact stands_wordRule hword hrule r
  | _ => exact .firm fun _ => rfl

/-! ## Texts and the tokens they are cut into -/

/-- The text is cut into the tokens, and no quotation begins in it. -/
inductive CutsInto : Text → List Token → Prop
  | blank {s : Text} (h : ∀ c ∈ s, isBlank c = true) : CutsInto s []
  | token {gap x u : Text} {c : Char} {kind : TokenKind} {ts : List Token}
      (hgap : ∀ d ∈ gap, isBlank d = true) (h : rootRule c (x ++ u) = some (kind, x.length)) (hc : c ≠ '"')
      (rest : CutsInto u ts) : CutsInto (gap ++ (c :: x ++ u)) (⟨kind, c :: x, .zero⟩ :: ts)

/-- What a text without quotes is cut into, to its end. -/
theorem cutsInto_cut {s : Text} (hquote : '"' ∉ s) (hs : (cut .root s).stuck = none) :
    CutsInto s ((cut .root s).lexemes.map Lexeme.token) := by
  generalize hst : State.root = st at hs ⊢
  induction st, s using cut.induct with
  | case1 st s h =>
    subst hst
    rw [cut_of_done h]
    exact .blank (blank_of_step_done h)
  | case2 st s gap c h => rw [cut_of_stuck h] at hs; cases hs
  | case3 st s gap kind text rest next h ih =>
    subst hst
    rw [cut_of_take h] at hs ⊢
    have hgap := step_take_gap h
    obtain ⟨hsplit, -⟩ := step_take_eq h
    obtain ⟨c, r, n, -, hrule, -, rfl, rfl, rfl⟩ := rule_of_step_root h
    have hc : c ≠ '"' := by
      rintro rfl
      exact hquote (by rw [hsplit]; simp)
    have hkind : kind ≠ .quoteStart := ne_quoteStart_of_closed (not_string_of_rule hrule hc).2
    rw [after_root hkind] at ih hs ⊢
    have hlength : (r.take n).length = n := List.length_take_of_le (length_rootRule_le hrule)
    have htoken : rootRule c (r.take n ++ r.drop n) = some (kind, (r.take n).length) := by
      rw [List.take_append_drop, hlength, hrule]
    have hrest := ih (fun hmem => hquote (hsplit ▸ List.mem_append_right _ hmem)) rfl hs
    have := CutsInto.token hgap htoken hc hrest
    rw [← List.append_assoc, ← hsplit] at this
    exact this

/-- The cut of a text that is cut into tokens. -/
theorem CutsInto.cut_eq {s : Text} {ts : List Token} (h : CutsInto s ts) :
    (cut .root s).stuck = none ∧ (cut .root s).lexemes.map Lexeme.token = ts := by
  induction h with
  | blank h =>
    have hstep := cut_blank_append h []
    rw [List.append_nil, cut_nil] at hstep
    rw [hstep]
    exact ⟨rfl, rfl⟩
  | token hgap h hc rest ih =>
    rw [cut_blank_append hgap, cut_of_rule h (not_string_of_rule h hc).2]
    exact ⟨ih.1, congrArg _ ih.2⟩

/-! ## Joined runs -/

/-- Outside quotations a token adds its text to a value. -/
theorem value_of_rule {c : Char} {r : Text} {kind : TokenKind} {n : Nat}
    (h : rootRule c r = some (kind, n)) (hc : c ≠ '"') (text : Text) (span : Span) :
    Token.value ⟨kind, text, span⟩ = text := if_neg (not_string_of_rule h hc).1

/-- What sticks to the token before it begins with a colon or a comma. -/
theorem sticksBefore_iff {c : Char} {r : Text} {kind : TokenKind} {n : Nat}
    (h : rootRule c r = some (kind, n)) (text : Text) (span : Span) :
    sticksBefore ⟨kind, text, span⟩ = true ↔ c = ':' ∨ c = ',' := by
  have hsolid := (shape_rootRule h).solid
  constructor
  · intro hsticks
    rw [sticksBefore, Bool.or_eq_true, beq_iff_eq, beq_iff_eq] at hsticks
    rcases hsticks with rfl | rfl
    · rcases (hsolid rfl).glue with ⟨-, htext⟩ | ⟨hk, -⟩ | ⟨⟨hk, -⟩, -⟩
      · exact Or.inl (List.cons.inj htext).1
      · cases hk
      · exact absurd rfl hk
    · rcases (hsolid rfl).glue with ⟨hk, -⟩ | ⟨-, htext⟩ | ⟨⟨-, hk⟩, -⟩
      · cases hk
      · exact Or.inr (List.cons.inj htext).1
      · exact absurd rfl hk
  · rintro (rfl | rfl)
    · cases Option.some.inj h
      rfl
    · cases Option.some.inj h
      rfl

/-- A run after text may take the place of the text that its tokens come from. -/
theorem CutsInto.replaces {u : Text} {ts : List Token} (h : CutsInto u ts) :
    Replaces (spread true false ts) u := by
  cases h with
  | blank => exact ⟨separates_nil.breaks, fun hcolon => by cases hcolon⟩
  | @token gap x u c kind ts hgap h hc rest =>
    have hblank := isBlank_eq_false_of_rule h
    have hsticks := sticksBefore_iff h (c :: x) .zero
    rw [ValueRun.spread, value_of_rule h hc]
    by_cases hglue : c = ':' ∨ c = ','
    · rw [hsticks.2 hglue]
      refine ⟨?_, fun hcolon => ?_⟩
      · rcases hglue with rfl | rfl <;> exact fun d hd => by cases hd; decide
      · rw [List.dropWhile_append_of_pos hgap]
        simpa [hblank] using hcolon
    · have hseparates : Separates (' ' :: (c :: x ++ spread true (sticksAfter ⟨kind, c :: x, .zero⟩) ts)) :=
        Opens.separates ⟨c, _, rfl, hblank, fun hcolon => hglue (Or.inl hcolon)⟩
      rw [Bool.eq_false_iff.2 (mt hsticks.1 hglue)]
      exact ⟨hseparates.breaks, fun hcolon => absurd hcolon hseparates.colon⟩

/-- A token of a text keeps to itself before the run of the tokens after it. -/
theorem rootRule_spread {c : Char} {x u : Text} {kind : TokenKind} {ts : List Token}
    (h : rootRule c (x ++ u) = some (kind, x.length)) (hc : c ≠ '"') (hrest : CutsInto u ts) :
    rootRule c (x ++ spread true (sticksAfter ⟨kind, c :: x, .zero⟩) ts) = some (kind, x.length) := by
  have hstands := stands_of_rule h hc
  cases hstands with
  | firm again =>
    rw [List.take_left] at again
    exact again _
  | plain chars again =>
    rw [List.take_left] at chars again
    rw [List.drop_left] at again
    have hbefore : sticksBefore ⟨kind, c :: x, .zero⟩ = false := by
      rw [Bool.eq_false_iff, ne_eq, sticksBefore_iff h, not_or]
      exact (chars c List.mem_cons_self).2
    have hafter : sticksAfter ⟨kind, c :: x, .zero⟩ = false := by
      have hlast : (c :: x).getLast? ≠ some ':' :=
        fun hlast => (chars ':' (List.mem_of_getLast? hlast)).2.1 rfl
      rw [sticksAfter, hbefore, Bool.false_or, beq_false_of_ne hlast, Bool.and_false]
    rw [hafter]
    exact again _ hrest.replaces

/-- The run of the tokens that a text is cut into is cut into them as well. -/
theorem cutsInto_spread {s : Text} {ts : List Token} (h : CutsInto s ts) (begun glued : Bool) :
    CutsInto (spread begun glued ts) ts := by
  induction h generalizing begun glued with
  | blank => exact .blank (by simp [ValueRun.spread])
  | @token gap x u c kind ts hgap h hc rest ih =>
    rw [ValueRun.spread, value_of_rule h hc, List.append_assoc, List.isEmpty_cons, Bool.not_false,
      Bool.or_true]
    refine .token ?_ (rootRule_spread h hc rest) hc (ih _ _)
    split
    · exact List.forall_mem_singleton.2 (by decide)
    · simp

theorem CutsInto.trimmed_of_mem {s : Text} {ts : List Token} (h : CutsInto s ts) :
    ∀ t ∈ ts, t.value ≠ [] ∧ Text.Trimmed t.value := by
  induction h with
  | blank => simp
  | @token gap x u c kind ts hgap h hc rest ih =>
    have htrimmed := trimmed_of_rootRule h
    rw [List.take_left] at htrimmed
    refine List.forall_mem_cons.2 ⟨?_, ih⟩
    rw [value_of_rule h hc]
    exact ⟨by simp, htrimmed⟩

/-- No blank stands at either end of a run. -/
theorem CutsInto.join_eq {s : Text} {ts : List Token} (h : CutsInto s ts) :
    join ts = spread false false ts := by
  refine Text.Trimmed.trim_eq ⟨fun c hc => ?_, fun c hc => ?_⟩
  · cases ts with
    | nil => cases hc
    | cons t ts =>
      obtain ⟨hne, htrimmed⟩ := h.trimmed_of_mem t (by simp)
      rw [ValueRun.head?_spread false ts hne] at hc
      exact htrimmed.left c hc
  · rcases List.eq_nil_or_concat ts with rfl | ⟨front, t, rfl⟩
    · cases hc
    · rw [List.concat_eq_append] at h hc
      obtain ⟨hne, htrimmed⟩ := h.trimmed_of_mem t (by simp)
      rw [ValueRun.getLast?_spread false false front hne] at hc
      exact htrimmed.right c hc

/-- The tokens of a line without quotes, joined and cut again: nothing fails, and kinds and texts are what
they were, so that they join to the same value. -/
theorem joined_run_is_cut_again (s : Text) (hquote : '"' ∉ s) (hs : (lex s).failure = none) :
    (lex (join (lex s).tokens)).failure = none ∧
      (lex (join (lex s).tokens)).tokens.map (fun t => (t.kind, t.text))
        = (lex s).tokens.map (fun t => (t.kind, t.text)) ∧
      join (lex (join (lex s).tokens)).tokens = join (lex s).tokens := by
  have hstuck : (cut .root s).stuck = none := by
    rw [← Option.isNone_iff_eq_none, ← failure_lex, hs]
    rfl
  have hcuts := cutsInto_cut hquote hstuck
  have hjoin : join (lex s).tokens = join ((cut .root s).lexemes.map Lexeme.token) := by
    rw [tokens_lex, ValueRun.join_tokensAt]
  have hagain := cutsInto_spread hcuts false false
  rw [← hcuts.join_eq, ← hjoin] at hagain
  obtain ⟨hnone, htokens⟩ := hagain.cut_eq
  have hunplaced : (lex (join (lex s).tokens)).tokens.map Token.unplaced
      = (lex s).tokens.map Token.unplaced := by
    rw [tokens_lex, tokens_lex, unplaced_tokensAt, unplaced_tokensAt, ← tokens_lex, htokens]
  refine ⟨?_, ?_, ?_⟩
  · rw [← Option.isNone_iff_eq_none, failure_lex, hnone]
    rfl
  · have hpairs := congrArg (List.map fun t => (t.kind, t.text)) hunplaced
    rw [List.map_map, List.map_map] at hpairs
    exact hpairs
  · rw [← ValueRun.join_unplaced, hunplaced, ValueRun.join_unplaced]

/-- Spaces go from colons and commas and come between a number and a letter. -/
theorem joined_run_is_cut_again_of_signs :
    join (lex "waiting-for : sam , -due :x ! due #5a : b".toList).tokens
        = "waiting-for :sam,-due :x ! due #5 a:b".toList ∧
      (lex "waiting-for :sam,-due :x ! due #5 a:b".toList).tokens.map (fun t => (t.kind, t.text))
        = (lex "waiting-for : sam , -due :x ! due #5a : b".toList).tokens.map fun t => (t.kind, t.text) := by
  have hjoin : join (lex "waiting-for : sam , -due :x ! due #5a : b".toList).tokens
      = "waiting-for :sam,-due :x ! due #5 a:b".toList := by decide +kernel
  have hagain := (joined_run_is_cut_again "waiting-for : sam , -due :x ! due #5a : b".toList (by decide)
    (by decide +kernel)).2.1
  rw [hjoin] at hagain
  exact ⟨hjoin, hagain⟩

end Agenda.Lexer
