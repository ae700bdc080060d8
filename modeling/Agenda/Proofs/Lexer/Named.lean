import Agenda.Proofs.Field
import Agenda.Proofs.Lexer.Shape
import Agenda.Proofs.Text.Trim
/-!
# What field tokens and numbers say

Outside an open string a token comes from the rule for its first character. So a field token is a field word
with a sign in front, and, unless it is a clearing, with a colon behind, which blanks may part from the word;
and a number token is a hash and digits.

Results: `exists_rule_of_mem_tokens`; the key of a field token is that of a field word
(`exists_word_of_mem_tokens`), which names a field of a task or is one of the two that occur in filters only
(`Field.unalias_cases`); a number token has digits after its hash (`digits_of_mem_tokens`).
-/
namespace Agenda

/-! ## Keys -/

namespace Field

open Text (isBlank)

/-- Blanks between a field word and its colon are no part of its key either. -/
theorem key_of_spaced_word {w signs blanks : Text} (hw : w ∈ words) (hs : signs.all isSign = true)
    (hb : ∀ c ∈ blanks, isBlank c = true) : key (signs ++ w ++ blanks ++ [':']) = unalias w := by
  have hfix := List.all_eq_true.1 key_fixes_words w hw
  simp only [Bool.and_eq_true, decide_eq_true_eq, beq_iff_eq] at hfix
  obtain ⟨⟨⟨hne, hstart⟩, hend⟩, hlower⟩ := hfix
  have hsigns : (signs ++ w ++ blanks ++ [':']).dropWhile isSign = w ++ blanks ++ [':'] := by
    rw [List.append_assoc signs, List.append_assoc signs,
      List.dropWhile_append_of_pos (List.all_eq_true.1 hs), List.append_assoc w,
      Lexer.dropWhile_append_of_ne_nil _ (by rw [hstart]; exact hne), hstart]
  have hcolon : Text.dropRightWhile (· == ':') (w ++ blanks ++ [':']) = w ++ blanks := by
    rw [dropRightWhile_append_of_pos _ (by simp)]
    rcases List.eq_nil_or_concat blanks with rfl | ⟨front, c, rfl⟩
    · rw [List.append_nil, hend]
    · have hc : ¬ (c == ':') = true := by
        have hblank : isBlank c = true := hb c (by simp)
        rw [beq_iff_eq]
        rintro rfl
        revert hblank
        decide
      rw [List.concat_eq_append, ← List.append_assoc]
      exact List.rdropWhile_concat_neg _ _ _ hc
  have hleft : Text.trimLeft w ≠ [] := by
    intro hnil
    rw [Text.trim, hnil] at hlower
    exact hne hlower.symm
  have htrim : Text.trim (w ++ blanks) = Text.trim w := by
    rw [Text.trim, Text.trimLeft, Lexer.dropWhile_append_of_ne_nil blanks hleft, Text.trimRight,
      dropRightWhile_append_of_pos _ hb]
    rfl
  show unalias (Text.lower (Text.trim
    (Text.dropRightWhile (· == ':') ((signs ++ w ++ blanks ++ [':']).dropWhile isSign)))) = unalias w
  rw [hsigns, hcolon, htrim, hlower]

theorem ofName?_eq_some_iff {s : Text} {f : Field} : ofName? s = some f ↔ s = f.name := by
  constructor
  · intro h
    have hname := List.find?_some h
    rw [beq_iff_eq] at hname
    exact hname.symm
  · rintro rfl
    exact f.ofName?_name

/-- The keys of predicates that are no fields of a task. -/
def filterKeys : List Text := ["id".toList, "text".toList]

theorem name_not_mem_filterKeys (f : Field) : f.name ∉ filterKeys := by cases f <;> decide

/-- The key of a field word names a field of a task, or occurs in filters only. -/
theorem unalias_cases {w : Text} (hw : w ∈ words) :
    (ofName? (unalias w)).isSome = !filterKeys.contains (unalias w) := by
  have hall : ∀ w ∈ words, (ofName? (unalias w)).isSome = !filterKeys.contains (unalias w) := by decide
  exact hall w hw

end Field

namespace Lexer

open Text (isBlank)

/-! ## Rules and tokens -/

/-- A lexeme outside an open string comes from the rule for its first character. -/
theorem exists_rule_of_mem_cut {state : State} {s : Text} {l : Lexeme} (h : l ∈ (cut state s).lexemes)
    (hopen : l.kind.isOpenString = false) :
    ∃ c r n, rootRule c r = some (l.kind, n) ∧ l.text = c :: r.take n := by
  induction state, s using cut.induct with
  | case1 state s hs => rw [cut_of_done hs] at h; cases h
  | case2 state s gap c hs => rw [cut_of_stuck hs] at h; cases h
  | case3 state s gap kind text rest next hs ih =>
    rw [cut_of_take hs, Cut.lexemes_prepend, List.singleton_append] at h
    rcases List.mem_cons.1 h with rfl | h
    · cases state with
      | root =>
        obtain ⟨c, r, n, -, hr, -, htext, -, -⟩ := rule_of_step_root hs
        exact ⟨c, r, n, hr, htext⟩
      | string =>
        rw [isOpenString_of_step_string hs] at hopen
        cases hopen
    · exact ih h

theorem exists_rule_of_mem_tokens {s : Text} {t : Token} (h : t ∈ (lex s).tokens)
    (hopen : t.kind.isOpenString = false) :
    ∃ c r n, rootRule c r = some (t.kind, n) ∧ t.text = c :: r.take n := by
  rw [tokens_lex] at h
  obtain ⟨l, hl, he⟩ := exists_of_mem_tokensAt h
  have hkind : l.kind = t.kind := congrArg Token.kind he
  have htext : l.text = t.text := congrArg Token.text he
  rw [← hkind] at hopen ⊢
  rw [← htext]
  exact exists_rule_of_mem_cut hl hopen

/-! ## Fields -/

/-- What is found for a field with its colon. -/
theorem take_fieldColon? {s : Text} {n : Nat} (h : fieldColon? s = some n) :
    ∃ w ∈ Field.words, ∃ blanks : Text, (∀ c ∈ blanks, isBlank c = true) ∧
      s.take n = w ++ blanks ++ [':'] := by
  obtain ⟨w, hw, blanks, rest, hb, rfl, rfl⟩ := fieldColon?_eq_some_iff.1 h
  refine ⟨w, hw, blanks, hb, ?_⟩
  have hs : w ++ (blanks ++ ':' :: rest) = w ++ blanks ++ [':'] ++ rest := by simp
  have hlength : w.length + blanks.length + 1 = (w ++ blanks ++ [':']).length := by simp [Nat.add_assoc]
  rw [hs, hlength, List.take_left]

/-- What is found for a field word by itself. -/
theorem take_fieldWord? {s : Text} {n : Nat} (h : fieldWord? s = some n) :
    ∃ w ∈ Field.words, s.take n = w := by
  obtain ⟨w, hw, hword⟩ := List.exists_of_findSome?_eq_some h
  obtain ⟨rest, rfl, -, rfl⟩ := wholeWord?_eq_some_iff.1 hword
  exact ⟨w, hw, List.take_left⟩

/-- A kind of token that names a field. -/
def namesField (k : TokenKind) : Bool := isFieldKind k || k == .clearField

theorem ne_zero_of_fieldColon? {s : Text} {n : Nat} (h : fieldColon? s = some n) : n ≠ 0 := by
  rintro rfl
  obtain ⟨w, -, blanks, -, htake⟩ := take_fieldColon? h
  simp at htake

theorem key_of_fieldColon? (signs : Text) {s : Text} {n : Nat} (hs : signs.all Field.isSign = true)
    (h : fieldColon? s = some n) :
    ∃ w ∈ Field.words, Field.key (signs ++ s.take n) = Field.unalias w := by
  obtain ⟨w, hw, blanks, hb, htake⟩ := take_fieldColon? h
  refine ⟨w, hw, ?_⟩
  rw [htake, ← List.append_assoc, ← List.append_assoc]
  exact Field.key_of_spaced_word hw hs hb

theorem key_of_signRule {field alone : TokenKind} {sign : Char} {r : Text}
    (hs : Field.isSign sign = true) (halone : namesField alone = false)
    (hk : namesField (signRule field alone r).1 = true) :
    ∃ w ∈ Field.words, Field.key (sign :: r.take (signRule field alone r).2) = Field.unalias w := by
  unfold signRule at hk ⊢
  split at hk
  · next n hn => exact key_of_fieldColon? [sign] (by simpa using hs) hn
  · rw [halone] at hk; cases hk

theorem namesField_quoteRule (r : Text) : namesField (quoteRule r).1 = false := by
  unfold quoteRule
  split <;> rfl

theorem namesField_hashRule (r : Text) : namesField (hashRule r).1 = false := by
  unfold hashRule
  repeat' split
  all_goals rfl

theorem namesField_atRule (r : Text) : namesField (atRule r).1 = false := by
  unfold atRule
  repeat' split
  all_goals rfl

theorem key_of_bangRule {r : Text} (hk : namesField (bangRule r).1 = true) :
    ∃ w ∈ Field.words, Field.key ('!' :: r.take (bangRule r).2) = Field.unalias w := by
  unfold bangRule at hk ⊢
  split at hk
  · next n hn =>
    obtain ⟨w, hw, htake⟩ := take_fieldWord? hn
    have hkey : Field.key (['!'] ++ w ++ []) = Field.unalias w := Field.key_of_word hw rfl rfl
    rw [List.append_nil] at hkey
    refine ⟨w, hw, ?_⟩
    show Field.key (['!'] ++ r.take n) = Field.unalias w
    rw [htake, hkey]
  · cases hk

theorem key_of_wordRule {c : Char} {r : Text} (hk : namesField (wordRule c r).1 = true) :
    ∃ w ∈ Field.words, Field.key (c :: r.take (wordRule c r).2) = Field.unalias w := by
  unfold wordRule at hk ⊢
  split at hk
  · next n hn =>
    obtain ⟨m, rfl⟩ := Nat.exists_eq_succ_of_ne_zero (ne_zero_of_fieldColon? hn)
    have hkey := key_of_fieldColon? [] rfl hn
    rw [List.nil_append, List.take_succ_cons] at hkey
    simpa only [hn, Nat.succ_sub_one] using hkey
  · cases hk

theorem exists_word_of_rule {c : Char} {r : Text} {out : TokenKind × Nat}
    (h : rootRule c r = some out) (hk : namesField out.1 = true) :
    ∃ w ∈ Field.words, Field.key (c :: r.take out.2) = Field.unalias w := by
  cases applies_of_rootRule h with
  | quote => rw [namesField_quoteRule] at hk; cases hk
  | hash => rw [namesField_hashRule] at hk; cases hk
  | context => rw [namesField_atRule] at hk; cases hk
  | plus => exact key_of_signRule rfl rfl hk
  | minus => exact key_of_signRule rfl rfl hk
  | bang => exact key_of_bangRule hk
  | ampersand hr | bar hr =>
    unfold doubledRule at hr
    split at hr <;> cases hr
    cases hk
  | word => exact key_of_wordRule hk
  | _ => cases hk

theorem isOpenString_of_namesField {k : TokenKind} (h : namesField k = true) :
    k.isOpenString = false := by
  revert h
  cases k <;> decide

/-- The key of a field token is that of a field word. -/
theorem exists_word_of_mem_tokens {s : Text} {t : Token} (h : t ∈ (lex s).tokens)
    (hk : namesField t.kind = true) : ∃ w ∈ Field.words, Field.key t.text = Field.unalias w := by
  have hopen : t.kind.isOpenString = false := isOpenString_of_namesField hk
  obtain ⟨c, r, n, hr, htext⟩ := exists_rule_of_mem_tokens h hopen
  have hword := exists_word_of_rule hr hk
  rw [htext]
  exact hword

/-! ## Numbers -/

/-- A hash and digits. -/
theorem digits_of_rule {c : Char} {r : Text} {out : TokenKind × Nat} (h : rootRule c r = some out)
    (hk : out.1 = .hashNumber) : (r.take out.2).all Char.isDigit = true := by
  cases applies_of_rootRule h with
  | hash =>
    unfold hashRule at hk ⊢
    split
    · rfl
    · next d r =>
      split
      · rw [take_length_takeWhile, List.all_eq_true]
        exact fun c hc => List.mem_takeWhile_imp hc
      · next hd =>
        simp only [if_neg hd] at hk
        split at hk <;> cases hk
  | quote => unfold quoteRule at hk; split at hk <;> cases hk
  | context =>
    unfold atRule at hk
    repeat' split at hk
    all_goals cases hk
  | plus | minus => unfold signRule at hk; split at hk <;> cases hk
  | bang => unfold bangRule at hk; split at hk <;> cases hk
  | word => unfold wordRule at hk; split at hk <;> cases hk
  | ampersand hr | bar hr =>
    unfold doubledRule at hr
    split at hr <;> cases hr
    cases hk
  | _ => cases hk

/-- A number token is a hash and digits. -/
theorem digits_of_mem_tokens {s : Text} {t : Token} (h : t ∈ (lex s).tokens)
    (hk : t.kind = .hashNumber) : t.text.tail.all Char.isDigit = true := by
  obtain ⟨c, r, n, hr, htext⟩ := exists_rule_of_mem_tokens h (by rw [hk]; rfl)
  rw [htext]
  exact digits_of_rule hr hk

end Lexer

end Agenda
