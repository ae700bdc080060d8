import Agenda.Lexer.Rule
import Agenda.Proofs.Text.Number
import Mathlib.Data.List.Basic
import Mathlib.Data.List.TakeWhile
import Mathlib.Tactic.Tauto
/-!
# Looking ahead

A token ends where its rule says, and the rules look ahead: a word goes on as long as there are word
characters, and a field word looks over blanks for a colon. A text that begins with neither
(`Separates`) changes nothing about what comes before it.

Results: what is found for a field is a field word, blanks and a colon (`fieldColon?_eq_some_iff`); what
looks ahead finds the same with a separating text behind (`fieldColon?_append`, `fieldWord?_append`,
`wordLength_append`), and a quotation stays closed whatever comes after it (`closingQuote?_append`).
-/
namespace Agenda.Lexer

open Text (isBlank)

/-- A text that goes on no word. -/
def Breaks (u : Text) : Prop := ∀ c, u.head? = some c → isWordChar c = false

/-- A text that goes on with no token before it. -/
structure Separates (u : Text) : Prop where
  breaks : Breaks u
  colon : (u.dropWhile isBlank).head? ≠ some ':'

theorem separates_nil : Separates [] := ⟨fun c h => (by cases h), by simp⟩

/-! ## Character classes -/

theorem isWordChar_of_isTagStart {c : Char} (h : isTagStart c = true) : isWordChar c = true := by
  simp only [isTagStart, isWordChar, isWordStart, Bool.or_eq_true] at *
  tauto

theorem isWordChar_of_isDigit {c : Char} (h : c.isDigit = true) : isWordChar c = true := by
  have hlt : c.toNat < 128 := by have := Text.toNat_of_isDigit h; omega
  simp [isWordChar, isWordStart, Text.isNumeral, hlt, h]

theorem isDigit_eq_false_of_isTagStart {c : Char} (h : isTagStart c = true) : c.isDigit = false := by
  cases hd : c.isDigit with
  | false => rfl
  | true =>
    obtain ⟨h1, h2⟩ := Text.toNat_of_isDigit hd
    have hc : c ≠ '_' := by intro hc; subst hc; cases hd
    simp only [isTagStart, Text.isLetter, Bool.or_eq_true, beq_iff_eq, hc, or_false,
      if_pos (show c.toNat < 128 by omega), Text.isAlpha_eq_inRanges] at h
    simp [Text.inRanges] at h
    omega

theorem isWordChar_eq_false_of_isBlank {c : Char} (h : isBlank c = true) : isWordChar c = false := by
  have h1 := Text.isLetter_eq_false_of_isBlank h
  have h2 := Text.isNumeral_eq_false_of_isBlank h
  have h3 : c ≠ '_' := by intro hc; subst hc; revert h; decide
  have h4 : c ≠ '-' := by intro hc; subst hc; revert h; decide
  simp [isWordChar, isWordStart, h1, h2, h3, h4]

/-! ## Lists of characters -/

theorem takeWhile_append_of_head {p : Char → Bool} (r : Text) {u : Text}
    (hu : ∀ c, u.head? = some c → p c = false) : (r ++ u).takeWhile p = r.takeWhile p := by
  induction r with
  | nil =>
    cases u with
    | nil => rfl
    | cons c u => simp [hu c rfl]
  | cons c r ih => rw [List.cons_append, List.takeWhile_cons, List.takeWhile_cons, ih]

theorem takeWhile_exact {p : Char → Bool} {x u : Text} (hx : ∀ c ∈ x, p c = true)
    (hu : ∀ c, u.head? = some c → p c = false) : (x ++ u).takeWhile p = x := by
  rw [takeWhile_append_of_head x hu, List.takeWhile_eq_self_iff.2 hx]

theorem eq_false_of_dropWhile {p : Char → Bool} {s r : Text} {c : Char} (h : s.dropWhile p = c :: r) :
    p c = false := by
  have hhead := List.head?_dropWhile_not p s
  rw [h] at hhead
  simpa using hhead

theorem dropWhile_append_of_ne_nil {p : Char → Bool} {s : Text} (u : Text)
    (h : s.dropWhile p ≠ []) : (s ++ u).dropWhile p = s.dropWhile p ++ u := by
  rw [List.dropWhile_append, if_neg (by simpa using h)]

theorem takeWhile_append_of_ne_nil {p : Char → Bool} {s : Text} (u : Text)
    (h : s.dropWhile p ≠ []) : (s ++ u).takeWhile p = s.takeWhile p := by
  induction s with
  | nil => exact absurd rfl h
  | cons c s ih =>
    rw [List.cons_append, List.takeWhile_cons, List.takeWhile_cons]
    split
    · next hc => rw [ih (by simpa [hc] using h)]
    · rfl

theorem dropWhile_append_of_cons {p : Char → Bool} {s r : Text} {c : Char} (u : Text)
    (h : s.dropWhile p = c :: r) : (s ++ u).dropWhile p = c :: (r ++ u) := by
  rw [dropWhile_append_of_ne_nil u (by simp [h]), h, List.cons_append]

theorem head?_dropWhile_append {p : Char → Bool} {s : Text} (u : Text) (h : s.dropWhile p ≠ []) :
    ((s ++ u).dropWhile p).head? = (s.dropWhile p).head? := by
  rw [dropWhile_append_of_ne_nil u h, List.head?_append, List.head?_eq_some_head h, Option.some_or]

theorem findSome?_congr {words : List Text} {f g : Text → Option Nat}
    (h : ∀ w ∈ words, f w = g w) : words.findSome? f = words.findSome? g := by
  induction words with
  | nil => rfl
  | cons w ws ih =>
    rw [List.findSome?_cons, List.findSome?_cons, h w (by simp), ih fun v hv => h v (by simp [hv])]

/-! ## Words at the start -/

theorem isPrefixOf?_append_of_some {word s r : Text} (h : word.isPrefixOf? s = some r) (u : Text) :
    word.isPrefixOf? (s ++ u) = some (r ++ u) := by
  rw [List.isPrefixOf?_eq_some_iff_append_eq] at h ⊢
  rw [← h, List.append_assoc]

/-- A word of word characters begins a text before one that goes on no word just when it begins the
text. -/
theorem isPrefixOf?_append {word s u : Text} (hw : ∀ c ∈ word, isWordChar c = true)
    (hu : Breaks u) :
    word.isPrefixOf? (s ++ u) = (word.isPrefixOf? s).map (· ++ u) := by
  cases hs : word.isPrefixOf? s with
  | some r => exact isPrefixOf?_append_of_some hs u
  | none =>
    rw [Option.map_none, Option.eq_none_iff_forall_ne_some]
    intro r hr
    rw [List.isPrefixOf?_eq_some_iff_append_eq, List.append_eq_append_iff] at hr
    rcases hr with ⟨r', hs', -⟩ | ⟨extra, hword, hrest⟩
    · rw [List.isPrefixOf?_eq_some_iff_append_eq.2 hs'.symm] at hs
      cases hs
    · -- what the word has over the text comes from `u`, which begins with no word character
      cases extra with
      | nil =>
        rw [List.append_nil] at hword
        rw [hword, List.isPrefixOf?_eq_some_iff_append_eq.2 (List.append_nil s)] at hs
        cases hs
      | cons c extra =>
        have hbreak := hu c (by rw [hrest]; rfl)
        rw [hw c (by rw [hword]; simp)] at hbreak
        cases hbreak

theorem isWordChar_of_mem_words {word : Text} (h : word ∈ Field.words) :
    ∀ c ∈ word, isWordChar c = true := by
  have hall : (Field.words.all fun w => w.all isWordChar) = true := by decide
  exact List.all_eq_true.1 (List.all_eq_true.1 hall word h)

/-! ## A colon after a field word -/

theorem colonAfter?_append {word s u : Text} (hw : word ∈ Field.words) (hu : Separates u) :
    colonAfter? word (s ++ u) = colonAfter? word s := by
  unfold colonAfter?
  rw [isPrefixOf?_append (isWordChar_of_mem_words hw) hu.breaks]
  cases word.isPrefixOf? s with
  | none => rfl
  | some r =>
    simp only [Option.map_some, Option.bind_eq_bind, Option.bind_some]
    by_cases hr : r.dropWhile isBlank = []
    · have hall : (r ++ u).dropWhile isBlank = u.dropWhile isBlank := by
        rw [List.dropWhile_append, if_pos (by simp [hr])]
      rw [hall, hr, if_neg hu.colon, if_neg (by simp)]
    · rw [head?_dropWhile_append u hr, takeWhile_append_of_ne_nil u hr]

theorem fieldColon?_append {s u : Text} (hu : Separates u) :
    fieldColon? (s ++ u) = fieldColon? s :=
  findSome?_congr fun _ hw => colonAfter?_append hw hu

/-- A given word before a colon: there are but blanks between them. -/
theorem colonAfter?_eq_some_iff {word s : Text} {n : Nat} :
    colonAfter? word s = some n ↔ ∃ blanks rest : Text, (∀ c ∈ blanks, isBlank c = true) ∧
      s = word ++ (blanks ++ ':' :: rest) ∧ n = word.length + blanks.length + 1 := by
  unfold colonAfter?
  constructor
  · intro h
    cases hp : word.isPrefixOf? s with
    | none => rw [hp] at h; cases h
    | some r =>
      simp only [hp, Option.bind_eq_bind, Option.bind_some] at h
      split at h
      · next hc =>
        cases h
        obtain ⟨rest, hrest⟩ := List.head?_eq_some_iff.1 hc
        refine ⟨r.takeWhile isBlank, rest, fun c hc => List.mem_takeWhile_imp hc, ?_, rfl⟩
        rw [← hrest, List.takeWhile_append_dropWhile, List.isPrefixOf?_eq_some_iff_append_eq.1 hp]
      · cases h
  · rintro ⟨blanks, rest, hb, rfl, rfl⟩
    have hstart : word.isPrefixOf? (word ++ (blanks ++ ':' :: rest)) = some (blanks ++ ':' :: rest) :=
      List.isPrefixOf?_eq_some_iff_append_eq.2 rfl
    have hcolon : isBlank ':' = false := by decide
    simp [hstart, List.takeWhile_append_of_pos hb, List.dropWhile_append_of_pos hb, hcolon]

theorem breaks_of_colon {blanks : Text} (hb : ∀ c ∈ blanks, isBlank c = true) (rest : Text) :
    Breaks (blanks ++ ':' :: rest) := by
  intro c hc
  cases blanks with
  | nil => cases hc; decide
  | cons b bs =>
    cases hc
    exact isWordChar_eq_false_of_isBlank (hb _ List.mem_cons_self)

/-- Whichever field word is found before a colon, the length is the same. -/
theorem colonAfter?_unique {w v s : Text} {n m : Nat} (hw : w ∈ Field.words) (hv : v ∈ Field.words)
    (hn : colonAfter? w s = some n) (hm : colonAfter? v s = some m) : n = m := by
  obtain ⟨b, r, hb, rfl, rfl⟩ := colonAfter?_eq_some_iff.1 hn
  obtain ⟨b', r', hb', hs, rfl⟩ := colonAfter?_eq_some_iff.1 hm
  have hcolon (r : Text) : ∀ c, (':' :: r).head? = some c → isBlank c = false := by
    intro c hc
    cases hc
    decide
  have hword := congrArg (List.takeWhile isWordChar) hs
  rw [takeWhile_exact (isWordChar_of_mem_words hw) (breaks_of_colon hb r),
    takeWhile_exact (isWordChar_of_mem_words hv) (breaks_of_colon hb' r')] at hword
  subst hword
  have hblanks := congrArg (List.takeWhile isBlank) (List.append_cancel_left hs)
  rw [takeWhile_exact hb (hcolon r), takeWhile_exact hb' (hcolon r')] at hblanks
  rw [hblanks]

/-- What is found for a field with its colon: a field word, blanks and the colon. -/
theorem fieldColon?_eq_some_iff {s : Text} {n : Nat} :
    fieldColon? s = some n ↔ ∃ w ∈ Field.words, ∃ blanks rest : Text, (∀ c ∈ blanks, isBlank c = true) ∧
      s = w ++ (blanks ++ ':' :: rest) ∧ n = w.length + blanks.length + 1 := by
  simp only [← colonAfter?_eq_some_iff]
  constructor
  · exact List.exists_of_findSome?_eq_some
  · rintro ⟨w, hw, hn⟩
    cases hf : fieldColon? s with
    | none =>
      rw [List.findSome?_eq_none_iff.1 hf w hw] at hn
      cases hn
    | some m =>
      obtain ⟨v, hv, hm⟩ := List.exists_of_findSome?_eq_some hf
      rw [colonAfter?_unique hv hw hm hn]

/-- A field with its colon stays one whatever comes after it. -/
theorem fieldColon?_append_of_some {s : Text} {n : Nat} (h : fieldColon? s = some n) (u : Text) :
    fieldColon? (s ++ u) = some n := by
  obtain ⟨w, hw, blanks, rest, hb, rfl, hn⟩ := fieldColon?_eq_some_iff.1 h
  exact fieldColon?_eq_some_iff.2 ⟨w, hw, blanks, rest ++ u, hb, by simp, hn⟩

theorem fieldColon?_eq_none {s u : Text} (h : fieldColon? (s ++ u) = none) : fieldColon? s = none := by
  cases hs : fieldColon? s with
  | none => rfl
  | some n =>
    rw [fieldColon?_append_of_some hs] at h
    cases h

/-- A field word with a colon after it, over blanks, is a field. -/
theorem exists_fieldColon? {word u : Text} (hw : word ∈ Field.words)
    (hu : (u.dropWhile isBlank).head? = some ':') : ∃ n, fieldColon? (word ++ u) = some n := by
  obtain ⟨rest, hrest⟩ := List.head?_eq_some_iff.1 hu
  refine ⟨_, fieldColon?_eq_some_iff.2 ⟨word, hw, u.takeWhile isBlank, rest,
    fun c hc => List.mem_takeWhile_imp hc, ?_, rfl⟩⟩
  rw [← hrest, List.takeWhile_append_dropWhile]

theorem length_fieldColon?_le {s : Text} {n : Nat} (h : fieldColon? s = some n) :
    n ≤ s.length := by
  obtain ⟨w, -, blanks, rest, -, rfl, rfl⟩ := fieldColon?_eq_some_iff.1 h
  simp only [List.length_append, List.length_cons]
  omega

/-! ## A field word by itself -/

theorem wholeWord?_append {word s u : Text} (hw : word ∈ Field.words) (hu : Breaks u) :
    wholeWord? word (s ++ u) = wholeWord? word s := by
  unfold wholeWord?
  rw [isPrefixOf?_append (isWordChar_of_mem_words hw) hu]
  rcases word.isPrefixOf? s with _ | _ | ⟨c, r⟩
  · rfl
  · cases u with
    | nil => rfl
    | cons c u => simp [hu c rfl]
  · rfl

theorem fieldWord?_append {s u : Text} (hu : Breaks u) :
    fieldWord? (s ++ u) = fieldWord? s :=
  findSome?_congr fun _ hw => wholeWord?_append hw hu

/-- A given word by itself. -/
theorem wholeWord?_eq_some_iff {word s : Text} {n : Nat} :
    wholeWord? word s = some n ↔ ∃ rest, s = word ++ rest ∧ Breaks rest ∧ n = word.length := by
  unfold wholeWord?
  constructor
  · intro h
    cases hp : word.isPrefixOf? s with
    | none => rw [hp] at h; cases h
    | some r =>
      have hs := List.isPrefixOf?_eq_some_iff_append_eq.1 hp
      rw [hp] at h
      rcases r with _ | ⟨c, r⟩
      · cases h
        exact ⟨[], hs.symm, separates_nil.breaks, rfl⟩
      · simp only [Option.bind_eq_bind, Option.bind_some] at h
        split at h
        · cases h
        · next hc =>
          cases h
          refine ⟨c :: r, hs.symm, fun d hd => ?_, rfl⟩
          cases hd
          exact Bool.eq_false_iff.2 hc
  · rintro ⟨rest, rfl, hrest, rfl⟩
    have hstart : word.isPrefixOf? (word ++ rest) = some rest :=
      List.isPrefixOf?_eq_some_iff_append_eq.2 rfl
    rw [hstart]
    cases rest with
    | nil => rfl
    | cons c r => simp [hrest c rfl]

theorem length_fieldWord?_le {s : Text} {n : Nat} (h : fieldWord? s = some n) :
    n ≤ s.length := by
  obtain ⟨w, -, hw⟩ := List.exists_of_findSome?_eq_some h
  obtain ⟨rest, rfl, -, rfl⟩ := wholeWord?_eq_some_iff.1 hw
  simp

/-! ## Words and quotations -/

theorem wordLength_append (r : Text) {u : Text} (hu : Breaks u) :
    wordLength (r ++ u) = wordLength r := by
  rw [wordLength, wordLength, takeWhile_append_of_head r hu]

theorem closingQuote?_quote (r : Text) : closingQuote? ('"' :: r) = some 1 := by cases r <;> rfl

theorem closingQuote?_append {r u : Text} {n : Nat} (h : closingQuote? r = some n) :
    closingQuote? (r ++ u) = some n ∧ n ≤ r.length := by
  fun_induction closingQuote? r generalizing n with
  | case1 => cases h
  | case2 r => cases h; exact ⟨closingQuote?_quote _, by simp⟩
  | case3 => cases h
  | case4 c r _ ih =>
    obtain ⟨m, hm, rfl⟩ := Option.map_eq_some_iff.1 h
    obtain ⟨h1, h2⟩ := ih hm
    refine ⟨?_, by simp only [List.length_cons]; omega⟩
    rw [List.cons_append, List.cons_append, closingQuote?_backslash, h1]; rfl
  | case5 c r hq hb ih =>
    obtain ⟨m, hm, rfl⟩ := Option.map_eq_some_iff.1 h
    obtain ⟨h1, h2⟩ := ih hm
    refine ⟨?_, by simp only [List.length_cons]; omega⟩
    rw [List.cons_append, closingQuote?_cons (by simp [isPlain, hq, hb]), h1]; rfl

end Agenda.Lexer
