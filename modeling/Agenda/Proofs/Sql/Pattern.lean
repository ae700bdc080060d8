import Agenda.Proofs.Sql.Meaning
import Mathlib.Data.List.Forall2
/-!
# Search patterns

The pattern of a searched text, read by the standard: a percent sign stands for any text, an underscore for
any character, and a backslash stands before one of the three characters that are more than themselves,
which is then itself. Anything else after a backslash, and a backslash at the end, is an error.

A pattern is read into parts (`Pattern.read?`), and parts match texts (`Pattern.Matches`). The matcher that
gives conditions their meaning agrees with this on every pattern without an error
(`matchesPattern_iff_matches`).

Results: escaped text is read as itself, character by character (`read?_escapePattern`); the parts of a search
match where the text occurs (`matches_search_iff`); `search_finds_the_text_itself`.
-/
namespace Agenda.Sql

namespace Pattern

/-! ## Parts -/

inductive Part where
  | anyText
  | anyChar
  /-- A character that stands for itself. -/
  | exactly (c : Char)
deriving DecidableEq, Repr

/-- What a character means without a backslash before it. -/
def Part.ofChar (c : Char) : Part :=
  if c = '%' then anyText else if c = '_' then anyChar else exactly c

/-- A character that a backslash may stand before. -/
def isEscapable (c : Char) : Bool := c = '%' ∨ c = '_' ∨ c = '\\'

/-- The parts of a pattern, if no backslash in it is an error. -/
def read? : Text → Option (List Part)
  | [] => some []
  | c :: r =>
    if c = '\\' then
      match r with
      | [] => none
      | d :: r' => if isEscapable d then (read? r').map (.exactly d :: ·) else none
    else (read? r).map (.ofChar c :: ·)

/-- A text is matched by parts, when characters count as the same as `same` has it. -/
inductive Matches (same : Char → Char → Bool) : List Part → Text → Prop
  | nil : Matches same [] []
  | anyText (s : Text) {ps : List Part} {t : Text} (h : Matches same ps t) :
      Matches same (.anyText :: ps) (s ++ t)
  | anyChar (c : Char) {ps : List Part} {t : Text} (h : Matches same ps t) :
      Matches same (.anyChar :: ps) (c :: t)
  | exactly {c d : Char} {ps : List Part} {t : Text} (hc : same c d = true) (h : Matches same ps t) :
      Matches same (.exactly c :: ps) (d :: t)

/-- The pattern can be read and matches the text, each character only itself. -/
def Like (pattern s : Text) : Prop := ∃ ps, read? pattern = some ps ∧ Matches (· == ·) ps s

section
variable {same : Char → Char → Bool} {ps : List Part} {s : Text}

theorem matches_nil_iff : Matches same [] s ↔ s = [] :=
  ⟨fun h => by cases h; rfl, fun h => h ▸ .nil⟩

theorem matches_anyText_iff : Matches same (.anyText :: ps) s ↔ ∃ t, t <:+ s ∧ Matches same ps t := by
  constructor
  · rintro (_ | ⟨a, h⟩)
    exact ⟨_, List.suffix_append _ _, h⟩
  · rintro ⟨t, ⟨a, rfl⟩, h⟩
    exact .anyText a h

theorem matches_anyChar_iff : Matches same (.anyChar :: ps) s ↔ ∃ d t, s = d :: t ∧ Matches same ps t := by
  constructor
  · rintro (_ | _ | ⟨c, h⟩)
    exact ⟨_, _, rfl, h⟩
  · rintro ⟨d, t, rfl, h⟩
    exact .anyChar d h

theorem matches_exactly_iff {c : Char} : Matches same (.exactly c :: ps) s ↔
    ∃ d t, s = d :: t ∧ same c d = true ∧ Matches same ps t := by
  constructor
  · rintro (_ | _ | _ | ⟨hc, h⟩)
    exact ⟨_, _, rfl, hc, h⟩
  · rintro ⟨d, t, rfl, hc, h⟩
    exact .exactly hc h

end

/-! ## The matcher -/

section
variable {same : Char → Char → Bool} {p s : Text}

theorem matchesPattern_percent : matchesPattern same ('%' :: p) s = true ↔
    ∃ t, t <:+ s ∧ matchesPattern same p t = true := by
  rw [matchesPattern.eq_def]
  simp only [if_pos, List.any_eq_true]
  simp only [List.mem_tails]

theorem matchesPattern_backslash {c : Char} : matchesPattern same ('\\' :: c :: p) s = true ↔
    ∃ d t, s = d :: t ∧ same c d = true ∧ matchesPattern same p t = true := by
  rw [matchesPattern.eq_def]
  simp only [if_pos]
  cases s with
  | nil => simp
  | cons d t => simp

theorem matchesPattern_cons {c : Char} (h1 : c ≠ '%') (h2 : c ≠ '\\') :
    matchesPattern same (c :: p) s = true ↔
      ∃ d t, s = d :: t ∧ (c = '_' ∨ same c d = true) ∧ matchesPattern same p t = true := by
  rw [matchesPattern.eq_def]
  simp only [if_neg h1, if_neg h2]
  cases s with
  | nil => simp
  | cons d t => simp

/-- A pattern that can be read matches what its parts match. -/
theorem matchesPattern_iff_matches {ps : List Part} (h : read? p = some ps) :
    matchesPattern same p s = true ↔ Matches same ps s := by
  fun_induction read? p generalizing ps s with
  | case1 =>
    cases h
    rw [matches_nil_iff, matchesPattern, List.isEmpty_iff]
  | case2 => cases h
  | case3 d r hd ih =>
    obtain ⟨qs, hqs, rfl⟩ := Option.map_eq_some_iff.1 h
    simp only [matchesPattern_backslash, matches_exactly_iff, ih hqs]
  | case4 => cases h
  | case5 c r hc ih =>
    obtain ⟨qs, hqs, rfl⟩ := Option.map_eq_some_iff.1 h
    unfold Part.ofChar
    split
    · next hp => rw [hp, matchesPattern_percent, matches_anyText_iff]; simp only [ih hqs]
    · next hp =>
      rw [matchesPattern_cons hp hc]
      split
      · next hu => simp only [hu, true_or, true_and, matches_anyChar_iff, ih hqs]
      · next hu => simp only [hu, false_or, matches_exactly_iff, ih hqs]

end

/-! ## Escaped texts -/

open Condition (escapePattern substringPattern)

theorem read?_backslash {d : Char} (h : isEscapable d = true) (r : Text) :
    read? ('\\' :: d :: r) = (read? r).map (.exactly d :: ·) := by
  rw [read?, if_pos rfl]
  exact if_pos h

theorem read?_cons {c : Char} (h : c ≠ '\\') (r : Text) :
    read? (c :: r) = (read? r).map (.ofChar c :: ·) := by
  rw [read?.eq_def]
  simp only [if_neg h]

/-- An escaped text stands for its characters, whatever comes after it. -/
theorem read?_escapePattern (text r : Text) :
    read? (escapePattern text ++ r) = (read? r).map (text.map .exactly ++ ·) := by
  induction text with
  | nil => cases hr : read? r <;> simp [escapePattern, hr]
  | cons c text ih =>
    rw [escapePattern]
    split
    · next hc =>
      rw [List.cons_append, List.cons_append, read?_backslash (by simpa [isEscapable] using hc), ih,
        Option.map_map]
      rfl
    · next hc =>
      obtain ⟨h1, h2, h3⟩ : c ≠ '%' ∧ c ≠ '_' ∧ c ≠ '\\' := by simpa [not_or] using hc
      rw [List.cons_append, read?_cons h3, ih, Option.map_map, Part.ofChar, if_neg h1, if_neg h2]
      rfl

/-- The parts of a search: any text, the characters of the text, any text. -/
def search (text : Text) : List Part := .anyText :: (text.map .exactly ++ [.anyText])

theorem read?_substringPattern (text : Text) : read? (substringPattern text) = some (search text) := by
  rw [substringPattern, read?_cons (by decide), read?_escapePattern]
  rfl

/-! ## Occurrences -/

variable {same : Char → Char → Bool}

theorem matches_anyText {s : Text} : Matches same [.anyText] s :=
  matches_anyText_iff.2 ⟨[], List.nil_suffix, .nil⟩

theorem matches_prefix_iff {text s : Text} : Matches same (text.map .exactly ++ [.anyText]) s ↔
    ∃ part, part <+: s ∧ List.Forall₂ (fun c d => same c d = true) text part := by
  induction text generalizing s with
  | nil => exact ⟨fun _ => ⟨[], List.nil_prefix, .nil⟩, fun _ => matches_anyText⟩
  | cons c text ih =>
    rw [List.map_cons, List.cons_append, matches_exactly_iff]
    constructor
    · rintro ⟨d, t, rfl, hc, h⟩
      obtain ⟨part, hpart, hsame⟩ := ih.1 h
      exact ⟨d :: part, List.cons_prefix_cons.2 ⟨rfl, hpart⟩, .cons hc hsame⟩
    · rintro ⟨part, ⟨r, rfl⟩, hsame⟩
      cases hsame with
      | cons hc hsame => exact ⟨_, _, rfl, hc, ih.2 ⟨_, List.prefix_append _ _, hsame⟩⟩

/-- The parts of a search match a text with a part that is, character for character, the same. -/
theorem matches_search_iff {text s : Text} : Matches same (search text) s ↔
    ∃ part, part <:+: s ∧ List.Forall₂ (fun c d => same c d = true) text part := by
  rw [search, matches_anyText_iff]
  constructor
  · rintro ⟨t, ht, h⟩
    obtain ⟨part, hpart, hsame⟩ := matches_prefix_iff.1 h
    exact ⟨part, List.infix_iff_prefix_suffix.2 ⟨t, hpart, ht⟩, hsame⟩
  · rintro ⟨part, hpart, hsame⟩
    obtain ⟨t, hprefix, ht⟩ := List.infix_iff_prefix_suffix.1 hpart
    exact ⟨t, ht, matches_prefix_iff.2 ⟨part, hprefix, hsame⟩⟩

theorem matches_search_iff_infix {text s : Text} : Matches (· == ·) (search text) s ↔ text <:+: s := by
  simp only [matches_search_iff, beq_iff_eq, List.forall₂_eq_eq_eq]
  exact exists_eq_right'

/-- A search finds exactly the texts in which the searched text occurs: its pattern has no error, in which
every character of the text stands for itself alone, and the matcher of conditions agrees. -/
theorem search_finds_the_text_itself (text s : Text) :
    read? (substringPattern text) = some (search text) ∧
      (Like (substringPattern text) s ↔ text <:+: s) ∧
      (matchesPattern (· == ·) (substringPattern text) s = true ↔ text <:+: s) := by
  have hread := read?_substringPattern text
  refine ⟨hread, ?_, ?_⟩
  · constructor
    · rintro ⟨ps, hps, h⟩
      rw [hread] at hps
      cases hps
      exact matches_search_iff_infix.1 h
    · intro h
      exact ⟨_, hread, matches_search_iff_infix.2 h⟩
  · rw [matchesPattern_iff_matches hread]
    exact matches_search_iff_infix

/-- A percent sign, an underscore and a backslash in the searched text are only themselves. -/
example : substringPattern "5%_\\".toList = "%5\\%\\_\\\\%".toList := by decide

end Pattern

end Agenda.Sql
