import Agenda.Position
import Agenda.Proofs.Text.Trim
import Agenda.Text.Line
/-!
# Lines and positions

A line of a text stands after the line feed of the line before it and goes on to its own ending: a line
feed, a carriage return and a line feed, or the end of the text (`IsLine`). Positions count line feeds, so
the number of a position finds its line among the lines of the text, and the column of a position in a line
counts the characters of the line before it.

Results: `lines_getElem?_of_isLine`; `line_after` and `column_after`; from any character that is no
blank there is a line (`exists_isLine`).
-/
namespace Agenda

namespace Text

/-! ## Lines -/

/-- What a line goes on to: the end of the text, or its ending and more lines. -/
inductive Ending (line : Text) : Text → Prop
  | atEnd : Ending line []
  | feed {r : Text} (h : line.getLast? ≠ some '\r') : Ending line ('\n' :: r)
  | returnFeed {r : Text} : Ending line ('\r' :: '\n' :: r)

/-- The text `line`, without its ending, stands as a line of `s` between `front` and `tail`. -/
structure IsLine (s front line tail : Text) : Prop where
  eq : s = front ++ line ++ tail
  begins : ∀ c, front.getLast? = some c → c = '\n'
  no_feed : '\n' ∉ line
  ends : Ending line tail

theorem linesFrom_append_feed (acc u s : Text) :
    linesFrom acc (u ++ '\n' :: s) = linesFrom acc (u ++ ['\n']) ++ lines s := by
  induction u generalizing acc with
  | nil => simp [linesFrom, lines]
  | cons c u ih =>
    rw [List.cons_append, List.cons_append, linesFrom, linesFrom]
    by_cases hc : c = '\n'
    · rw [if_pos hc, if_pos hc, ih, List.cons_append]
    · rw [if_neg hc, if_neg hc, ih]

theorem length_linesFrom_feed (acc u : Text) :
    (linesFrom acc (u ++ ['\n'])).length = (u ++ ['\n']).count '\n' := by
  induction u generalizing acc with
  | nil => simp [linesFrom]
  | cons c u ih =>
    rw [List.cons_append, linesFrom]
    by_cases hc : c = '\n'
    · subst hc
      rw [if_pos rfl, List.length_cons, ih, List.count_cons_self]
    · rw [if_neg hc, ih, List.count_cons_of_ne hc]

/-- As many lines come before as there are line feeds. -/
theorem exists_lines_append {front : Text} (h : ∀ c, front.getLast? = some c → c = '\n') (s : Text) :
    ∃ ls : List Text, ls.length = front.count '\n' ∧ lines (front ++ s) = ls ++ lines s := by
  rcases List.eq_nil_or_concat front with rfl | ⟨u, c, rfl⟩
  · exact ⟨[], rfl, rfl⟩
  · rw [List.concat_eq_append] at h ⊢
    have hc : c = '\n' := h c (by simp)
    subst hc
    refine ⟨linesFrom [] (u ++ ['\n']), length_linesFrom_feed [] u, ?_⟩
    rw [List.append_assoc]
    exact linesFrom_append_feed [] u s

/-- What is read of a line before its line feed is kept. -/
theorem linesFrom_of_no_feed (acc : Text) {line : Text} (h : '\n' ∉ line) (r : Text) :
    linesFrom acc (line ++ r) = linesFrom (line.reverse ++ acc) r := by
  induction line generalizing acc with
  | nil => rfl
  | cons c line ih =>
    have hc : c ≠ '\n' := by
      rintro rfl
      exact h (List.mem_cons_self ..)
    rw [List.cons_append, linesFrom, if_neg hc, ih _ fun hmem => h (List.mem_cons_of_mem _ hmem)]
    simp

theorem dropReturn_eq_self {line : Text} (h : line.getLast? ≠ some '\r') :
    dropReturn line.reverse = line.reverse := by
  unfold dropReturn
  split
  · next r hr =>
    have hlast : line.getLast? = some '\r' := by
      rw [← List.head?_reverse, hr]
      rfl
    exact absurd hlast h
  · rfl

theorem head?_lines_of_ending {line tail : Text} (hfeed : '\n' ∉ line) (hends : Ending line tail)
    (hne : line ≠ []) : (lines (line ++ tail)).head? = some line := by
  rw [lines, linesFrom_of_no_feed [] hfeed, List.append_nil]
  cases hends with
  | atEnd => simp [linesFrom, hne]
  | feed h => rw [linesFrom, if_pos rfl, dropReturn_eq_self h, List.head?_cons, List.reverse_reverse]
  | returnFeed =>
    rw [linesFrom, if_neg (by decide), linesFrom, if_pos rfl, dropReturn, List.head?_cons,
      List.reverse_reverse]

/-- The line after so many line feeds has that index. -/
theorem lines_getElem?_of_isLine {s front line tail : Text} (h : IsLine s front line tail)
    (hne : line ≠ []) : (lines s)[front.count '\n']? = some line := by
  obtain ⟨ls, hlength, hlines⟩ := exists_lines_append h.begins (line ++ tail)
  rw [h.eq, List.append_assoc, hlines, List.getElem?_append_right (by omega), hlength, Nat.sub_self,
    ← List.head?_eq_getElem?]
  exact head?_lines_of_ending h.no_feed h.ends hne

/-! ## The rest of a line -/

/-- Every text begins with what is left of a line. -/
theorem exists_ending (s : Text) : ∃ shown tail, s = shown ++ tail ∧ '\n' ∉ shown ∧ Ending shown tail := by
  induction s with
  | nil => exact ⟨[], [], rfl, List.not_mem_nil, .atEnd⟩
  | cons c r ih =>
    obtain ⟨shown, tail, hr, hfeed, hends⟩ := ih
    by_cases hc : c = '\n'
    · subst hc
      exact ⟨[], '\n' :: r, rfl, List.not_mem_nil, .feed (by simp)⟩
    · have hshown : '\n' ∉ c :: shown := by
        simp [hfeed, Ne.symm hc]
      cases hends with
      | atEnd => exact ⟨c :: shown, [], by rw [hr]; rfl, hshown, .atEnd⟩
      | returnFeed => exact ⟨c :: shown, _, by rw [hr]; rfl, hshown, .returnFeed⟩
      | @feed r' hlast =>
        -- a carriage return right before the line feed belongs to the ending
        by_cases hreturn : shown = [] ∧ c = '\r'
        · obtain ⟨rfl, rfl⟩ := hreturn
          exact ⟨[], '\r' :: '\n' :: r', by rw [hr]; rfl, List.not_mem_nil, .returnFeed⟩
        · refine ⟨c :: shown, '\n' :: r', by rw [hr]; rfl, hshown, .feed ?_⟩
          cases shown with
          | nil => simpa using hreturn
          | cons d shown => simpa [List.getLast?_cons_cons] using hlast

/-- An ending begins with a blank. -/
theorem Ending.isBlank_head {line tail : Text} (h : Ending line tail) {c : Char}
    (hc : tail.head? = some c) : isBlank c = true := by
  cases h with
  | atEnd => cases hc
  | feed _ => cases hc; decide
  | returnFeed => cases hc; decide

/-- A text that begins with no blank is not at the end of its line. -/
theorem Ending.head?_eq {s shown tail : Text} (h : Ending shown tail) (hs : s = shown ++ tail) {c : Char}
    (hc : s.head? = some c) (hblank : isBlank c = false) : shown.head? = some c := by
  cases shown with
  | nil =>
    rw [hs] at hc
    rw [h.isBlank_head hc] at hblank
    cases hblank
  | cons d shown =>
    rw [hs] at hc
    exact hc

/-- What stays on its line and ends in no blank is in front of the ending. -/
theorem Ending.prefix_of_no_feed {t b shown tail : Text} (h : Ending shown tail)
    (hs : t ++ b = shown ++ tail) (hfeed : '\n' ∉ t) (hlast : ∀ c, t.getLast? = some c → isBlank c = false) :
    t <+: shown := by
  rcases List.append_eq_append_iff.1 hs with ⟨m, hm, -⟩ | ⟨m, hm, htail⟩
  · exact ⟨m, hm.symm⟩
  · -- what goes beyond the line is part of its ending
    cases m with
    | nil =>
      have hall : t = shown := by rw [hm, List.append_nil]
      exact ⟨[], by rw [hall, List.append_nil]⟩
    | cons c m =>
      have hmem : ∀ d ∈ c :: m, d ∈ t := fun d hd => by
        rw [hm]
        exact List.mem_append_right _ hd
      cases h with
      | atEnd => cases htail
      | feed _ =>
        cases htail
        exact absurd (hmem '\n' (List.mem_cons_self ..)) hfeed
      | returnFeed =>
        cases m with
        | nil =>
          have hreturn : c = '\r' := (List.cons.inj htail).1.symm
          have := hlast c (by rw [hm]; simp)
          rw [hreturn] at this
          cases this
        | cons d m =>
          have hd : d = '\n' := (List.cons.inj (List.cons.inj htail).2).1.symm
          subst hd
          exact absurd (hmem '\n' (by simp)) hfeed

/-! ## The line of a character -/

/-- A text is cut after its last line feed. -/
theorem exists_lastLine (a : Text) :
    ∃ front pre, a = front ++ pre ∧ (∀ c, front.getLast? = some c → c = '\n') ∧ '\n' ∉ pre := by
  refine ⟨a.rdropWhile (· != '\n'), a.rtakeWhile (· != '\n'), List.rdropWhile_append_rtakeWhile.symm, ?_, ?_⟩
  · intro c hc
    simpa using eq_false_of_getLast?_rdropWhile hc
  · intro hmem
    have := List.mem_rtakeWhile_imp hmem
    simp at this

/-- A text with no blank at its start begins in a line, and is in it if it has no line feed and no blank at
its end. -/
theorem exists_isLine (a b : Text) {t : Text} (hne : t ≠ []) (ht : Trimmed t) :
    ∃ front before shown tail, a = front ++ before ∧ IsLine (a ++ t ++ b) front (before ++ shown) tail ∧
      shown.head? = t.head? ∧ ('\n' ∉ t → t <+: shown) := by
  obtain ⟨front, before, ha, hbegins, hbefore⟩ := exists_lastLine a
  obtain ⟨shown, tail, hrest, hfeed, hends⟩ := exists_ending (t ++ b)
  obtain ⟨c, r, rfl⟩ := List.exists_cons_of_ne_nil hne
  have hhead : shown.head? = some c := hends.head?_eq hrest rfl (ht.left c rfl)
  obtain ⟨s, hshown⟩ : ∃ s, shown = c :: s := by
    cases shown with
    | nil => cases hhead
    | cons d s => exact ⟨s, by rw [Option.some.inj hhead]⟩
  refine ⟨front, before, shown, tail, ha, ⟨?_, hbegins, ?_, ?_⟩, hhead, fun hnofeed => ?_⟩
  · rw [ha, List.append_assoc, hrest]
    simp only [List.append_assoc]
  · simp [hbefore, hfeed]
  · -- the line ends as what is left of it
    have hlast : (before ++ shown).getLast? = shown.getLast? := by
      rw [List.getLast?_append, hshown, List.getLast?_cons]
      rfl
    cases hends with
    | atEnd => exact .atEnd
    | feed h => exact .feed (by rw [hlast]; exact h)
    | returnFeed => exact .returnFeed
  · exact hends.prefix_of_no_feed hrest hnofeed ht.right

end Text

/-! ## Positions -/

namespace Position

theorem line_after (p : Position) (s : Text) : (p.after s).line = p.line + s.count '\n' := by
  induction s generalizing p with
  | nil => rfl
  | cons c s ih =>
    rw [after_cons, ih, next]
    by_cases hc : c = '\n'
    · subst hc
      rw [if_pos rfl, List.count_cons_self]
      simp only
      omega
    · rw [if_neg hc, List.count_cons_of_ne hc]

/-- Within a line the column counts the characters. -/
theorem column_after (p : Position) {s : Text} (h : '\n' ∉ s) : (p.after s).column = p.column + s.length := by
  induction s generalizing p with
  | nil => rfl
  | cons c s ih =>
    have hc : c ≠ '\n' := by
      rintro rfl
      exact h (List.mem_cons_self ..)
    rw [after_cons, ih _ fun hmem => h (List.mem_cons_of_mem _ hmem), next, if_neg hc, List.length_cons]
    simp only
    omega

/-- Where a line begins the column is the first. -/
theorem column_of_begins {front : Text} (h : ∀ c, front.getLast? = some c → c = '\n') :
    (origin.after front).column = 1 := by
  rcases List.eq_nil_or_concat front with rfl | ⟨u, c, rfl⟩
  · rfl
  · rw [List.concat_eq_append] at h ⊢
    have hc : c = '\n' := h c (by simp)
    subst hc
    rw [after_append]
    rfl

end Position

end Agenda
