import Agenda.Proofs.Text.Trim
import Agenda.Text.Lowercase
/-!
# Words of a text

Words written one after the other with a space between them are read as those words. Words in ASCII
without capitals stay as they are in lower case.

Results: `words_of_not_blank`; `words_joinWith`; `lower_eq_self`.
-/
namespace Agenda.Text

/-! ## Words with blanks between them -/

theorem wordsFrom_of_not_blank {word s : Text} (hne : word ≠ [] ∨ s ≠ [])
    (h : ∀ c ∈ s, isBlank c = false) : wordsFrom word s = [word.reverse ++ s] := by
  induction s generalizing word with
  | nil =>
    have hword : word ≠ [] := hne.resolve_right fun h => h rfl
    rw [wordsFrom, if_neg hword, List.append_nil]
  | cons c r ih =>
    have hc : isBlank c = false := h c (List.mem_cons_self ..)
    rw [wordsFrom, hc, if_neg Bool.false_ne_true,
      ih (Or.inl (List.cons_ne_nil _ _)) fun d hd => h d (List.mem_cons_of_mem _ hd)]
    simp

/-- A text without blanks is one word. -/
theorem words_of_not_blank {s : Text} (hne : s ≠ []) (h : ∀ c ∈ s, isBlank c = false) :
    words s = [s] := wordsFrom_of_not_blank (Or.inr hne) h

/-- A blank ends the word before it. -/
theorem wordsFrom_append_blank {word w s : Text} {c : Char} (hne : word ≠ [] ∨ w ≠ [])
    (hw : ∀ d ∈ w, isBlank d = false) (hc : isBlank c = true) :
    wordsFrom word (w ++ c :: s) = (word.reverse ++ w) :: words s := by
  induction w generalizing word with
  | nil =>
    have hword : word ≠ [] := hne.resolve_right fun h => h rfl
    rw [List.nil_append, wordsFrom, if_pos hc, if_neg hword, List.append_nil, words]
  | cons d r ih =>
    have hd : isBlank d = false := hw d (List.mem_cons_self ..)
    rw [List.cons_append, wordsFrom, hd, if_neg Bool.false_ne_true,
      ih (Or.inl (List.cons_ne_nil _ _)) fun e he => hw e (List.mem_cons_of_mem _ he)]
    simp

/-- A word as phrases have them: ASCII without capitals and without blanks. -/
structure IsPlainWord (w : Text) : Prop where
  ne_nil : w ≠ []
  isBlank_eq : ∀ c ∈ w, isBlank c = false
  toLower_eq : ∀ c ∈ w, c.toNat < 128 ∧ c.toLower = c

/-- A written word is plain when the check of its characters computes to true. -/
theorem isPlainWord_of_all {w : Text} (hne : w ≠ [])
    (h : w.all (fun c => !isBlank c && decide (c.toNat < 128) && c.toLower == c) = true) :
    IsPlainWord w := by
  have hall : ∀ c ∈ w, isBlank c = false ∧ c.toNat < 128 ∧ c.toLower = c := by
    simpa [List.all_eq_true, and_assoc] using h
  exact ⟨hne, fun c hc => (hall c hc).1, fun c hc => (hall c hc).2⟩

theorem words_joinWith {ws : List Text} (h : ∀ w ∈ ws, IsPlainWord w) : words (joinWith ' ' ws) = ws := by
  induction ws with
  | nil => rfl
  | cons w ws ih =>
    have hw : IsPlainWord w := h w (List.mem_cons_self ..)
    have hws : words (joinWith ' ' ws) = ws := ih fun v hv => h v (List.mem_cons_of_mem _ hv)
    by_cases hnil : ws = []
    · subst hnil
      exact words_of_not_blank hw.ne_nil hw.isBlank_eq
    · rw [joinWith_cons _ _ hnil, words,
        wordsFrom_append_blank (Or.inr hw.ne_nil) hw.isBlank_eq (by decide), hws]
      rfl

theorem trimmed_joinWith {ws : List Text} (h : ∀ w ∈ ws, IsPlainWord w) : Trimmed (joinWith ' ' ws) := by
  induction ws with
  | nil => exact trimmed_of_not_blank fun c hc => absurd hc List.not_mem_nil
  | cons w ws ih =>
    have hw : IsPlainWord w := h w (List.mem_cons_self ..)
    have hws : Trimmed (joinWith ' ' ws) := ih fun v hv => h v (List.mem_cons_of_mem _ hv)
    by_cases hnil : ws = []
    · subst hnil
      exact trimmed_of_not_blank hw.isBlank_eq
    · rw [joinWith_cons _ _ hnil]
      refine ⟨fun c hc => ?_, fun c hc => ?_⟩
      · obtain ⟨d, r, hd⟩ := List.exists_cons_of_ne_nil hw.ne_nil
        rw [hd] at hc
        exact hw.isBlank_eq c (by rw [hd]; simp at hc; simp [hc])
      · obtain ⟨v, vs, rfl⟩ := List.exists_cons_of_ne_nil hnil
        have hne : joinWith ' ' (v :: vs) ≠ [] := by
          have hv := (h v (by simp)).ne_nil
          by_cases hvs : vs = []
          · simpa [hvs, joinWith] using hv
          · rw [joinWith_cons _ _ hvs]
            simp
        refine hws.right c ?_
        rw [List.getLast?_append, List.getLast?_cons] at hc
        cases hlast : (joinWith ' ' (v :: vs)).getLast? with
        | none => exact absurd (List.getLast?_eq_none_iff.1 hlast) hne
        | some d => simpa [hlast] using hc

/-! ## Lower case -/

/-- Characters of the first hundred and twenty-eight that are in lower case stay. -/
theorem lower_eq_self {s : Text} (h : ∀ c ∈ s, c.toNat < 128 ∧ c.toLower = c) : lower s = s := by
  have hfrom (passed : Text) : lowerFrom passed s = s := by
    induction s generalizing passed with
    | nil => rfl
    | cons c r ih =>
      obtain ⟨hascii, hlower⟩ := h c (List.mem_cons_self ..)
      have hsigma : c ≠ 'Σ' := by rintro rfl; exact absurd hascii (by decide)
      rw [lowerFrom, if_neg hsigma, lowerChar, if_pos hascii, hlower,
        ih (fun d hd => h d (List.mem_cons_of_mem _ hd)), List.singleton_append]
  exact hfrom []

theorem mem_joinWith {sep c : Char} {ws : List Text} (h : c ∈ joinWith sep ws) :
    c = sep ∨ ∃ w ∈ ws, c ∈ w := by
  induction ws with
  | nil => cases h
  | cons w ws ih =>
    by_cases hnil : ws = []
    · subst hnil
      exact Or.inr ⟨w, List.mem_cons_self .., h⟩
    · rw [joinWith_cons _ _ hnil, List.mem_append, List.mem_cons] at h
      rcases h with h | h | h
      · exact Or.inr ⟨w, List.mem_cons_self .., h⟩
      · exact Or.inl h
      · rcases ih h with h | ⟨v, hv, hc⟩
        · exact Or.inl h
        · exact Or.inr ⟨v, List.mem_cons_of_mem _ hv, hc⟩

theorem lower_joinWith {ws : List Text} (h : ∀ w ∈ ws, IsPlainWord w) :
    lower (joinWith ' ' ws) = joinWith ' ' ws := by
  refine lower_eq_self fun c hc => ?_
  rcases mem_joinWith hc with rfl | ⟨w, hw, hcw⟩
  · decide
  · exact (h w hw).toLower_eq c hcw

/-- Plain words with a space between them are the words of the text, trimmed and in lower case. -/
theorem words_lower_trim_joinWith {ws : List Text} (h : ∀ w ∈ ws, IsPlainWord w) :
    words (lower (trim (joinWith ' ' ws))) = ws := by
  rw [(trimmed_joinWith h).trim_eq, lower_joinWith h, words_joinWith h]

end Agenda.Text
