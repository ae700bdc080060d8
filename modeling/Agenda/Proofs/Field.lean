import Agenda.Proofs.Lexer.Lookahead
/-!
# Keys of field tokens

A field token is a field word with a sign in front or a colon behind. Its key is the field word without
its alias.

Results: `key_of_word`; a field is found again under the key of its name (`ofName?_unalias_name`).
-/
namespace Agenda.Field

def isSign (c : Char) : Bool := c == '+' || c == '-' || c == '!'

theorem dropRightWhile_append_of_pos {p : Char → Bool} (s : Text) {b : Text}
    (hb : ∀ c ∈ b, p c = true) : Text.dropRightWhile p (s ++ b) = Text.dropRightWhile p s := by
  rw [Text.dropRightWhile, List.reverse_append,
    List.dropWhile_append_of_pos fun c hc => hb c (List.mem_reverse.1 hc), Text.dropRightWhile]

/-- What is done to a token to find its key does nothing to a field word. -/
theorem key_fixes_words :
    (words.all fun w => decide (w ≠ []) && w.dropWhile isSign == w
      && Text.dropRightWhile (· == ':') w == w && Text.lower (Text.trim w) == w) = true := by
  decide +kernel

/-- Signs in front of a field word and colons behind it are no part of its key. -/
theorem key_of_word {w signs colons : Text} (hw : w ∈ words) (hs : signs.all isSign = true)
    (hc : colons.all (· == ':') = true) : key (signs ++ w ++ colons) = unalias w := by
  have hfix := List.all_eq_true.1 key_fixes_words w hw
  simp only [Bool.and_eq_true, decide_eq_true_eq, beq_iff_eq] at hfix
  obtain ⟨⟨⟨hne, hstart⟩, hend⟩, hlower⟩ := hfix
  have hsigns : (signs ++ w ++ colons).dropWhile isSign = w ++ colons := by
    rw [List.append_assoc, List.dropWhile_append_of_pos (List.all_eq_true.1 hs),
      Lexer.dropWhile_append_of_ne_nil colons (by rw [hstart]; exact hne), hstart]
  have hcolons : Text.dropRightWhile (· == ':') (w ++ colons) = w := by
    rw [dropRightWhile_append_of_pos w (List.all_eq_true.1 hc), hend]
  show unalias (Text.lower (Text.trim
    (Text.dropRightWhile (· == ':') ((signs ++ w ++ colons).dropWhile isSign)))) = unalias w
  rw [hsigns, hcolons, hlower]

theorem name_mem_words (f : Field) : f.name ∈ words := by cases f <;> decide

theorem ofName?_unalias_name (f : Field) : ofName? (unalias f.name) = some f := by
  cases f <;> decide

end Agenda.Field
