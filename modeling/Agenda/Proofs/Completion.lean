import Agenda.Completion
import Agenda.Proofs.Text.Trim
/-!
# The word before the cursor

The text before the cursor ends in a word, possibly empty, with the beginning of the line or a blank in
front of it. The word is completed from where it starts. The start is found as the byte after the first
byte of the blank; where the blank has more bytes that is inside the blank, and nothing is completed.

Results: `endsInWord_ahead_lastWord`; `splitAtByte?_inside`; `completes_the_word_unless_inside_a_blank`.
-/
namespace Agenda

namespace Text

/-- No text ends inside a character. -/
theorem splitAtByte?_inside (a b : Text) {c : Char} {n : Nat} (hpos : 0 < n) (hlt : n < c.utf8Size) :
    splitAtByte? (a.byteSize + n) (a ++ c :: b) = none := by
  induction a with
  | nil =>
    rw [byteSize_nil, Nat.zero_add, List.nil_append, splitAtByte?, if_neg (by omega), if_neg (by omega)]
  | cons d a ih =>
    have hd := d.utf8Size_pos
    have hrest : byteSize (d :: a) + n - d.utf8Size = byteSize a + n := by
      rw [byteSize_cons]
      omega
    rw [List.cons_append, splitAtByte?, if_neg (by omega), if_pos (by rw [byteSize_cons]; omega), hrest, ih]
    rfl

end Text

namespace Completion

/-! ## The text before the cursor -/

def ahead (before : Text) : Text := Text.dropRightWhile (fun c => !Text.isBlank c) before

/-- The word at the end: all after the last blank. -/
def lastWord (before : Text) : Text := before.rtakeWhile fun c => !Text.isBlank c

/-- A text that ends in a word without blanks, after a blank or nothing. -/
structure EndsInWord (before ahead word : Text) : Prop where
  eq : before = ahead ++ word
  not_blank : ∀ c ∈ word, Text.isBlank c = false
  blank : ∀ c, ahead.getLast? = some c → Text.isBlank c = true

theorem endsInWord_ahead_lastWord (before : Text) : EndsInWord before (ahead before) (lastWord before) where
  eq := List.rdropWhile_append_rtakeWhile.symm
  not_blank c hc := by
    simpa using List.mem_rtakeWhile_imp hc
  blank c hc := by
    have hlast : (!Text.isBlank c) = false := Text.eq_false_of_getLast?_rdropWhile hc
    simpa using hlast

/-! ## Where the word starts -/

/-- The start is a byte too early in a blank of two bytes, and the text cannot be cut there. -/
theorem splitAtByte?_wordStart (before : Text) :
    Text.splitAtByte? (wordStart before) before
      = if (ahead before).getLast?.all (·.utf8Size == 1) then some (ahead before, lastWord before)
        else none := by
  have heq := (endsInWord_ahead_lastWord before).eq
  unfold wordStart
  change Text.splitAtByte? (if ahead before = [] then 0 else Text.byteSize (ahead before).dropLast + 1)
    before = _
  generalize ahead before = front at heq ⊢
  generalize lastWord before = word at heq ⊢
  subst heq
  rcases List.eq_nil_or_concat front with rfl | ⟨front, b, rfl⟩
  · exact Text.splitAtByte?_append [] word
  · rw [List.concat_eq_append, if_neg (by simp), List.dropLast_concat, List.getLast?_concat,
      List.append_assoc]
    by_cases hb : b.utf8Size = 1
    · have hcut := Text.splitAtByte?_append (front ++ [b]) word
      rw [Text.byteSize_append, List.append_assoc] at hcut
      simpa [hb] using hcut
    · have hpos := b.utf8Size_pos
      have hcut := Text.splitAtByte?_inside front word (c := b) (n := 1) (by omega) (by omega)
      simpa [hb] using hcut

/-- The words that a word is completed to. -/
def candidatesFor (word : Text) : List Text :=
  if word = [] then [] else vocabulary.filter word.isPrefixOf

/-- Up to the cursor, what is completed depends only on whether the text can be cut after the first byte of
the last blank. -/
theorem ofCursor?_eq (before after : Text) :
    ofCursor? (before ++ after) before.byteSize
      = (Text.splitAtByte? (wordStart before) before).map
          fun (_, word) => ⟨wordStart before, candidatesFor word⟩ := by
  unfold ofCursor?
  simp only [Text.splitAtByte?_append, Option.bind_eq_bind, Option.bind_some]
  cases Text.splitAtByte? (wordStart before) before <;> rfl

/-- Wherever the cursor stands between two characters, the word before it is completed to the words that
are offered for it, from where it starts; unless the blank in front of it has more than one byte. -/
theorem completes_the_word_unless_inside_a_blank (before after : Text) :
    ∃ ahead word, EndsInWord before ahead word ∧
      ofCursor? (before ++ after) before.byteSize
        = if ahead.getLast?.all (·.utf8Size == 1) then some ⟨ahead.byteSize, candidatesFor word⟩
          else none := by
  refine ⟨ahead before, lastWord before, endsInWord_ahead_lastWord before, ?_⟩
  rw [ofCursor?_eq, splitAtByte?_wordStart]
  by_cases hb : (ahead before).getLast?.all (·.utf8Size == 1) = true
  · have hstart : wordStart before = (ahead before).byteSize := by
      have hcut := splitAtByte?_wordStart before
      rw [if_pos hb] at hcut
      exact (Text.splitAtByte?_eq_some hcut).2.symm
    rw [if_pos hb, if_pos hb, hstart]
    rfl
  · rw [if_neg hb, if_neg hb]
    rfl

/-- A no-break space has two bytes: the word after it is not completed. -/
theorem nothing_completed_after_wide_blank :
    Text.splitAtByte? 7 "add\u00a0st".toList = some ("add\u00a0st".toList, []) ∧
      ofCursor? "add\u00a0st".toList 7 = none ∧ candidatesFor "st".toList = ["state:".toList] := by
  decide

end Completion

end Agenda
