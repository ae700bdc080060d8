import Agenda.Text.Range
/-!
# Blank characters

The twenty-five characters with the property White_Space, and what is cut along them: trimming and
words.

Results: trimming an end twice is trimming it once (`trimRight_trimRight`).
-/
namespace Agenda.Text

/-- The code points with the property White_Space. -/
def blankRanges : List (Nat × Nat) :=
  [(0x9, 0xd), (0x20, 0x20), (0x85, 0x85), (0xa0, 0xa0), (0x1680, 0x1680), (0x2000, 0x200a),
   (0x2028, 0x2029), (0x202f, 0x202f), (0x205f, 0x205f), (0x3000, 0x3000)]

def isBlank (c : Char) : Bool := inRanges blankRanges c.toNat

def trimLeft (s : Text) : Text := s.dropWhile isBlank

def trimRight (s : Text) : Text := dropRightWhile isBlank s

def trim (s : Text) : Text := trimRight (trimLeft s)

/-- Reads words from `s`, of which `word` (backwards) has been read already. -/
def wordsFrom (word : Text) : Text → List Text
  | [] => if word = [] then [] else [word.reverse]
  | c :: r =>
    if isBlank c then
      if word = [] then wordsFrom [] r else word.reverse :: wordsFrom [] r
    else wordsFrom (c :: word) r

/-- The maximal runs of characters that are not blank. -/
def words (s : Text) : List Text := wordsFrom [] s

/-! ## Trimming -/

theorem dropWhile_dropWhile (p : Char → Bool) (s : Text) :
    (s.dropWhile p).dropWhile p = s.dropWhile p := by
  induction s with
  | nil => rfl
  | cons c r ih => by_cases h : p c <;> simp [h, ih]

theorem trimRight_trimRight (s : Text) : trimRight (trimRight s) = trimRight s := by
  simp [trimRight, dropRightWhile, dropWhile_dropWhile]

end Agenda.Text
