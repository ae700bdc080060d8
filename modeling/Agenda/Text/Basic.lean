/-!
# Texts

A text is the list of its characters. Everything the library reads and writes is a text; `String`
occurs only in literals and at the edge of the program.

Results: a text cut at a separator joins back to itself (`joinWith_pieces`), and `cutAt` finds the
first separator (`cutAt_eq_some`).
-/
namespace Agenda

/-- A text is the list of its characters. -/
abbrev Text := List Char

namespace Text

/-- Lower case of the twenty-six ASCII capitals; all else stays. -/
def asciiLower (s : Text) : Text := s.map Char.toLower

/-- Equal up to the case of ASCII letters. -/
def sameWord (a b : Text) : Bool := asciiLower a == asciiLower b

/-- The fragments of `s` between occurrences of `sep`; always at least one. -/
def pieces (sep : Char) : Text → List Text
  | [] => [[]]
  | c :: r =>
    if c = sep then [] :: pieces sep r
    else match pieces sep r with
      | [] => [[c]]
      | p :: ps => (c :: p) :: ps

/-- Fragments put together with `sep` between neighbours. -/
def joinWith (sep : Char) : List Text → Text
  | [] => []
  | [p] => p
  | p :: q :: ps => p ++ sep :: joinWith sep (q :: ps)

/-- What stands before and after the first `sep`, if there is one. -/
def cutAt (sep : Char) : Text → Option (Text × Text)
  | [] => none
  | c :: r =>
    if c = sep then some ([], r)
    else (cutAt sep r).map fun (a, b) => (c :: a, b)

/-- `s` without the characters at its end that satisfy `p`. -/
def dropRightWhile (p : Char → Bool) (s : Text) : Text := (s.reverse.dropWhile p).reverse

/-- `s` filled up with spaces to at least `width` characters. -/
def padRight (width : Nat) (s : Text) : Text := s ++ List.replicate (width - s.length) ' '

/-! ## Cutting and joining -/

theorem pieces_ne_nil (sep : Char) (s : Text) : pieces sep s ≠ [] := by
  cases s with
  | nil => simp [pieces]
  | cons c r =>
    simp only [pieces]
    split
    · simp
    · split <;> simp

theorem joinWith_cons (sep : Char) (p : Text) {ps : List Text} (h : ps ≠ []) :
    joinWith sep (p :: ps) = p ++ sep :: joinWith sep ps := by
  cases ps with
  | nil => exact absurd rfl h
  | cons q qs => rfl

theorem joinWith_pieces (sep : Char) (s : Text) : joinWith sep (pieces sep s) = s := by
  induction s with
  | nil => rfl
  | cons c r ih =>
    simp only [pieces]
    split
    · next h => rw [joinWith_cons sep [] (pieces_ne_nil sep r), ih, h]; rfl
    · cases hp : pieces sep r with
      | nil => exact absurd hp (pieces_ne_nil sep r)
      | cons p ps =>
        rw [hp] at ih
        cases ps with
        | nil => simpa [joinWith] using ih
        | cons q qs => simpa [joinWith] using ih

/-- The characters of the fragments are those of the text other than the separator. -/
theorem forall_mem_pieces {p : Char → Prop} {sep : Char} {s : Text} :
    (∀ piece ∈ pieces sep s, ∀ c ∈ piece, p c) ↔ ∀ c ∈ s, c = sep ∨ p c := by
  induction s with
  | nil => simp [pieces]
  | cons c s ih =>
    rw [List.forall_mem_cons, ← ih, pieces]
    split
    · next h => simp [h]
    · next h =>
      cases hs : pieces sep s with
      | nil => exact absurd hs (pieces_ne_nil sep s)
      | cons q qs => simp [h, and_assoc]

/-- Texts are in dictionary order of their code points, which is a linear order. -/
theorem lt_of_not_lt {a b : Text} (h : ¬ a < b) (hne : a ≠ b) : b < a :=
  Decidable.byContradiction fun h' => hne (List.le_antisymm (List.not_lt.1 h') (List.not_lt.1 h))

theorem cutAt_eq_some {sep : Char} {s a b : Text} (h : cutAt sep s = some (a, b)) :
    s = a ++ sep :: b ∧ sep ∉ a := by
  induction s generalizing a b with
  | nil => simp [cutAt] at h
  | cons c r ih =>
    simp only [cutAt] at h
    split at h
    · next hc => simp at h; obtain ⟨rfl, rfl⟩ := h; simp [hc]
    · next hc =>
      obtain ⟨⟨a', b'⟩, hr, he⟩ := Option.map_eq_some_iff.1 h
      simp at he
      obtain ⟨rfl, rfl⟩ := he
      obtain ⟨h1, h2⟩ := ih hr
      subst h1
      exact ⟨rfl, by simp [h2, Ne.symm hc]⟩

end Text

end Agenda
