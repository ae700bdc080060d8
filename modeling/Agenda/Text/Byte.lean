import Agenda.Text.Basic
/-!
# Bytes

The size of a text in UTF-8, and the text on either side of a byte. A place that is counted in bytes
may fall inside a character; there is no text up to such a place.

Results: the text up to a place and the text from there on make the whole (`splitAtByte?_eq_some`),
and a text can be cut where one part of it ends (`splitAtByte?_append`).
-/
namespace Agenda.Text

/-- The number of bytes of a text in UTF-8. -/
def byteSize (s : Text) : Nat := s.foldr (fun c n => c.utf8Size + n) 0

/-- What stands before and from the byte `n` on, unless `n` falls inside a character or outside the
text. -/
def splitAtByte? (n : Nat) : Text → Option (Text × Text)
  | [] => if n = 0 then some ([], []) else none
  | c :: r =>
    if n = 0 then some ([], c :: r)
    else if c.utf8Size ≤ n then
      (splitAtByte? (n - c.utf8Size) r).map fun (a, b) => (c :: a, b)
    else none

theorem splitAtByte?_eq_some {n : Nat} {s a b : Text} (h : splitAtByte? n s = some (a, b)) :
    s = a ++ b ∧ a.byteSize = n := by
  induction s generalizing n a b with
  | nil =>
    unfold splitAtByte? at h
    split at h
    · next hn => cases h; exact ⟨rfl, hn.symm⟩
    · cases h
  | cons c r ih =>
    unfold splitAtByte? at h
    split at h
    · next hn => cases h; exact ⟨rfl, hn.symm⟩
    · split at h
      · next hc =>
        obtain ⟨⟨a', b'⟩, hr, he⟩ := Option.map_eq_some_iff.1 h
        cases he
        obtain ⟨h1, h2⟩ := ih hr
        refine ⟨by rw [h1]; rfl, ?_⟩
        simp only [byteSize, List.foldr_cons] at h2 ⊢
        omega
      · cases h

@[simp] theorem byteSize_nil : byteSize [] = 0 := rfl

@[simp] theorem byteSize_cons (c : Char) (s : Text) : byteSize (c :: s) = c.utf8Size + byteSize s :=
  rfl

@[simp] theorem byteSize_append (a b : Text) : byteSize (a ++ b) = byteSize a + byteSize b := by
  induction a with
  | nil => simp
  | cons c a ih => rw [List.cons_append, byteSize_cons, byteSize_cons, ih]; omega

theorem splitAtByte?_append (a b : Text) : splitAtByte? a.byteSize (a ++ b) = some (a, b) := by
  induction a with
  | nil => cases b <;> simp [splitAtByte?]
  | cons c a ih =>
    have := c.utf8Size_pos
    rw [byteSize_cons, List.cons_append, splitAtByte?, if_neg (by omega), if_pos (by omega),
      Nat.add_sub_cancel_left, ih]
    rfl

end Agenda.Text
