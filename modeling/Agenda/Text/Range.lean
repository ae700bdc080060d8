import Agenda.Text.Basic
/-!
# Ranges of characters

A property of characters is given by the closed ranges of code points that have it.

Results: tables whose ranges do not meet share no code point (`inRanges_eq_false_of_disjoint`).
-/
namespace Agenda.Text

/-- Whether the code point `n` lies in one of the closed ranges. -/
def inRanges (ranges : List (Nat × Nat)) (n : Nat) : Bool :=
  ranges.any fun r => r.1 ≤ n && n ≤ r.2

/-- No range of `as` meets a range of `bs`. -/
def disjoint (as bs : List (Nat × Nat)) : Bool :=
  as.all fun a => bs.all fun b => a.2 < b.1 || b.2 < a.1

theorem inRanges_eq_false_of_disjoint {as bs : List (Nat × Nat)} {n : Nat}
    (hd : disjoint as bs = true) (ha : inRanges as n = true) : inRanges bs n = false := by
  simp only [disjoint, inRanges, List.all_eq_true, List.any_eq_true, List.any_eq_false,
    Bool.or_eq_true, Bool.and_eq_true, decide_eq_true_eq] at *
  obtain ⟨a, hma, h1, h2⟩ := ha
  intro b hb h3
  have := hd a hma b hb
  omega

end Agenda.Text
