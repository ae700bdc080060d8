import Agenda.Text.Blank
import Mathlib.Data.List.DropRight
import Mathlib.Data.List.TakeWhile
/-!
# Trimmed texts

A text is trimmed when neither its first nor its last character is blank.

Results: trimming makes a text trimmed and changes no trimmed text (`trimmed_trim`,
`trim_eq_self_iff`).
-/
namespace Agenda.Text

structure Trimmed (s : Text) : Prop where
  left : ∀ c, s.head? = some c → isBlank c = false
  right : ∀ c, s.getLast? = some c → isBlank c = false

/-- A character that passes the test is not left at the end when these fall away. -/
theorem eq_false_of_getLast?_rdropWhile {p : Char → Bool} {s : Text} {c : Char}
    (h : (s.rdropWhile p).getLast? = some c) : p c = false := by
  have hne : s.rdropWhile p ≠ [] := by
    intro hnil
    rw [hnil] at h
    cases h
  have hlast := List.rdropWhile_last_not p s hne
  rw [List.getLast?_eq_some_getLast hne] at h
  rw [← Option.some.inj h]
  exact Bool.not_eq_true _ ▸ hlast

theorem trimLeft_eq_self_iff {s : Text} :
    trimLeft s = s ↔ ∀ c, s.head? = some c → isBlank c = false := by
  cases s with
  | nil => simp [trimLeft]
  | cons c r =>
    rw [trimLeft, List.dropWhile_eq_self_iff]
    simp

theorem trimRight_eq_self_iff {s : Text} :
    trimRight s = s ↔ ∀ c, s.getLast? = some c → isBlank c = false := by
  rw [trimRight, dropRightWhile, List.reverse_eq_iff]
  have := trimLeft_eq_self_iff (s := s.reverse)
  rw [List.head?_reverse] at this
  exact this

/-- The first character of a text stays first when blanks at the end fall away. -/
theorem head?_of_trimRight {s : Text} {c : Char} (h : (trimRight s).head? = some c) :
    s.head? = some c := by
  obtain ⟨b, hb⟩ : trimRight s <+: s := List.rdropWhile_prefix isBlank s
  rw [← hb, List.head?_append, h, Option.some_or]

theorem trimmed_trim (s : Text) : Trimmed (trim s) := by
  refine ⟨fun c hc => ?_, trimRight_eq_self_iff.1 (trimRight_trimRight _)⟩
  have := dropWhile_dropWhile isBlank s
  exact trimLeft_eq_self_iff.1 this c (head?_of_trimRight hc)

theorem trim_eq_self_iff {s : Text} : trim s = s ↔ Trimmed s := by
  constructor
  · intro h; rw [← h]; exact trimmed_trim s
  · intro h; rw [trim, trimLeft_eq_self_iff.2 h.left, trimRight_eq_self_iff.2 h.right]

theorem Trimmed.trim_eq {s : Text} (h : Trimmed s) : trim s = s := trim_eq_self_iff.2 h

theorem trim_trim (s : Text) : trim (trim s) = trim s := (trimmed_trim s).trim_eq

/-- A text that does not end in a blank has no blanks at its end. -/
theorem eq_nil_of_blank {s b : Text} (h : ∀ c, (s ++ b).getLast? = some c → isBlank c = false)
    (hb : ∀ c ∈ b, isBlank c = true) : b = [] := by
  cases hl : b.getLast? with
  | none => exact List.getLast?_eq_none_iff.1 hl
  | some c =>
    have := h c (by rw [List.getLast?_append, hl, Option.some_or])
    rw [hb c (List.mem_of_getLast? hl)] at this
    cases this

/-- A text that begins with no blank is not blank. -/
theorem trim_ne_nil {s : Text} {c : Char} (h : s.head? = some c) (hc : isBlank c = false) :
    trim s ≠ [] := by
  have hleft : trimLeft s = s := trimLeft_eq_self_iff.2 fun d hd => by rw [h] at hd; cases hd; exact hc
  intro hnil
  rw [trim, hleft] at hnil
  have hblank := List.rdropWhile_eq_nil_iff.1 hnil c (List.mem_of_head? h)
  rw [hc] at hblank
  cases hblank

theorem trim_eq_nil_iff {s : Text} : trim s = [] ↔ ∀ c ∈ s, isBlank c = true := by
  constructor
  · intro h
    have hleft : ∀ c ∈ trimLeft s, isBlank c = true := List.rdropWhile_eq_nil_iff.1 h
    cases hs : trimLeft s with
    | nil => exact List.dropWhile_eq_nil_iff.1 hs
    | cons c r =>
      have hc := trimLeft_eq_self_iff.1 (dropWhile_dropWhile isBlank s) c (by rw [← trimLeft, hs]; rfl)
      rw [hleft c (hs ▸ List.mem_cons_self)] at hc
      cases hc
  · intro h
    rw [trim, trimLeft, List.dropWhile_eq_nil_iff.2 h]
    rfl

theorem trimmed_of_not_blank {s : Text} (h : ∀ c ∈ s, isBlank c = false) : Trimmed s :=
  ⟨fun c hc => h c (List.mem_of_head? hc), fun c hc => h c (List.mem_of_getLast? hc)⟩

end Agenda.Text
