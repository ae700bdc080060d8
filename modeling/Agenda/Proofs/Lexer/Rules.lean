import Agenda.Proofs.Lexer.Lookahead
/-!
# The rules before another text

Each rule of the lexer, and the choice among them, before a text that goes on no word and that makes no
field of the token: it gives the same kind and the same length as without that text. `Applies` has one
case for each rule; what is shown of all tokens is shown case by case.

Results: `rootRule_append`; a token does not go beyond its text (`length_rootRule_le`) and begins with
no blank (`isBlank_eq_false_of_rule`).
-/
namespace Agenda.Lexer

open Text (isBlank)

/-! ## The rules before a separating text -/

section
variable {u : Text} (hu : Breaks u)
include hu

/-- Before a text that goes on no word a sigil has no name and no number after it. -/
theorem sigil_alone {d : Char} (hd : u.head? = some d) : d.isDigit = false ∧ isTagStart d = false := by
  have hw := hu d hd
  constructor
  · cases h : d.isDigit with
    | false => rfl
    | true => rw [isWordChar_of_isDigit h] at hw; cases hw
  · cases h : isTagStart d with
    | false => rfl
    | true => rw [isWordChar_of_isTagStart h] at hw; cases hw

theorem hashRule_append (r : Text) : hashRule (r ++ u) = hashRule r := by
  cases r with
  | nil =>
    cases u with
    | nil => rfl
    | cons d u =>
      obtain ⟨h1, h2⟩ := sigil_alone hu (d := d) rfl
      simp [hashRule, h1, h2]
  | cons d r =>
    have hdigits : ∀ c, u.head? = some c → c.isDigit = false := fun c hc => (sigil_alone hu hc).1
    simp only [List.cons_append, hashRule]
    rw [← List.cons_append, takeWhile_append_of_head _ hdigits, wordLength_append _ hu]

theorem atRule_append (r : Text) : atRule (r ++ u) = atRule r := by
  cases r with
  | nil =>
    cases u with
    | nil => rfl
    | cons d u => simp [atRule, (sigil_alone hu (d := d) rfl).2]
  | cons d r =>
    simp only [List.cons_append, atRule]
    rw [← List.cons_append, wordLength_append _ hu]

theorem bangRule_append (r : Text) : bangRule (r ++ u) = bangRule r := by
  rw [bangRule, fieldWord?_append hu, bangRule]

theorem wordRule_append {c : Char} {r : Text} (h : fieldColon? (c :: r ++ u) = fieldColon? (c :: r)) :
    wordRule c (r ++ u) = wordRule c r := by
  rw [wordRule, ← List.cons_append, h, wordLength_append _ hu, wordRule]

end

theorem signRule_append (field alone : TokenKind) {r u : Text}
    (h : fieldColon? (r ++ u) = fieldColon? r) :
    signRule field alone (r ++ u) = signRule field alone r := by
  rw [signRule, h, signRule]

theorem quoteRule_append {r u : Text} (h : (quoteRule r).1 ≠ .quoteStart) :
    quoteRule (r ++ u) = quoteRule r := by
  unfold quoteRule at *
  cases hq : closingQuote? r with
  | none => rw [hq] at h; exact absurd rfl h
  | some n => rw [(closingQuote?_append hq).1]

theorem doubledRule_append {kind : TokenKind} {c : Char} {r : Text} {out : TokenKind × Nat}
    (u : Text) (h : doubledRule kind c r = some out) : doubledRule kind c (r ++ u) = some out := by
  unfold doubledRule at *
  cases r with
  | nil => cases h
  | cons d r => exact h

/-! ## Lengths -/

theorem length_hashRule_le (r : Text) : (hashRule r).2 ≤ r.length := by
  unfold hashRule
  split
  · exact Nat.zero_le _
  · split
    · exact (List.takeWhile_sublist _).length_le
    · split
      · exact (List.takeWhile_sublist _).length_le
      · exact Nat.zero_le _

theorem length_atRule_le (r : Text) : (atRule r).2 ≤ r.length := by
  unfold atRule
  split
  · exact Nat.zero_le _
  · split
    · exact (List.takeWhile_sublist _).length_le
    · exact Nat.zero_le _

theorem length_signRule_le (field alone : TokenKind) (r : Text) :
    (signRule field alone r).2 ≤ r.length := by
  unfold signRule
  split
  · next hf => exact length_fieldColon?_le hf
  · exact Nat.zero_le _

theorem length_bangRule_le (r : Text) : (bangRule r).2 ≤ r.length := by
  unfold bangRule
  split
  · next hf => exact length_fieldWord?_le hf
  · exact Nat.zero_le _

theorem length_quoteRule_le (r : Text) : (quoteRule r).2 ≤ r.length := by
  unfold quoteRule
  split
  · next hq => exact (closingQuote?_append (u := []) hq).2
  · exact Nat.zero_le _

theorem length_wordRule_le (c : Char) (r : Text) : (wordRule c r).2 ≤ r.length := by
  unfold wordRule
  split
  · next hf =>
    have := length_fieldColon?_le hf
    rw [List.length_cons] at this
    show _ - 1 ≤ _
    omega
  · exact (List.takeWhile_sublist _).length_le

theorem length_doubledRule_le {kind : TokenKind} {c : Char} {r : Text} {out : TokenKind × Nat}
    (h : doubledRule kind c r = some out) : out.2 ≤ r.length := by
  unfold doubledRule at h
  cases r with
  | nil => cases h
  | cons d r =>
    split at h
    · cases h; simp
    · cases h

/-! ## All rules -/

def isFieldKind : TokenKind → Bool
  | .setField | .addField | .removeField => true
  | _ => false

/-- What comes after the token of `c` and `r` makes no field of it: no colon comes next, or none came
of it. -/
def NoField (c : Char) (r u : Text) : Prop :=
  (u.dropWhile isBlank).head? ≠ some ':' ∨
    ∀ kind n, rootRule c (r ++ u) = some (kind, n) → isFieldKind kind = false

theorem fieldColon?_of_noField {s u : Text} (hu : Breaks u)
    (h : (u.dropWhile isBlank).head? ≠ some ':' ∨ fieldColon? (s ++ u) = none) :
    fieldColon? (s ++ u) = fieldColon? s := by
  rcases h with h | h
  · exact fieldColon?_append ⟨hu, h⟩
  · rw [h, fieldColon?_eq_none h]

theorem signRule_of_noField {c : Char} {r u : Text} {field alone : TokenKind} (hu : Breaks u)
    (hf : isFieldKind field = true) (h : NoField c r u)
    (hc : ∀ s, rootRule c s = some (signRule field alone s)) :
    signRule field alone (r ++ u) = signRule field alone r := by
  refine signRule_append field alone (fieldColon?_of_noField hu (h.imp_right fun h => ?_))
  cases hn : fieldColon? (r ++ u) with
  | none => rfl
  | some n =>
    have := h field n (by rw [hc, signRule, hn])
    rw [hf] at this
    cases this

/-- A rule that applies before a text that goes on no word, and that makes no field of the token,
applies without it in the same way, unless it is the one for a quote that stays open. -/
theorem rootRule_append {c : Char} {r u : Text} {out : TokenKind × Nat} (hu : Breaks u)
    (hfield : NoField c r u) (h : rootRule c r = some out) (hk : out.1 ≠ .quoteStart) :
    rootRule c (r ++ u) = some out := by
  cases applies_of_rootRule h with
  | quote =>
    show some (quoteRule (r ++ u)) = _
    rw [quoteRule_append hk]
  | hash =>
    show some (hashRule (r ++ u)) = _
    rw [hashRule_append hu]
  | context =>
    show some (atRule (r ++ u)) = _
    rw [atRule_append hu]
  | plus =>
    show some (signRule _ _ (r ++ u)) = _
    rw [signRule_of_noField hu rfl hfield fun _ => rfl]
  | minus =>
    show some (signRule _ _ (r ++ u)) = _
    rw [signRule_of_noField hu rfl hfield fun _ => rfl]
  | bang =>
    show some (bangRule (r ++ u)) = _
    rw [bangRule_append hu]
  | colon => rfl
  | comma => rfl
  | leftParen => rfl
  | rightParen => rfl
  | star => rfl
  | ampersand hr => exact doubledRule_append u hr
  | bar hr => exact doubledRule_append u hr
  | word _ _ hw =>
    rw [hw, wordRule_append hu (fieldColon?_of_noField hu (hfield.imp_right fun h => ?_))]
    cases hn : fieldColon? (c :: r ++ u) with
    | none => rfl
    | some n =>
      have := h .setField (n - 1) (by rw [hw, wordRule, ← List.cons_append, hn])
      cases this

/-- A token does not go beyond its text. -/
theorem length_rootRule_le {c : Char} {r : Text} {out : TokenKind × Nat}
    (h : rootRule c r = some out) : out.2 ≤ r.length := by
  cases applies_of_rootRule h with
  | quote => exact length_quoteRule_le r
  | hash => exact length_hashRule_le r
  | context => exact length_atRule_le r
  | plus => exact length_signRule_le .addField .addOp r
  | minus => exact length_signRule_le .removeField .removeOp r
  | bang => exact length_bangRule_le r
  | colon => exact Nat.zero_le _
  | comma => exact Nat.zero_le _
  | leftParen => exact Nat.zero_le _
  | rightParen => exact Nat.zero_le _
  | star => exact Nat.zero_le _
  | ampersand hr => exact length_doubledRule_le hr
  | bar hr => exact length_doubledRule_le hr
  | word => exact length_wordRule_le c r

/-- No rule accepts a blank. -/
theorem isBlank_eq_false_of_rule {c : Char} {r : Text} {out : TokenKind × Nat}
    (h : rootRule c r = some out) : isBlank c = false := by
  cases applies_of_rootRule h with
  | word _ hw _ =>
    cases hb : isBlank c with
    | false => rfl
    | true =>
      have := isWordChar_eq_false_of_isBlank hb
      simp [isWordChar, hw] at this
  | _ => decide

end Agenda.Lexer
