import Agenda.Proofs.Lexer.Cut
import Agenda.Proofs.Text.Trim
import Agenda.ValueRun
/-!
# What runs join to

The value that a run joins to depends on kinds and texts alone and is trimmed.

Results: a run of lexemes joins to the same value wherever it stands (`join_tokensAt`); what two runs in
a row are spread to (`spread_append`), and how that begins and ends (`head?_spread`, `getLast?_spread`).
-/
namespace Agenda.ValueRun

theorem spread_unplaced (ts : List Token) (begun glued : Bool) :
    spread begun glued (ts.map Token.unplaced) = spread begun glued ts := by
  induction ts generalizing begun glued with
  | nil => rfl
  | cons t ts ih => rw [List.map_cons, spread, ih, spread]; rfl

theorem join_unplaced (ts : List Token) : join (ts.map Token.unplaced) = join ts := by
  rw [join, spread_unplaced, join]

theorem trimmed_join (ts : List Token) : Text.Trimmed (join ts) := Text.trimmed_trim _

/-- A run of lexemes joins to the same value wherever it stands. -/
theorem join_tokensAt (p : Position) (ls : List Lexer.Lexeme) :
    join (Lexer.tokensAt p ls) = join (ls.map Lexer.Lexeme.token) := by
  rw [← join_unplaced, Lexer.unplaced_tokensAt]

/-- A single token that is no quotation. -/
theorem join_singleton {t : Token} (h : t.kind ≠ .quoted) : join [t] = Text.trim t.text := by
  simp [join, spread, Token.value, h]

/-- A single quotation. -/
theorem join_quotation {t : Token} (h : t.kind = .quoted) : join [t] = Text.trim t.text.unquote := by
  simp [join, spread, Token.value, h]

/-! ## Runs in parts -/

/-- A run in two parts: the second begins with what the first leaves. -/
theorem spread_append (begun glued : Bool) (xs ys : List Token) :
    spread begun glued (xs ++ ys)
      = spread begun glued xs
        ++ spread (begun || xs.any fun t => !t.value.isEmpty) (xs.getLast?.elim glued sticksAfter)
          ys := by
  induction xs generalizing begun glued with
  | nil => simp [spread]
  | cons t ts ih =>
    rw [List.cons_append, spread, ih, spread, List.any_cons, List.getLast?_cons, Bool.or_assoc]
    cases ts.getLast? <;> simp

/-- A run after text: a space comes first unless it sticks. -/
theorem spread_begun (glued : Bool) {t : Token} {ts : List Token} (h : t.value ≠ [] ∨ ts = []) :
    spread true glued (t :: ts)
      = (if glued || sticksBefore t then [] else [' ']) ++ spread false false (t :: ts) := by
  have hrest : spread (true || !t.value.isEmpty) (sticksAfter t) ts
      = spread (false || !t.value.isEmpty) (sticksAfter t) ts := by
    rcases h with h | rfl
    · have : (!t.value.isEmpty) = true := by simpa using h
      rw [this]; rfl
    · rfl
  rw [spread, spread, hrest]
  cases glued <;> cases sticksBefore t <;> simp

theorem head?_spread (glued : Bool) {t : Token} (ts : List Token) (h : t.value ≠ []) :
    (spread false glued (t :: ts)).head? = t.value.head? := by
  rw [spread, Bool.false_and, Bool.false_and, if_neg (by simp), List.nil_append,
    List.head?_append_of_ne_nil _ h]

theorem getLast?_spread (begun glued : Bool) {t : Token} (ts : List Token) (h : t.value ≠ []) :
    (spread begun glued (ts ++ [t])).getLast? = t.value.getLast? := by
  rw [spread_append, List.getLast?_append]
  have : (spread (begun || ts.any fun t => !t.value.isEmpty) (ts.getLast?.elim glued sticksAfter)
      [t]).getLast? = t.value.getLast? := by
    rw [spread, spread, List.append_nil, List.getLast?_append]
    cases hl : t.value.getLast? with
    | none => exact absurd (List.getLast?_eq_none_iff.1 hl) h
    | some c => rfl
  rw [this]
  cases hl : t.value.getLast? with
  | none => exact absurd (List.getLast?_eq_none_iff.1 hl) h
  | some c => rfl

end Agenda.ValueRun
