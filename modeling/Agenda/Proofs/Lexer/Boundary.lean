import Agenda.Proofs.Lexer.Cut
import Agenda.Proofs.Lexer.Rules
/-!
# Where one text ends and the next begins

A text before which nothing is joined or told apart otherwise is harmless (`Harmless`): one that goes on
no word and before which no field arises. The lexer takes the tokens before it as if it were not there.

Results: a step before a harmless text is the step without it (`step_append`), and the cut of the two
texts is that of the one and then that of the other (`cut_append`).
-/
namespace Agenda.Lexer

open Text (isBlank)

/-! ## Steps -/

/-- A step outside an open string, from the rule for the first character that is not blank. -/
theorem step_root_take {s r : Text} {c : Char} {kind : TokenKind} {n : Nat}
    (hs : s.dropWhile isBlank = c :: r) (hr : rootRule c r = some (kind, n)) :
    step .root s = .take (s.takeWhile isBlank) kind (c :: r.take n) (r.drop n)
      (State.root.after kind) := by
  simp only [step, hs, hr]

theorem rule_of_step_root {s gap text rest : Text} {kind : TokenKind} {next : State}
    (h : step .root s = .take gap kind text rest next) :
    ∃ c r n, s.dropWhile isBlank = c :: r ∧ rootRule c r = some (kind, n) ∧
      gap = s.takeWhile isBlank ∧ text = c :: r.take n ∧ rest = r.drop n ∧
      next = State.root.after kind := by
  simp only [step] at h
  split at h
  · cases h
  · next c r hs =>
    split at h
    · cases h
    · next k n hr => cases h; exact ⟨c, r, n, hs, hr, rfl, rfl, rfl, rfl⟩

theorem rule_of_step_stuck {s gap : Text} {c : Char} (h : step .root s = .stuck gap c) :
    ∃ r, s.dropWhile isBlank = c :: r ∧ rootRule c r = none ∧ gap = s.takeWhile isBlank := by
  simp only [step] at h
  split at h
  · cases h
  · next d r hs =>
    split at h
    · next hr => cases h; exact ⟨r, hs, hr, rfl⟩
    · cases h

theorem ne_quoteStart_of_closed {kind : TokenKind} (h : kind.isOpenString = false) : kind ≠ .quoteStart := by
  intro hk
  rw [hk] at h
  cases h

theorem after_root {kind : TokenKind} (h : kind ≠ .quoteStart) : State.root.after kind = .root := by
  cases kind <;> first | rfl | exact absurd rfl h

/-- A text that comes after is left over by a rule that looks no further than what it takes. -/
theorem step_root_take_append {s r u : Text} {c : Char} {kind : TokenKind} {n : Nat}
    (hs : s.dropWhile isBlank = c :: r) (hn : n ≤ r.length) (hr : rootRule c (r ++ u) = some (kind, n))
    (hk : kind ≠ .quoteStart) :
    step .root (s ++ u) = .take (s.takeWhile isBlank) kind (c :: r.take n) (r.drop n ++ u) .root := by
  rw [step_root_take (dropWhile_append_of_cons u hs) hr, takeWhile_append_of_ne_nil u (by simp [hs]),
    List.take_append_of_le_length hn, List.drop_append_of_le_length hn, after_root hk]

/-- The text `u` changes nothing about the tokens of `s`: it goes on no word, and no colon comes next or
none makes a field. -/
def Harmless (s u : Text) : Prop :=
  Breaks u ∧ ((u.dropWhile isBlank).head? ≠ some ':' ∨
    ∀ l ∈ (cut .root (s ++ u)).lexemes, isFieldKind l.kind = false)

theorem Separates.harmless {u : Text} (hu : Separates u) (s : Text) : Harmless s u :=
  ⟨hu.breaks, Or.inl hu.colon⟩

theorem step_append {s u gap text rest : Text} {kind : TokenKind} {next : State} (hu : Harmless s u)
    (h : step .root s = .take gap kind text rest next) (hk : kind ≠ .quoteStart) :
    step .root (s ++ u) = .take gap kind text (rest ++ u) .root ∧ next = .root := by
  obtain ⟨c, r, n, hs, hr, rfl, rfl, rfl, rfl⟩ := rule_of_step_root h
  have hfield : NoField c r u := by
    refine hu.2.imp_right fun hall k m hm => ?_
    have hcut := cut_of_take (step_root_take (dropWhile_append_of_cons u hs) hm)
    exact hall ⟨_, k, _⟩ (by rw [hcut, Cut.lexemes_prepend]; exact List.mem_cons_self)
  have hrule := rootRule_append hu.1 hfield hr hk
  exact ⟨step_root_take_append hs (length_rootRule_le hr) hrule hk, after_root hk⟩

/-- A text that is harmless after a text is so after what is left of it. -/
theorem Harmless.rest {s u gap text rest : Text} {kind : TokenKind} (hu : Harmless s u)
    (h : step .root (s ++ u) = .take gap kind text (rest ++ u) .root) : Harmless rest u := by
  refine ⟨hu.1, hu.2.imp_right fun hall l hl => hall l ?_⟩
  rw [cut_of_take h, Cut.lexemes_prepend]
  exact List.mem_append_right _ hl

theorem blank_of_step_done {s : Text} (h : step .root s = .done) : ∀ c ∈ s, isBlank c = true := by
  simp only [step] at h
  split at h
  · next hs => exact List.dropWhile_eq_nil_iff.1 hs
  · split at h <;> cases h

def Step.indent (b : Text) : Step → Step
  | .done => .done
  | .stuck gap c => .stuck (b ++ gap) c
  | .take gap kind text rest next => .take (b ++ gap) kind text rest next

theorem step_blank_append {b : Text} (hb : ∀ c ∈ b, isBlank c = true) (u : Text) :
    step .root (b ++ u) = (step .root u).indent b := by
  have hd : (b ++ u).dropWhile isBlank = u.dropWhile isBlank := by
    rw [List.dropWhile_append, if_pos (by rw [List.dropWhile_eq_nil_iff.2 hb]; rfl)]
  have ht : (b ++ u).takeWhile isBlank = b ++ u.takeWhile isBlank :=
    List.takeWhile_append_of_pos hb
  rw [step, step, hd, ht]
  split
  · rfl
  · split <;> rfl

/-! ## Cuts -/

/-- Blanks in front go to the first gap. -/
theorem cut_blank_append {b : Text} (hb : ∀ c ∈ b, isBlank c = true) (u : Text) :
    cut .root (b ++ u) = (cut .root u).indent b := by
  have h := step_blank_append hb u
  cases hs : step .root u with
  | done => rw [hs] at h; rw [cut_of_done hs, cut_of_done h]; rfl
  | stuck gap c => rw [hs] at h; rw [cut_of_stuck hs, cut_of_stuck h]; rfl
  | take gap kind text rest next => rw [hs] at h; rw [cut_of_take hs, cut_of_take h]; rfl

/-- A text that is cut to its end, without an open string, is cut outside strings step by step. -/
theorem closed_induction {P : Text → Prop} (done : ∀ s, step .root s = .done → P s)
    (take : ∀ s gap kind text rest, kind ≠ .quoteStart →
      step .root s = .take gap kind text rest .root → P rest → P s)
    (s : Text) (hs : (cut .root s).stuck = none)
    (closed : ∀ l ∈ (cut .root s).lexemes, l.kind.isOpenString = false) : P s := by
  generalize hst : State.root = st at hs closed
  induction st, s using cut.induct with
  | case1 st s h => subst hst; exact done s h
  | case2 st s gap c h => rw [cut_of_stuck h] at hs; cases hs
  | case3 st s gap kind text rest next h ih =>
    subst hst
    rw [cut_of_take h] at hs closed
    have hk : kind ≠ .quoteStart := ne_quoteStart_of_closed (closed ⟨gap, kind, text⟩ (by simp))
    obtain ⟨-, rfl⟩ := step_append (separates_nil.harmless s) h hk
    exact take s gap kind text rest hk h (ih rfl hs fun l hl => closed l (by simp [hl]))

/-- Before a harmless text, a text without open strings is cut as it is alone. -/
theorem cut_append {s u : Text} (hu : Harmless s u) (hs : (cut .root s).stuck = none)
    (closed : ∀ l ∈ (cut .root s).lexemes, l.kind.isOpenString = false) :
    cut .root (s ++ u)
      = ((cut .root u).indent (cut .root s).tail).prepend (cut .root s).lexemes := by
  refine closed_induction (P := fun s => Harmless s u → cut .root (s ++ u)
    = ((cut .root u).indent (cut .root s).tail).prepend (cut .root s).lexemes) ?_ ?_ s hs closed hu
  · intro s h _
    rw [cut_of_done h]
    exact cut_blank_append (blank_of_step_done h) u
  · intro s gap kind text rest hk h ih hu
    have h' := (step_append hu h hk).1
    rw [cut_of_take h, cut_of_take h', ih (hu.rest h'), Cut.lexemes_prepend, Cut.prepend_append]
    rfl

/-- What comes after the last token is blank. -/
theorem blank_of_mem_tail {s : Text} (hs : (cut .root s).stuck = none)
    (closed : ∀ l ∈ (cut .root s).lexemes, l.kind.isOpenString = false) :
    ∀ c ∈ (cut .root s).tail, isBlank c = true := by
  refine closed_induction (P := fun s => ∀ c ∈ (cut .root s).tail, isBlank c = true) ?_ ?_ s hs closed
  · intro s h
    rw [cut_of_done h]
    exact blank_of_step_done h
  · intro s gap kind text rest _ h ih
    rw [cut_of_take h]
    exact ih

end Agenda.Lexer
