import Agenda.Lexer
/-!
# Cutting without places

Where a text is cut does not depend on where it stands: `cut` finds the tokens as lexemes, which have
a kind and a text and no span, and the lexer is `cut` with every lexeme put in its place
(`lexFrom_eq`). What is shown of `cut` by following its rules then holds of the lexer at every
position.

Two neighbours touch when there is no gap between them (`touches_iff`).

Results: `lexFrom_eq`; `tokens_lex` and `failure_lex` for a whole text; `unplaced_tokensAt`, by which
everything that looks at kinds and texts alone may be computed from lexemes.
-/
namespace Agenda

def Token.unplaced (t : Token) : Token := { t with span := .zero }

@[simp] theorem Token.kind_unplaced (t : Token) : t.unplaced.kind = t.kind := rfl

@[simp] theorem Token.text_unplaced (t : Token) : t.unplaced.text = t.text := rfl

namespace Lexer

/-- A token without its place, and the blanks before it. -/
structure Lexeme where
  gap : Text
  kind : TokenKind
  text : Text
deriving DecidableEq, Repr

def Lexeme.token (l : Lexeme) : Token := ⟨l.kind, l.text, .zero⟩

/-- The text that lexemes make, the blanks between them included. -/
def Lexeme.textOf (ls : List Lexeme) : Text := (ls.map fun l => l.gap ++ l.text).flatten

@[simp] theorem Lexeme.textOf_nil : textOf [] = [] := rfl

@[simp] theorem Lexeme.textOf_cons (l : Lexeme) (ls : List Lexeme) :
    textOf (l :: ls) = l.gap ++ (l.text ++ textOf ls) := by
  simp [textOf]

@[simp] theorem Lexeme.textOf_append (ls ms : List Lexeme) : textOf (ls ++ ms) = textOf ls ++ textOf ms := by
  simp [textOf]

/-- A text cut into lexemes. With `stuck`, no rule accepts the character after the given blanks; the
tail is what comes after the last token. -/
structure Cut where
  lexemes : List Lexeme
  stuck : Option (Text × Char)
  tail : Text
deriving DecidableEq, Repr

namespace Cut

def empty : Cut := ⟨[], none, []⟩

def prepend (ls : List Lexeme) (c : Cut) : Cut := { c with lexemes := ls ++ c.lexemes }

def indent (gap : Text) : Cut → Cut
  | ⟨l :: ls, stuck, tail⟩ => ⟨{ l with gap := gap ++ l.gap } :: ls, stuck, tail⟩
  | ⟨[], stuck, tail⟩ => ⟨[], stuck.map fun (g, c) => (gap ++ g, c), gap ++ tail⟩

theorem prepend_append (ls ms : List Lexeme) (c : Cut) :
    prepend (ls ++ ms) c = prepend ls (prepend ms c) := by
  simp [prepend]

@[simp] theorem lexemes_prepend (ls : List Lexeme) (c : Cut) :
    (prepend ls c).lexemes = ls ++ c.lexemes := rfl

@[simp] theorem stuck_prepend (ls : List Lexeme) (c : Cut) : (prepend ls c).stuck = c.stuck := rfl

@[simp] theorem tail_prepend (ls : List Lexeme) (c : Cut) : (prepend ls c).tail = c.tail := rfl

@[simp] theorem indent_nil (c : Cut) : indent [] c = c := by
  obtain ⟨_ | ⟨l, ls⟩, stuck, tail⟩ := c
  · rcases stuck with _ | ⟨g, c⟩ <;> rfl
  · rfl

end Cut

/-- Cuts a text, wherever it stands. -/
def cut (state : State) (s : Text) : Cut :=
  match _h : step state s with
  | .done => ⟨[], none, s⟩
  | .stuck gap found => ⟨[], some (gap, found), s⟩
  | .take gap kind text rest next => (cut next rest).prepend [⟨gap, kind, text⟩]
termination_by s.length
decreasing_by exact length_lt_of_step _h

theorem cut_of_done {state : State} {s : Text} (h : step state s = .done) :
    cut state s = ⟨[], none, s⟩ := by
  rw [cut]; split <;> simp_all

theorem cut_of_stuck {state : State} {s gap : Text} {c : Char} (h : step state s = .stuck gap c) :
    cut state s = ⟨[], some (gap, c), s⟩ := by
  rw [cut]; split <;> simp_all

theorem cut_of_take {state next : State} {s gap text rest : Text} {kind : TokenKind}
    (h : step state s = .take gap kind text rest next) :
    cut state s = (cut next rest).prepend [⟨gap, kind, text⟩] := by
  rw [cut]; split <;> simp_all

@[simp] theorem cut_nil (state : State) : cut state [] = .empty := by
  cases state <;> exact cut_of_done rfl

/-! ## Places -/

/-- Puts lexemes in their places, from `p` on. -/
def place (p : Position) : List Lexeme → List Piece
  | [] => []
  | l :: ls =>
    let start := p.after l.gap
    let stop := start.after l.text
    ⟨l.gap, ⟨l.kind, l.text, ⟨start, stop⟩⟩⟩ :: place stop ls

/-- Where lexemes that stand from `p` on end. -/
def placeEnd (p : Position) : List Lexeme → Position
  | [] => p
  | l :: ls => placeEnd ((p.after l.gap).after l.text) ls

theorem placeEnd_eq (p : Position) (ls : List Lexeme) : placeEnd p ls = p.after (Lexeme.textOf ls) := by
  induction ls generalizing p with
  | nil => rfl
  | cons l ls ih => rw [placeEnd, ih, ← Position.after_append, ← Position.after_append, Lexeme.textOf_cons]

/-- The lexer is the cut of its text, put in place. -/
theorem lexFrom_eq (state : State) (p : Position) (s : Text) :
    lexFrom state p s =
      ⟨place p (cut state s).lexemes,
        (cut state s).stuck.map fun (gap, c) => ⟨c, (placeEnd p (cut state s).lexemes).after gap⟩,
        (cut state s).tail⟩ := by
  fun_induction lexFrom state p s with
  | case1 state p s h => rw [cut_of_done h]; rfl
  | case2 state p s gap found h => rw [cut_of_stuck h]; rfl
  | case3 state p s gap kind text rest next h start stop ih =>
    rw [cut_of_take h, ih]
    rfl

def tokensAt (p : Position) (ls : List Lexeme) : List Token := (place p ls).map Piece.token

@[simp] theorem tokensAt_nil (p : Position) : tokensAt p [] = [] := rfl

theorem tokensAt_cons (p : Position) (l : Lexeme) (ls : List Lexeme) :
    tokensAt p (l :: ls)
      = ⟨l.kind, l.text, ⟨p.after l.gap, (p.after l.gap).after l.text⟩⟩
        :: tokensAt ((p.after l.gap).after l.text) ls := rfl

theorem tokensAt_eq_nil {p : Position} {ls : List Lexeme} : tokensAt p ls = [] ↔ ls = [] := by
  cases ls <;> simp [tokensAt_cons]

theorem tokens_lexFrom (state : State) (p : Position) (s : Text) :
    (lexFrom state p s).tokens = tokensAt p (cut state s).lexemes := by
  rw [lexFrom_eq]; rfl

theorem tokens_lex (s : Text) : (lex s).tokens = tokensAt .origin (cut .root s).lexemes :=
  tokens_lexFrom .root .origin s

theorem failure_lex (s : Text) : (lex s).failure.isNone = (cut .root s).stuck.isNone := by
  rw [lex, lexFrom_eq]; simp

theorem failure_eq_none_iff {s : Text} : (lex s).failure = none ↔ (cut .root s).stuck = none := by
  rw [← Option.isNone_iff_eq_none, failure_lex, Option.isNone_iff_eq_none]

theorem tokensAt_append (p : Position) (ls ms : List Lexeme) :
    tokensAt p (ls ++ ms) = tokensAt p ls ++ tokensAt (placeEnd p ls) ms := by
  induction ls generalizing p with
  | nil => rfl
  | cons l ls ih => rw [List.cons_append, tokensAt_cons, tokensAt_cons, ih]; rfl

/-- Blanks in front of a cut move its tokens, and it is stuck where it was. -/
theorem tokensAt_indent (p : Position) (gap : Text) (c : Cut) :
    tokensAt p (c.indent gap).lexemes = tokensAt (p.after gap) c.lexemes := by
  obtain ⟨_ | ⟨l, ls⟩, stuck, tail⟩ := c
  · rfl
  · rw [Cut.indent, tokensAt_cons, tokensAt_cons, Position.after_append]

theorem stuck_indent (gap : Text) (c : Cut) : (c.indent gap).stuck.isNone = c.stuck.isNone := by
  obtain ⟨_ | ⟨l, ls⟩, stuck, tail⟩ := c
  · cases stuck <;> rfl
  · rfl

theorem unplaced_tokensAt (p : Position) (ls : List Lexeme) :
    (tokensAt p ls).map Token.unplaced = ls.map Lexeme.token := by
  induction ls generalizing p with
  | nil => rfl
  | cons l ls ih => rw [tokensAt_cons, List.map_cons, ih]; rfl

/-- What looks at kinds and texts alone finds in tokens what it finds in lexemes. -/
theorem map_tokensAt {α : Type} {f : Token → α} (hf : ∀ t, f t.unplaced = f t) (p : Position)
    (ls : List Lexeme) : (tokensAt p ls).map f = ls.map fun l => f l.token := by
  have h : ((tokensAt p ls).map Token.unplaced).map f = (ls.map Lexeme.token).map f := by
    rw [unplaced_tokensAt]
  simpa only [List.map_map, Function.comp_def, hf] using h

theorem map_kind_tokensAt (p : Position) (ls : List Lexeme) :
    (tokensAt p ls).map Token.kind = ls.map Lexeme.kind := map_tokensAt (fun _ => rfl) p ls

theorem forall_kind_lex (P : TokenKind → Prop) (s : Text) :
    (∀ t ∈ (lex s).tokens, P t.kind) ↔ ∀ l ∈ (cut .root s).lexemes, P l.kind := by
  rw [← List.forall_mem_map, tokens_lex, map_kind_tokensAt, List.forall_mem_map]

theorem map_text_tokensAt (p : Position) (ls : List Lexeme) :
    (tokensAt p ls).map Token.text = ls.map Lexeme.text := map_tokensAt (fun _ => rfl) p ls

/-- A condition on kinds and texts holds of all tokens when it holds of all lexemes. -/
theorem all_tokensAt {f : Token → Bool} (hf : ∀ t, f t.unplaced = f t) (p : Position)
    (ls : List Lexeme) : (tokensAt p ls).all f = ls.all fun l => f l.token := by
  have h := congrArg (List.all · id) (map_tokensAt hf p ls)
  simpa only [List.all_map, Function.comp_def, id] using h

/-- A token in place is that of a lexeme. -/
theorem exists_of_mem_tokensAt {p : Position} {ls : List Lexeme} {t : Token}
    (h : t ∈ tokensAt p ls) : ∃ l ∈ ls, l.token = t.unplaced := by
  have : t.unplaced ∈ ls.map Lexeme.token := by
    rw [← unplaced_tokensAt p]; exact List.mem_map_of_mem h
  exact List.mem_map.1 this

theorem byteSize_eq_zero {s : Text} (h : s.byteSize = 0) : s = [] := by
  cases s with
  | nil => rfl
  | cons c s =>
    have := c.utf8Size_pos
    rw [Text.byteSize_cons] at h
    omega

/-- The lexemes and the tail give the text back. -/
theorem text_cut (s : Text) : Lexeme.textOf (cut .root s).lexemes ++ (cut .root s).tail = s := by
  have hplace (p : Position) (ls : List Lexeme) :
      ((place p ls).map fun q => q.gap ++ q.token.text) = ls.map fun l => l.gap ++ l.text := by
    induction ls generalizing p with
    | nil => rfl
    | cons l ls ih => rw [place, List.map_cons, ih, List.map_cons]
  have h := text_lex s
  rw [lex, lexFrom_eq, Lexed.text] at h
  simp only [hplace] at h
  exact h

/-- A token that ends at `p` touches the token of the lexeme after it when there is no gap. -/
theorem touches_iff {t u : Token} {p : Position} {l : Lexeme} {ls : List Lexeme}
    (ht : t.span.stop = p) (hu : (tokensAt p (l :: ls)).head? = some u) :
    t.touches u = true ↔ l.gap = [] := by
  rw [tokensAt_cons] at hu
  cases hu
  rw [Token.touches, ht, Position.offset_after, beq_iff_eq]
  constructor
  · intro h; exact byteSize_eq_zero (by omega)
  · intro h; rw [h]; rfl

end Lexer

end Agenda
