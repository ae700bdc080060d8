import Agenda.Lexer.Rule
/-!
# The lexer

A text is cut into pieces, each a gap of blanks and a token, up to the end or to a character that no
rule accepts. From a quote that is never closed on, everything belongs to the open string, so that a
half-typed line can be cut as well.

Results: the pieces and the tail give the text back (`text_lex`); a step takes at least one
character (`length_lt_of_step`); a token with a sigil has a text to be cut after it
(`isCuttable_of_mem_lex`).
-/
namespace Agenda

/-- A character that no rule accepts, and where it stands. -/
structure LexError where
  found : Char
  position : Position
deriving DecidableEq, Repr

namespace LexError

def message (e : LexError) : Text := "unexpected character \"".toList ++ [e.found] ++ ['"']

def span (e : LexError) : Span := ⟨e.position, e.position.next e.found⟩

end LexError

namespace Lexer

inductive State where
  | root
  /-- After a quote that is never closed. -/
  | string
deriving DecidableEq, Repr

/-- What happens at the head of a text. -/
inductive Step where
  /-- No token is left. -/
  | done
  /-- After the blanks `gap` no rule accepts `found`. -/
  | stuck (gap : Text) (found : Char)
  /-- After the blanks `gap` there is a token; `rest` and `next` are for the next step. -/
  | take (gap : Text) (kind : TokenKind) (text rest : Text) (next : State)

def State.after (s : State) : TokenKind → State
  | .quoteStart => .string
  | .quoteEnd => .root
  | _ => s

/-- The step at the head of `s`. Blanks are passed over outside an open string only. -/
def step (state : State) (s : Text) : Step :=
  match state with
  | .root =>
    match s.dropWhile Text.isBlank with
    | [] => .done
    | c :: r =>
      match rootRule c r with
      | none => .stuck (s.takeWhile Text.isBlank) c
      | some (kind, n) =>
        .take (s.takeWhile Text.isBlank) kind (c :: r.take n) (r.drop n) (State.root.after kind)
  | .string =>
    match s with
    | [] => .done
    | c :: r =>
      let (kind, n) := stringRule c r
      .take [] kind (c :: r.take n) (r.drop n) (State.string.after kind)

theorem step_take_eq {state next : State} {s gap text rest : Text} {kind : TokenKind}
    (h : step state s = .take gap kind text rest next) :
    s = gap ++ text ++ rest ∧ text ≠ [] := by
  unfold step at h
  split at h
  · split at h
    · cases h
    · next c r hs =>
      split at h
      · cases h
      · next k n hk =>
        cases h
        have : s = s.takeWhile Text.isBlank ++ s.dropWhile Text.isBlank :=
          (List.takeWhile_append_dropWhile).symm
        refine ⟨?_, by simp⟩
        rw [List.append_assoc, List.cons_append, List.take_append_drop, ← hs]
        exact this
  · split at h
    · cases h
    · next c r =>
      cases h
      exact ⟨by simp, by simp⟩

theorem length_lt_of_step {state next : State} {s gap text rest : Text} {kind : TokenKind}
    (h : step state s = .take gap kind text rest next) : rest.length < s.length := by
  obtain ⟨hs, ht⟩ := step_take_eq h
  have := List.length_pos_iff.2 ht
  rw [hs]
  simp only [List.length_append]
  omega

structure Piece where
  gap : Text
  token : Token
deriving DecidableEq, Repr

/-- A text cut into pieces: the tail holds what comes after the last token. -/
structure Lexed where
  pieces : List Piece
  failure : Option LexError
  tail : Text
deriving DecidableEq, Repr

namespace Lexed

def tokens (l : Lexed) : List Token := l.pieces.map Piece.token

def text (l : Lexed) : Text := (l.pieces.map fun p => p.gap ++ p.token.text).flatten ++ l.tail

def cons (p : Piece) (l : Lexed) : Lexed := { l with pieces := p :: l.pieces }

theorem text_cons (p : Piece) (l : Lexed) : (cons p l).text = p.gap ++ p.token.text ++ l.text := by
  simp [text, cons]

end Lexed

/-- Cuts `s`, which stands at position `p`. -/
def lexFrom (state : State) (p : Position) (s : Text) : Lexed :=
  match _h : step state s with
  | .done => ⟨[], none, s⟩
  | .stuck gap found => ⟨[], some ⟨found, p.after gap⟩, s⟩
  | .take gap kind text rest next =>
    let start := p.after gap
    let stop := start.after text
    (lexFrom next stop rest).cons ⟨gap, ⟨kind, text, ⟨start, stop⟩⟩⟩
termination_by s.length
decreasing_by exact length_lt_of_step _h

/-- See 4.1 and B.6 of the specification. -/
def lex (s : Text) : Lexed := lexFrom .root .origin s

theorem text_lexFrom (state : State) (p : Position) (s : Text) :
    (lexFrom state p s).text = s := by
  fun_induction lexFrom state p s with
  | case1 => simp [Lexed.text]
  | case2 => simp [Lexed.text]
  | case3 state p s gap kind text rest next h start stop ih =>
    rw [Lexed.text_cons, ih]
    exact (step_take_eq h).1.symm

theorem text_lex (s : Text) : (lex s).text = s := text_lexFrom .root .origin s

/-! ## Sigils -/

theorem isCuttable_of_step {state next : State} {s gap text rest : Text} {kind : TokenKind}
    (h : step state s = .take gap kind text rest next) (span : Span) :
    (Token.mk kind text span).IsCuttable := by
  intro hk
  unfold step at h
  split at h
  · split at h
    · cases h
    · split at h
      · cases h
      · next hrule =>
        cases h
        rcases sigil_of_rootRule hrule hk with rfl | rfl
        · exact Option.isSome_iff_exists.2 ⟨_, Token.afterSigil?_eq_some_iff.2 ⟨'#', rfl, rfl⟩⟩
        · exact Option.isSome_iff_exists.2 ⟨_, Token.afterSigil?_eq_some_iff.2 ⟨'@', rfl, rfl⟩⟩
  · split at h
    · cases h
    · next c r =>
      cases h
      have hnone : (stringRule c r).1.hasSigil = false := hasSigil_stringRule c r
      exact absurd (hnone.symm.trans hk) Bool.false_ne_true

theorem isCuttable_of_mem_lexFrom {state : State} {p : Position} {s : Text} {t : Token}
    (h : t ∈ (lexFrom state p s).tokens) : t.IsCuttable := by
  fun_induction lexFrom state p s with
  | case1 => cases h
  | case2 => cases h
  | case3 state p s gap kind text rest next hstep start stop ih =>
    rcases List.mem_cons.1 h with rfl | hmem
    · exact isCuttable_of_step hstep _
    · exact ih hmem

/-- Every token of a text can be cut after its sigil. -/
theorem isCuttable_of_mem_lex {s : Text} {t : Token} (h : t ∈ (lex s).tokens) : t.IsCuttable :=
  isCuttable_of_mem_lexFrom h

theorem exists_afterSigil_of_mem_lex {s : Text} {t : Token} (h : t ∈ (lex s).tokens)
    (hk : t.kind.hasSigil = true) : ∃ name, t.afterSigil? = some name :=
  Option.isSome_iff_exists.1 (isCuttable_of_mem_lex h hk)

end Lexer

/-! ## One token at a time -/

structure Lexer where
  state : Lexer.State
  position : Position
  rest : Text
  failed : Bool
deriving DecidableEq, Repr

namespace Lexer

def start (s : Text) : Lexer := ⟨.root, .origin, s, false⟩

/-- The next token, or the error; after an error and at the end there is nothing more. -/
def next (l : Lexer) : Option (Except LexError Token) × Lexer :=
  if l.failed then (none, l)
  else match step l.state l.rest with
    | .done => (none, l)
    | .stuck gap found => (some (.error ⟨found, l.position.after gap⟩), { l with failed := true })
    | .take gap kind text rest next =>
      let start := l.position.after gap
      let stop := start.after text
      (some (.ok ⟨kind, text, ⟨start, stop⟩⟩), ⟨next, stop, rest, false⟩)

end Lexer

end Agenda
