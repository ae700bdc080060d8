import Agenda.Command.Stop
import Agenda.Lexer
import Mathlib.Order.Monotone.Basic
/-!
# The cursor of a reader

A reader may be called again, after a command, a mistake and a panic. That a call ends is in the definitions
of the readers, which call each other on fewer tokens, or on as many and one level down. What a call leaves
are the last of the tokens that were left before it, so the cursor, the number of tokens taken from the line,
never falls, and what is left is what stands from the cursor on. The tokens may be any, also such as no text
is cut into; only these can make a call panic.

Results: `rest_next_suffix` for one call, `rest_after_suffix` for any number of them; the tokens of a text
make no call panic (`next_ne_panic_of_lex`); `calls_keep_the_cursor_sound`.
-/
namespace Agenda.Reader

/-- How many tokens of the line are behind the reader. -/
def cursor (r : Reader) : Nat := r.line.length - r.rest.length

def after (r : Reader) : Nat → Reader
  | 0 => r
  | n + 1 => (r.after n).next.2

/-- The call refuses the line for an open string. -/
def FindsOpenString (outcome : Except Stop Command) : Prop :=
  ∃ e, outcome = .error (.mistake e) ∧ e.cause = .unterminatedString

/-- A call takes a reader of the tokens `ts` from `r` to `r'`. -/
structure SoundCall (ts : List Token) (r : Reader) (outcome : Except Stop Command) (r' : Reader) : Prop where
  mode : r'.mode = r.mode
  line : r'.line = ts
  rest : r'.rest = ts.drop r'.cursor
  forward : r.cursor ≤ r'.cursor
  within : r'.cursor ≤ ts.length
  /-- A command takes all tokens. -/
  ok : ∀ c, outcome = .ok c → r'.cursor = ts.length
  refused : FindsOpenString outcome ↔ ∃ t ∈ ts, t.kind.isOpenString = true
  /-- A line with an open string is refused before a token is taken. -/
  stays : FindsOpenString outcome → r' = r
  /-- A call panics only at a token that is left to it and that cannot be cut after its sigil. -/
  panics : outcome = .error .panic → ∃ t ∈ ts.drop r.cursor, ¬ t.IsCuttable

/-! ## One call -/

section
variable {r : Reader} {c : Command} {f : Failure} {rest : List Token}

theorem next_of_ok (h : Command.readFrom r.mode r.line r.rest = .ok (c, rest)) :
    r.next = (.ok c, { r with rest }) := by rw [next, h]

theorem next_of_error (h : Command.readFrom r.mode r.line r.rest = .error f) :
    r.next = (.error f.stop, { r with rest := f.rest }) := by rw [next, h]

theorem mode_next (r : Reader) : r.next.2.mode = r.mode := by
  unfold next
  split <;> rfl

theorem line_next (r : Reader) : r.next.2.line = r.line := by
  unfold next
  split <;> rfl

theorem rest_next_suffix (r : Reader) : r.next.2.rest <:+ r.rest := by
  cases h : Command.readFrom r.mode r.line r.rest with
  | ok result =>
    obtain ⟨c, rest⟩ := result
    obtain ⟨-, -, i, after, hd, hread⟩ := Command.readFrom_eq_ok_iff.1 h
    rw [next_of_ok h]
    exact (Command.suffix_of_readAs hread).trans (Command.suffix_of_dispatch hd)
  | error f =>
    rw [next_of_error h]
    rcases Command.readFrom_eq_error h with ⟨t, -, rfl⟩ | ⟨-, -, hstops⟩
    · exact List.suffix_rfl
    · exact hstops.rest

theorem cursor_le_next (r : Reader) : r.cursor ≤ r.next.2.cursor := by
  unfold cursor
  rw [line_next]
  exact Nat.sub_le_sub_left (rest_next_suffix r).length_le _

/-- A command is read up to the end of the tokens. -/
theorem cursor_next_of_ok (h : r.next.1 = .ok c) : r.next.2.cursor = r.line.length := by
  cases hread : Command.readFrom r.mode r.line r.rest with
  | ok result =>
    obtain ⟨d, rest⟩ := result
    obtain ⟨-, hend, -⟩ := Command.readFrom_eq_ok_iff.1 hread
    rw [next_of_ok hread, cursor, hend]
    exact Nat.sub_zero _
  | error f =>
    rw [next_of_error hread] at h
    cases h

/-- A line with an open string is refused where the reader stands. -/
theorem next_of_open (h : ∃ t ∈ r.line, t.kind.isOpenString = true) :
    FindsOpenString r.next.1 ∧ r.next.2 = r := by
  obtain ⟨t, ht, hopen⟩ := h
  cases hread : Command.readFrom r.mode r.line r.rest with
  | ok result =>
    have hclosed := (Command.readFrom_eq_ok_iff.1 hread).1 t ht
    simp [hopen] at hclosed
  | error f =>
    rw [next_of_error hread]
    rcases Command.readFrom_eq_error hread with ⟨u, -, rfl⟩ | ⟨hclosed, -⟩
    · exact ⟨⟨_, rfl, rfl⟩, rfl⟩
    · simp [hclosed t ht] at hopen

theorem findsOpenString_next_iff (r : Reader) :
    FindsOpenString r.next.1 ↔ ∃ t ∈ r.line, t.kind.isOpenString = true := by
  refine ⟨fun h => ?_, fun h => (next_of_open h).1⟩
  obtain ⟨e, he, hcause⟩ := h
  cases hread : Command.readFrom r.mode r.line r.rest with
  | ok result =>
    rw [next_of_ok hread] at he
    cases he
  | error f =>
    rw [next_of_error hread] at he
    rcases Command.readFrom_eq_error hread with ⟨t, hfind, -⟩ | ⟨-, -, hstops⟩
    · have hopen := List.find?_some hfind
      exact ⟨t, List.mem_of_find?_eq_some hfind, hopen⟩
    · exact absurd hcause (hstops.cause e (Except.error.inj he))

theorem exists_of_next_panic (h : r.next.1 = .error .panic) : ∃ t ∈ r.rest, ¬ t.IsCuttable := by
  cases hread : Command.readFrom r.mode r.line r.rest with
  | ok result =>
    rw [next_of_ok hread] at h
    cases h
  | error f =>
    rw [next_of_error hread] at h
    have hstop : f.stop = .panic := Except.error.inj h
    rcases Command.readFrom_eq_error hread with ⟨t, -, rfl⟩ | ⟨-, -, hstops⟩
    · cases hstop
    · exact hstops.panic hstop

/-- Where the tokens that are left end the line, they do so after a call. -/
theorem soundCall_next (h : r.rest <:+ r.line) : SoundCall r.line r r.next.1 r.next.2 where
  mode := mode_next r
  line := line_next r
  rest := by
    have hrest := List.suffix_iff_eq_drop.1 ((rest_next_suffix r).trans h)
    rwa [← line_next r] at hrest ⊢
  forward := cursor_le_next r
  within := by
    rw [← line_next r]
    exact Nat.sub_le _ _
  ok _ := cursor_next_of_ok
  refused := findsOpenString_next_iff r
  stays hfinds := (next_of_open ((findsOpenString_next_iff r).1 hfinds)).2
  panics hpanic := by
    obtain ⟨t, ht, hcut⟩ := exists_of_next_panic hpanic
    rw [List.suffix_iff_eq_drop.1 h] at ht
    exact ⟨t, ht, hcut⟩

end

/-! ## Any number of calls -/

theorem line_after (r : Reader) (n : Nat) : (r.after n).line = r.line := by
  induction n with
  | zero => rfl
  | succ n ih => rw [after, line_next, ih]

theorem rest_after_suffix (r : Reader) (n : Nat) : (r.after n).rest <:+ r.rest := by
  induction n with
  | zero => exact List.suffix_rfl
  | succ n ih => exact (rest_next_suffix _).trans ih

/-- What a text is cut into makes no call panic. -/
theorem next_ne_panic_of_lex (mode : Mode) (input : Text) (n : Nat) :
    ((start mode (Lexer.lex input).tokens).after n).next.1 ≠ .error .panic := by
  intro hpanic
  obtain ⟨t, ht, hcut⟩ := exists_of_next_panic hpanic
  exact hcut (Lexer.isCuttable_of_mem_lex ((rest_after_suffix _ n).subset ht))

/-- A reader of any tokens takes every call to an outcome, a command, a mistake or a panic, whatever came of
the calls before; its cursor is at first before all tokens and never falls. -/
theorem calls_keep_the_cursor_sound (mode : Mode) (line : List Token) :
    (start mode line).cursor = 0 ∧
      Monotone (fun n => ((start mode line).after n).cursor) ∧
      ∀ n, ∃ outcome, ((start mode line).after n).next = (outcome, (start mode line).after (n + 1)) ∧
        SoundCall line ((start mode line).after n) outcome ((start mode line).after (n + 1)) := by
  refine ⟨Nat.sub_self _, monotone_nat_of_le_succ fun n => cursor_le_next _, fun n => ⟨_, rfl, ?_⟩⟩
  have hline : ((start mode line).after n).line = line := line_after _ n
  have hrest : ((start mode line).after n).rest <:+ ((start mode line).after n).line := by
    rw [hline]
    exact rest_after_suffix (start mode line) n
  have hcall := soundCall_next hrest
  rw [hline] at hcall
  exact hcall

/-- A view takes one name, so that the first call stops at the second verb, from where the second reads on. -/
example : let r := start .auto (Lexer.lex "view now view later".toList).tokens
    (List.range 3).map (fun n => (r.after n).cursor) = [0, 2, 4] := by decide +kernel

/-- No text is cut into a number without its sigil; the call panics with the number taken. -/
example : let place : Span := .zero
    let r := start .auto
      [⟨.ident, "set".toList, place⟩, ⟨.hashNumber, [], place⟩, ⟨.ident, "x".toList, place⟩]
    r.next.1 = .error .panic ∧ r.next.2.cursor = 2 := by decide +kernel

end Agenda.Reader
