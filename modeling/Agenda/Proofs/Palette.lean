import Agenda.Config
import Agenda.Palette
import Agenda.Proofs.Lexer.Tiling
/-!
# Painted lines

A terminal takes characters to show and escape sequences from a text. What it shows of a painted line is the
line itself, and the sequences come in pairs, each of which encloses one token that has a colour, at its
place. From where the lexer fails on, there is neither a sequence nor a pair still open.

That no text of the line ends or begins a sequence needs a line without the escape character; that no style
does, needs styles without an `m` (`Palette.IsClean`), such as the standard ones and those that a
configuration may have.

Results: what a terminal takes from painted pieces (`stripped_paintPieces`, `enclosuresFrom?_paintPieces`);
`Palette.isClean_ofStyles`; a line is painted as by the places of its tokens (`Palette.paintSlices?_lex`);
`painting_only_adds_colour`.
-/
namespace Agenda

namespace Terminal

/-! ## What a terminal takes -/

inductive Signal where
  /-- A character to show. -/
  | shown (c : Char)
  /-- An escape sequence, of which this stands between the escape character and the `m` at the end. -/
  | sequence (body : Text)
deriving DecidableEq, Repr

/-- The signals of a text. Of a sequence that has begun, `body` (backwards) has been read. -/
def signalsFrom : Option Text → Text → List Signal
  | _, [] => []
  | none, c :: r => if c = '\x1b' then signalsFrom (some []) r else .shown c :: signalsFrom none r
  | some body, c :: r =>
    if c = 'm' then .sequence body.reverse :: signalsFrom none r else signalsFrom (some (c :: body)) r

def signals (s : Text) : List Signal := signalsFrom none s

def Signal.char? : Signal → Option Char
  | shown c => some c
  | sequence _ => none

def stripped (s : Text) : Text := (signals s).filterMap Signal.char?

/-! ## Pairs of sequences -/

/-- Two escape sequences and the text between them, with its place among what is shown. -/
structure Enclosure where
  opening : Text
  text : Text
  span : Span
  closing : Text
deriving DecidableEq, Repr

/-- An escape sequence, where it stands, and what has come since then. -/
structure Opening where
  body : Text
  start : Position
  text : Text

def Opening.close (o : Opening) (p : Position) (body : Text) : Enclosure :=
  ⟨o.body, o.text, ⟨o.start, p⟩, body⟩

/-- The pairs of sequences in signals that come at `p`, after a sequence that waits for its partner if there
is one. Nothing when a sequence has no partner. -/
def enclosuresFrom? : Option Opening → Position → List Signal → Option (List Enclosure)
  | none, _, [] => some []
  | some _, _, [] => none
  | o, p, .shown c :: r => enclosuresFrom? (o.map fun o => { o with text := o.text ++ [c] }) (p.next c) r
  | none, p, .sequence body :: r => enclosuresFrom? (some ⟨body, p, []⟩) p r
  | some o, p, .sequence body :: r => (enclosuresFrom? none p r).map (o.close p body :: ·)

def enclosures? (s : Text) : Option (List Enclosure) := enclosuresFrom? none .origin (signals s)

/-! ## Reading signals -/

theorem signals_append {a : Text} (ha : '\x1b' ∉ a) (u : Text) :
    signals (a ++ u) = a.map .shown ++ signals u := by
  induction a with
  | nil => rfl
  | cons c a ih =>
    obtain ⟨hc, ha⟩ := not_or.1 (mt List.mem_cons.2 ha)
    rw [List.cons_append, signals, signalsFrom, if_neg (Ne.symm hc), ← signals, ih ha]
    rfl

theorem signalsFrom_body {a : Text} (ha : 'm' ∉ a) (body u : Text) :
    signalsFrom (some body) (a ++ 'm' :: u) = .sequence (body.reverse ++ a) :: signals u := by
  induction a generalizing body with
  | nil => rw [List.nil_append, signalsFrom, if_pos rfl, List.append_nil, signals]
  | cons c a ih =>
    obtain ⟨hc, ha⟩ := not_or.1 (mt List.mem_cons.2 ha)
    rw [List.cons_append, signalsFrom, if_neg (Ne.symm hc), ih ha, List.reverse_cons, List.append_assoc]
    rfl

theorem signals_sequence {parameters : Text} (h : 'm' ∉ parameters) (u : Text) :
    signals (Palette.sequence parameters ++ u) = .sequence ('[' :: parameters) :: signals u := by
  have hbody : 'm' ∉ '[' :: parameters := mt List.mem_cons.1 (not_or.2 ⟨by decide, h⟩)
  have := signalsFrom_body hbody [] u
  rw [List.reverse_nil, List.nil_append] at this
  rw [← this, Palette.sequence, signals, List.cons_append, signalsFrom, if_pos rfl]
  simp

theorem stripped_append {a : Text} (ha : '\x1b' ∉ a) (u : Text) : stripped (a ++ u) = a ++ stripped u := by
  rw [stripped, signals_append ha, List.filterMap_append, List.filterMap_map, stripped]
  congr 1
  exact List.filterMap_some

theorem stripped_sequence {parameters : Text} (h : 'm' ∉ parameters) (u : Text) :
    stripped (Palette.sequence parameters ++ u) = stripped u := by
  rw [stripped, signals_sequence h]
  rfl

theorem enclosuresFrom?_shown (o : Option Opening) (p : Position) (a : Text) (r : List Signal) :
    enclosuresFrom? o p (a.map .shown ++ r)
      = enclosuresFrom? (o.map fun o => { o with text := o.text ++ a }) (p.after a) r := by
  induction a generalizing o p with
  | nil => cases o <;> simp
  | cons c a ih =>
    rw [List.map_cons, List.cons_append, enclosuresFrom?, ih]
    cases o <;> simp

end Terminal

namespace Palette

open Terminal

/-! ## Styles -/

/-- No style ends an escape sequence before its time. -/
def IsClean (p : Palette) : Prop := ∀ kind style, p kind = some style → 'm' ∉ style

theorem isClean_standard : IsClean standard := by
  intro kind style h
  cases kind <;> cases h <;> decide

theorem notMem_of_isStyle {style : Text} (h : Config.isStyle style = true) : 'm' ∉ style := by
  have hpieces : ∀ piece ∈ Text.pieces ';' style, ∀ c ∈ piece, c.isDigit = true := by
    intro piece hpiece
    have hpart := List.all_eq_true.1 h piece hpiece
    simp only [Bool.and_eq_true] at hpart
    exact List.all_eq_true.1 hpart.2
  intro hm
  rcases Text.forall_mem_pieces.1 hpieces 'm' hm with hc | hc <;> revert hc <;> decide

theorem isClean_ofStyles {styles : Dictionary}
    (h : ∀ e ∈ styles.entries, e.value = [] ∨ Config.isStyle e.value = true) : IsClean (ofStyles styles) := by
  intro kind style hstyle
  unfold ofStyles at hstyle
  split at hstyle
  · exact isClean_standard kind style hstyle
  · cases hstyle
  · next style' hne hfind =>
    cases hstyle
    obtain ⟨e, he, rfl⟩ := Option.map_eq_some_iff.1 hfind
    rcases h e (List.mem_of_find?_eq_some he) with hnil | hs
    · exact absurd (hnil ▸ rfl) hne
    · exact notMem_of_isStyle hs

/-! ## Painted pieces -/

/-- What encloses a token, if it has a colour: its style, and the end of all styles. -/
def enclosure? (p : Palette) (t : Token) : Option Enclosure :=
  (p t.kind).map fun style => ⟨'[' :: style, t.text, t.span, "[0".toList⟩

def paintPieces (p : Palette) (pieces : List Lexer.Piece) : Text :=
  (pieces.map fun piece => piece.gap ++ p.paintText piece.token.kind piece.token.text).flatten

theorem paintPieces_cons (p : Palette) (piece : Lexer.Piece) (pieces : List Lexer.Piece) :
    p.paintPieces (piece :: pieces)
      = piece.gap ++ p.paintText piece.token.kind piece.token.text ++ p.paintPieces pieces := rfl

section
variable {p : Palette} (hp : p.IsClean)
include hp

theorem stripped_paintText (kind : TokenKind) {s : Text} (hs : '\x1b' ∉ s) (u : Text) :
    stripped (p.paintText kind s ++ u) = s ++ stripped u := by
  unfold paintText
  split
  · exact stripped_append hs u
  · next style hstyle =>
    rw [List.append_assoc, List.append_assoc, stripped_sequence (hp kind style hstyle),
      stripped_append hs, stripped_sequence (by decide)]

theorem enclosuresFrom?_paintText (q : Position) (kind : TokenKind) {s : Text} (hs : '\x1b' ∉ s) (u : Text) :
    enclosuresFrom? none q (signals (p.paintText kind s ++ u))
      = (enclosuresFrom? none (q.after s) (signals u)).map
          ((p.enclosure? ⟨kind, s, ⟨q, q.after s⟩⟩).toList ++ ·) := by
  unfold paintText enclosure?
  split
  · next hnone => rw [signals_append hs, enclosuresFrom?_shown, hnone]; simp
  · next style hstyle =>
    rw [List.append_assoc, List.append_assoc, signals_sequence (hp kind style hstyle), enclosuresFrom?,
      signals_append hs, enclosuresFrom?_shown, signals_sequence (by decide), Option.map_some,
      enclosuresFrom?, hstyle]
    rfl

end

open Lexer

section
variable {p : Palette} (hp : p.IsClean)
include hp

theorem stripped_paintPieces (q : Position) {ls : List Lexeme} (hls : '\x1b' ∉ Lexeme.textOf ls) (u : Text) :
    stripped (p.paintPieces (place q ls) ++ u) = Lexeme.textOf ls ++ stripped u := by
  induction ls generalizing q with
  | nil => rfl
  | cons l ls ih =>
    simp only [Lexeme.textOf_cons, List.mem_append, not_or] at hls
    obtain ⟨hgap, htext, hls⟩ := hls
    rw [place, paintPieces_cons, List.append_assoc, List.append_assoc, stripped_append hgap,
      stripped_paintText hp l.kind htext, ih _ hls, Lexeme.textOf_cons]
    simp only [List.append_assoc]

/-- The pairs of sequences in painted pieces are those of the tokens that have a colour. -/
theorem enclosuresFrom?_paintPieces (q : Position) {ls : List Lexeme} (hls : '\x1b' ∉ Lexeme.textOf ls)
    (u : Text) :
    enclosuresFrom? none q (signals (p.paintPieces (place q ls) ++ u))
      = (enclosuresFrom? none (placeEnd q ls) (signals u)).map
          ((tokensAt q ls).filterMap p.enclosure? ++ ·) := by
  induction ls generalizing q with
  | nil => simp [paintPieces, place, placeEnd]
  | cons l ls ih =>
    simp only [Lexeme.textOf_cons, List.mem_append, not_or] at hls
    obtain ⟨hgap, htext, hls⟩ := hls
    rw [place, paintPieces_cons, List.append_assoc, List.append_assoc, signals_append hgap,
      enclosuresFrom?_shown, Option.map_none, enclosuresFrom?_paintText hp _ l.kind htext, ih _ hls,
      tokensAt_cons, List.filterMap_cons, Option.map_map, placeEnd]
    cases p.enclosure? ⟨l.kind, l.text, ⟨q.after l.gap, (q.after l.gap).after l.text⟩⟩ <;> rfl

/-- A plain text after painted pieces adds no pair and leaves none open. -/
theorem enclosures?_append {ls : List Lexeme} (hls : '\x1b' ∉ Lexeme.textOf ls) {u : Text} (hu : '\x1b' ∉ u) :
    enclosures? (p.paintPieces (place .origin ls) ++ u)
      = some ((tokensAt .origin ls).filterMap p.enclosure?) := by
  have hplain : signals u = u.map .shown ++ [] := by
    rw [← List.append_nil u, signals_append hu]
    simp [signals, signalsFrom]
  rw [enclosures?, enclosuresFrom?_paintPieces hp _ hls, hplain, enclosuresFrom?_shown]
  simp [enclosuresFrom?]

end

/-! ## Painted lines -/

theorem paint_eq (p : Palette) (s : Text) :
    p.paint s = p.paintPieces (place .origin (cut .root s).lexemes) ++ (cut .root s).tail := by
  rw [paint, lex, lexFrom_eq]
  rfl

/-- The line painted by the places of its tokens: from `cursor` on, what stands before a token is cut out of
the line, and every token by its span. Nothing when a place is not between two characters, or before the last
one. -/
def paintSlices? (p : Palette) (line : Text) (cursor : Position) : List Token → Option Text
  | [] => cursor.rest? line
  | t :: ts => do
    let gap ← (Span.mk cursor t.span.start).slice? line
    let text ← t.span.slice? line
    let rest ← p.paintSlices? line t.span.stop ts
    return gap ++ p.paintText t.kind text ++ rest

theorem paintSlices?_tokensAt (p : Palette) (before : Text) (ls : List Lexeme) (u : Text) :
    p.paintSlices? (before ++ Lexeme.textOf ls ++ u) (Position.origin.after before)
        (tokensAt (Position.origin.after before) ls)
      = some (p.paintPieces (place (Position.origin.after before) ls) ++ u) := by
  induction ls generalizing before with
  | nil =>
    rw [Lexeme.textOf_nil, List.append_nil]
    exact Position.rest?_append before u
  | cons l ls ih =>
    have hgap := Span.slice?_append before l.gap (l.text ++ Lexeme.textOf ls ++ u)
    have htext := Span.slice?_append (before ++ l.gap) l.text (Lexeme.textOf ls ++ u)
    have hrest := ih (before ++ l.gap ++ l.text)
    simp only [Lexeme.textOf_cons, List.append_assoc, Position.after_append] at hgap htext hrest ⊢
    rw [tokensAt_cons, paintSlices?, hgap, htext, hrest, place, paintPieces_cons]
    simp only [Option.bind_eq_bind, Option.bind_some, List.append_assoc]
    rfl

/-- A line is painted as by the places of its tokens. -/
theorem paintSlices?_lex (p : Palette) (s : Text) :
    p.paintSlices? s .origin (lex s).tokens = some (p.paint s) := by
  have := paintSlices?_tokensAt p [] (cut .root s).lexemes (cut .root s).tail
  rwa [List.nil_append, text_cut, Position.after_nil, ← tokens_lex, ← paint_eq] at this

theorem notMem_cut {s : Text} {c : Char} (h : c ∉ s) :
    c ∉ Lexeme.textOf (cut .root s).lexemes ∧ c ∉ (cut .root s).tail := by
  rw [← text_cut s] at h
  exact not_or.1 (mt List.mem_append.2 h)

section
variable {p : Palette} (hp : p.IsClean) {s : Text} (hs : '\x1b' ∉ s)
include hp hs

theorem stripped_paint : stripped (p.paint s) = s := by
  obtain ⟨hls, htail⟩ := notMem_cut hs
  have hplain : stripped (cut .root s).tail = (cut .root s).tail := by
    have := stripped_append htail []
    rwa [List.append_nil, show stripped [] = [] from rfl, List.append_nil] at this
  rw [paint_eq, stripped_paintPieces hp _ hls, hplain, text_cut]

theorem enclosures?_paint : enclosures? (p.paint s) = some ((lex s).tokens.filterMap p.enclosure?) := by
  obtain ⟨hls, htail⟩ := notMem_cut hs
  rw [paint_eq, enclosures?_append hp hls htail, tokens_lex]

/-- From the character that no rule accepts on, the painted line is the line, after the last pair. -/
theorem exists_plain_end {f : LexError} (hf : (lex s).failure = some f) :
    ∃ front rest, p.paint s = front ++ rest ∧ f.position.rest? s = some rest ∧ '\x1b' ∉ rest ∧
      enclosures? front = some ((lex s).tokens.filterMap p.enclosure?) := by
  obtain ⟨hls, htail⟩ := notMem_cut hs
  rw [lex, lexFrom_eq] at hf
  obtain ⟨⟨gap, c⟩, hstuck, rfl⟩ := Option.map_eq_some_iff.1 hf
  obtain ⟨r, hr⟩ := exists_tail_of_stuck hstuck
  have hgap : '\x1b' ∉ gap := fun h => htail (by rw [hr]; exact List.mem_append_left _ h)
  have hrest : '\x1b' ∉ c :: r := fun h => htail (by rw [hr]; exact List.mem_append_right _ h)
  refine ⟨p.paintPieces (place .origin (cut .root s).lexemes) ++ gap, c :: r, ?_, ?_, hrest, ?_⟩
  · rw [paint_eq, hr, List.append_assoc]
  · have htext : s = Lexeme.textOf (cut .root s).lexemes ++ gap ++ c :: r := by
      rw [List.append_assoc, ← hr, text_cut]
    show (((placeEnd .origin (cut .root s).lexemes).after gap).rest? s) = _
    rw [placeEnd_eq, ← Position.after_append]
    nth_rewrite 2 [htext]
    exact Position.rest?_append _ _
  · rw [enclosures?_append hp hls hgap, tokens_lex]

end

end Palette

open Terminal Lexer in
/-- Painting a line adds colour and nothing else. Without its escape sequences the painted line is the line;
the sequences come in pairs, each of which encloses a token that has a colour, and no other text; and from
where the lexer fails on, the line stands as it is at the end, after the last pair. -/
theorem painting_only_adds_colour (styles : Dictionary) (s : Text) (hs : '\x1b' ∉ s)
    (hstyles : ∀ e ∈ styles.entries, e.value = [] ∨ Config.isStyle e.value = true) :
    stripped ((Palette.ofStyles styles).paint s) = s ∧
      enclosures? ((Palette.ofStyles styles).paint s)
        = some ((lex s).tokens.filterMap (Palette.ofStyles styles).enclosure?) ∧
      ∀ f, (lex s).failure = some f → ∃ front rest,
        (Palette.ofStyles styles).paint s = front ++ rest ∧ f.position.rest? s = some rest ∧
          '\x1b' ∉ rest ∧
          enclosures? front = some ((lex s).tokens.filterMap (Palette.ofStyles styles).enclosure?) :=
  have hclean := Palette.isClean_ofStyles hstyles
  ⟨Palette.stripped_paint hclean hs, Palette.enclosures?_paint hclean hs,
    fun _ hf => Palette.exists_plain_end hclean hs hf⟩

open Terminal Lexer in
/-- Tags in red and fields without a colour: of a line that fails at a dollar sign the first tag is painted,
and the second is not. -/
theorem painting_only_adds_colour_to_tag :
    let out := (Palette.ofStyles (.ofList
      [⟨"ProjectTag".toList, "31".toList⟩, ⟨"SetField".toList, []⟩])).paint "due:x #a $ #b".toList
    stripped out = "due:x #a $ #b".toList ∧
      enclosures? out = some [⟨"[31".toList, "#a".toList, ⟨⟨6, 1, 7⟩, ⟨8, 1, 9⟩⟩, "[0".toList⟩] ∧
      ∃ front, out = front ++ "$ #b".toList ∧ enclosures? front = enclosures? out := by
  obtain ⟨hstripped, hpairs, hend⟩ := painting_only_adds_colour
    (.ofList [⟨"ProjectTag".toList, "31".toList⟩, ⟨"SetField".toList, []⟩]) "due:x #a $ #b".toList
    (by decide) (by decide)
  obtain ⟨front, rest, hout, hrest, -, hfront⟩ := hend ⟨'$', ⟨9, 1, 10⟩⟩ (by decide +kernel)
  have hdollar : rest = "$ #b".toList := Option.some.inj (hrest.symm.trans (by decide))
  exact ⟨hstripped, hpairs.trans (by decide +kernel), front, hdollar ▸ hout, hfront.trans hpairs.symm⟩

end Agenda
