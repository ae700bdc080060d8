import Agenda.Proofs.Lexer.Boundary
/-!
# Tokens in their places

The lexer loses nothing of a text: its tokens, the blanks around them and, after a failure, what it
never looked at are all of it, in order, and every position it reports is that of its place.

`Tiling before rest tokens failure` says how the text `rest`, which stands after `before`, is covered.
One step of the lexer lays one tile (`step_take_gap`, `step_stuck`), so a whole run makes a tiling
(`tiling_lexFrom`). Everything else is read off a tiling, by the bytes that positions count.

Results: `tiling_lexFrom`; `covers_lex`.
-/
namespace Agenda

open Text (isBlank)

/-! ## Places in a text -/

/-- The position is one of `s`: its byte offset falls between two characters of `s`, and passing over
the characters before them leads to it. -/
def Position.IsPlaceIn (p : Position) (s : Text) : Prop :=
  ∃ before rest, Text.splitAtByte? p.offset s = some (before, rest) ∧ p = Position.origin.after before

/-- What of `s` comes from a position on, if its offset falls between two characters. -/
def Position.rest? (p : Position) (s : Text) : Option Text :=
  (Text.splitAtByte? p.offset s).map Prod.snd

/-- The part of `s` between the offsets of a span, if both fall between two characters and the first
is not beyond the second. -/
def Span.slice? (span : Span) (s : Text) : Option Text := do
  let (upTo, _) ← Text.splitAtByte? span.stop.offset s
  let (_, part) ← Text.splitAtByte? span.start.offset upTo
  return part

theorem Position.offset_origin_after (s : Text) : (Position.origin.after s).offset = s.byteSize := by
  rw [Position.offset_after]
  exact Nat.zero_add _

theorem Position.isPlaceIn_append (a b : Text) : (Position.origin.after a).IsPlaceIn (a ++ b) :=
  ⟨a, b, by rw [offset_origin_after, Text.splitAtByte?_append], rfl⟩

theorem Position.rest?_append (a b : Text) : (Position.origin.after a).rest? (a ++ b) = some b := by
  rw [rest?, offset_origin_after, Text.splitAtByte?_append]; rfl

theorem Span.slice?_append (a t b : Text) :
    (Span.mk (Position.origin.after a) (Position.origin.after (a ++ t))).slice? (a ++ t ++ b)
      = some t := by
  simp only [slice?, Position.offset_origin_after, Text.splitAtByte?_append]
  show (Text.splitAtByte? a.byteSize (a ++ t)).bind _ = _
  rw [Text.splitAtByte?_append]; rfl

namespace Lexer

/-! ## Steps -/

/-- What a step passes over before a token is blank. -/
theorem step_take_gap {state next : State} {s gap text rest : Text} {kind : TokenKind}
    (h : step state s = .take gap kind text rest next) : ∀ c ∈ gap, isBlank c = true := by
  cases state with
  | root =>
    obtain ⟨c, r, n, hs, hr, rfl, rfl, rfl, rfl⟩ := rule_of_step_root h
    exact fun c hc => List.mem_takeWhile_imp hc
  | string =>
    cases s with
    | nil => cases h
    | cons c r => cases h; simp

/-- A step fails at a character that is not blank, and what it passes over before it is. -/
theorem step_stuck {state : State} {s gap : Text} {found : Char}
    (h : step state s = .stuck gap found) :
    (∃ r, s = gap ++ found :: r) ∧ (∀ c ∈ gap, isBlank c = true) ∧ isBlank found = false := by
  cases state with
  | root =>
    obtain ⟨r, hs, -, rfl⟩ := rule_of_step_stuck h
    refine ⟨⟨r, ?_⟩, fun c hc => List.mem_takeWhile_imp hc, eq_false_of_dropWhile hs⟩
    rw [← hs, List.takeWhile_append_dropWhile]
  | string =>
    cases s with
    | nil => cases h
    | cons c r => cases h

/-- The tail of a cut that is stuck goes on with the blanks before the character and with it. -/
theorem exists_tail_of_stuck {state : State} {s gap : Text} {c : Char}
    (h : (cut state s).stuck = some (gap, c)) : ∃ r, (cut state s).tail = gap ++ c :: r := by
  induction state, s using cut.induct with
  | case1 state s hs => rw [cut_of_done hs] at h; cases h
  | case2 state s gap' found hs =>
    rw [cut_of_stuck hs] at h ⊢
    cases h
    exact (step_stuck hs).1
  | case3 state s gap' kind text rest next hs ih =>
    rw [cut_of_take hs, Cut.stuck_prepend] at h
    rw [cut_of_take hs, Cut.tail_prepend]
    exact ih h

theorem step_done {state : State} {s : Text} (h : step state s = .done) :
    ∀ c ∈ s, isBlank c = true := by
  cases state with
  | root => exact blank_of_step_done h
  | string =>
    cases s with
    | nil => simp
    | cons c r => cases h

/-! ## Tilings -/

/-- The text `rest`, which stands after `before`, is made of gaps of blanks and of tokens in their
places. It ends in blanks, or it goes on from a character that is not blank, where the lexer fails. -/
inductive Tiling : Text → Text → List Token → Option LexError → Prop
  | done {before rest : Text} (blank : ∀ c ∈ rest, isBlank c = true) : Tiling before rest [] none
  | stuck {before gap r : Text} {found : Char} (blank : ∀ c ∈ gap, isBlank c = true)
      (hfound : isBlank found = false) :
      Tiling before (gap ++ found :: r) [] (some ⟨found, Position.origin.after (before ++ gap)⟩)
  | take {before gap text rest : Text} {kind : TokenKind} {tokens : List Token}
      {failure : Option LexError} (blank : ∀ c ∈ gap, isBlank c = true) (ne_nil : text ≠ [])
      (tiling : Tiling (before ++ gap ++ text) rest tokens failure) :
      Tiling before (gap ++ text ++ rest)
        (⟨kind, text, ⟨Position.origin.after (before ++ gap),
            Position.origin.after (before ++ gap ++ text)⟩⟩ :: tokens)
        failure

/-- A run of the lexer from any state and any place makes a tiling. -/
theorem tiling_lexFrom (state : State) (before rest : Text) :
    Tiling before rest (lexFrom state (Position.origin.after before) rest).tokens
      (lexFrom state (Position.origin.after before) rest).failure := by
  generalize hp : Position.origin.after before = p
  fun_induction lexFrom state p rest generalizing before with
  | case1 state p s h => exact .done (step_done h)
  | case2 state p s gap found h =>
    obtain ⟨⟨r, rfl⟩, hgap, hfound⟩ := step_stuck h
    subst hp
    rw [← Position.after_append]
    exact .stuck hgap hfound
  | case3 state p s gap kind text rest next h start stop ih =>
    obtain ⟨rfl, htext⟩ := step_take_eq h
    have hstart : start = Position.origin.after (before ++ gap) := by
      rw [Position.after_append, hp]
    have hstop : stop = Position.origin.after (before ++ gap ++ text) := by
      rw [Position.after_append, ← hstart]
    have htail := ih (before ++ gap ++ text) hstop.symm
    rw [hstart, hstop] at *
    exact .take (step_take_gap h) htext htail

namespace Tiling

variable {before rest : Text} {tokens : List Token} {failure : Option LexError}

/-- A token of a tiling is a part of the text, at its place and not before the tiling. -/
theorem exists_of_mem (h : Tiling before rest tokens failure) {t : Token} (ht : t ∈ tokens) :
    t.text ≠ [] ∧ ∃ a b, before ++ rest = before ++ a ++ t.text ++ b ∧
      t.span = ⟨Position.origin.after (before ++ a), Position.origin.after (before ++ a ++ t.text)⟩ := by
  induction h with
  | done => simp at ht
  | stuck => simp at ht
  | @take before gap text rest kind tokens failure blank ne_nil tiling ih =>
    rcases List.mem_cons.1 ht with rfl | ht
    · exact ⟨ne_nil, gap, rest, by simp only [List.append_assoc], rfl⟩
    · obtain ⟨hne, a, b, htext, hspan⟩ := ih ht
      refine ⟨hne, gap ++ text ++ a, b, ?_, ?_⟩
      · simpa only [List.append_assoc] using htext
      · simpa only [List.append_assoc] using hspan

theorem in_order (h : Tiling before rest tokens failure) :
    tokens.Pairwise fun t u => t.span.stop.offset ≤ u.span.start.offset := by
  induction h with
  | done => exact .nil
  | stuck => exact .nil
  | take blank ne_nil tiling ih =>
    refine .cons (fun u hu => ?_) ih
    obtain ⟨_, a, _, _, hspan⟩ := tiling.exists_of_mem hu
    simp only [hspan, Position.offset_origin_after, Text.byteSize_append]
    omega

end Tiling

/-- The spans before each of the tokens, from the stop of the one before or from `p` on. -/
def gaps (p : Position) : List Token → List Span
  | [] => []
  | t :: ts => ⟨p, t.span.start⟩ :: gaps t.span.stop ts

/-- Where the last of the tokens stops; `p` when there is none. -/
def lastStop (p : Position) : List Token → Position
  | [] => p
  | t :: ts => lastStop t.span.stop ts

/-- What is left at `p` when the lexer stops there: nothing, or a text that begins with the character it
fails at. -/
def StopsAt (p : Position) (r : Text) : Option LexError → Prop
  | none => r = []
  | some f => f.position = p ∧ isBlank f.found = false ∧ ∃ r', r = f.found :: r'

namespace Tiling

variable {before rest : Text} {tokens : List Token} {failure : Option LexError}

/-- Between tokens there are blanks only. -/
theorem blank_of_mem_gaps (h : Tiling before rest tokens failure) {gap : Span}
    (hgap : gap ∈ gaps (Position.origin.after before) tokens) :
    ∃ b, gap.slice? (before ++ rest) = some b ∧ ∀ c ∈ b, isBlank c = true := by
  induction h with
  | done => simp [gaps] at hgap
  | stuck => simp [gaps] at hgap
  | @take before g text rest kind tokens failure blank ne_nil tiling ih =>
    rcases List.mem_cons.1 hgap with rfl | hgap
    · refine ⟨g, ?_, blank⟩
      simpa only [List.append_assoc] using Span.slice?_append before g (text ++ rest)
    · simpa only [List.append_assoc] using ih hgap

/-- After the last token there is nothing but blanks, up to the end or up to the failure. -/
theorem exists_end (h : Tiling before rest tokens failure) :
    ∃ a gap r, before ++ rest = a ++ gap ++ r ∧ (∀ c ∈ gap, isBlank c = true) ∧
      lastStop (Position.origin.after before) tokens = Position.origin.after a ∧
      StopsAt (Position.origin.after (a ++ gap)) r failure := by
  induction h with
  | @done before rest blank => exact ⟨before, rest, [], by simp, blank, rfl, rfl⟩
  | @stuck before gap r found blank hfound =>
    exact ⟨before, gap, found :: r, by simp, blank, rfl, rfl, hfound, r, rfl⟩
  | @take before g text rest kind tokens failure blank ne_nil tiling ih =>
    obtain ⟨a, gap, r, htext, hend⟩ := ih
    exact ⟨a, gap, r, by simpa only [List.append_assoc] using htext, hend⟩

end Tiling

/-! ## The whole text -/

/-- The tokens are those of `s` in their places, and together with blanks they are all of it, up to the
failure if there is one. -/
structure Covers (s : Text) (tokens : List Token) (failure : Option LexError) : Prop where
  text_ne_nil : ∀ t ∈ tokens, t.text ≠ []
  slice_span : ∀ t ∈ tokens, t.span.slice? s = some t.text
  in_order : tokens.Pairwise fun t u => t.span.stop.offset ≤ u.span.start.offset
  /-- Before the first token and between two tokens there are blanks only. -/
  blank_gaps : ∀ gap ∈ gaps .origin tokens, ∃ b, gap.slice? s = some b ∧ ∀ c ∈ b, isBlank c = true
  /-- Without a failure there are blanks only after the last token. -/
  blank_rest : failure = none →
    ∃ b, (lastStop .origin tokens).rest? s = some b ∧ ∀ c ∈ b, isBlank c = true
  /-- With a failure there are blanks only from the last token up to it. -/
  blank_before_failure : ∀ f, failure = some f →
    ∃ b, (Span.mk (lastStop .origin tokens) f.position).slice? s = some b ∧
      ∀ c ∈ b, isBlank c = true
  /-- The failure is at a character of the text that is not blank. -/
  failure_found : ∀ f, failure = some f →
    isBlank f.found = false ∧ ∃ r, f.position.rest? s = some (f.found :: r)
  token_places : ∀ t ∈ tokens, t.span.start.IsPlaceIn s ∧ t.span.stop.IsPlaceIn s
  failure_places : ∀ f, failure = some f → f.position.IsPlaceIn s ∧ f.span.stop.IsPlaceIn s

theorem Tiling.covers {s : Text} {tokens : List Token} {failure : Option LexError}
    (h : Tiling [] s tokens failure) : Covers s tokens failure := by
  have htoken : ∀ t ∈ tokens, t.text ≠ [] ∧ ∃ a b, s = a ++ t.text ++ b ∧
      t.span = ⟨Position.origin.after a, Position.origin.after (a ++ t.text)⟩ :=
    fun t ht => h.exists_of_mem ht
  obtain ⟨a, gap, r, hs, hgap, hstop, hend⟩ := h.exists_end
  change s = a ++ gap ++ r at hs
  change lastStop .origin tokens = _ at hstop
  refine ⟨fun t ht => (htoken t ht).1, fun t ht => ?_, h.in_order,
    fun g hg => h.blank_of_mem_gaps hg, fun hf => ?_, fun f hf => ?_, fun f hf => ?_,
    fun t ht => ?_, fun f hf => ?_⟩
  · obtain ⟨_, a, b, hs, hspan⟩ := htoken t ht
    rw [hs, hspan, Span.slice?_append]
  · subst hf
    rw [hstop, hs, show r = [] from hend, List.append_nil]
    exact ⟨gap, Position.rest?_append a gap, hgap⟩
  · subst hf
    rw [hstop, hend.1, hs]
    exact ⟨gap, Span.slice?_append a gap r, hgap⟩
  · subst hf
    obtain ⟨hposition, hblank, r', rfl⟩ := hend
    rw [hposition, hs]
    exact ⟨hblank, r', Position.rest?_append _ _⟩
  · obtain ⟨_, a, b, hs, hspan⟩ := htoken t ht
    rw [hs, hspan]
    refine ⟨?_, Position.isPlaceIn_append _ _⟩
    rw [List.append_assoc]
    exact Position.isPlaceIn_append _ _
  · subst hf
    obtain ⟨hposition, _, r', rfl⟩ := hend
    have hnext : f.span.stop = Position.origin.after (a ++ gap ++ [f.found]) := by
      rw [Position.after_append, ← hposition]; rfl
    rw [hnext, hposition, hs]
    refine ⟨Position.isPlaceIn_append _ _, ?_⟩
    rw [show a ++ gap ++ f.found :: r' = a ++ gap ++ [f.found] ++ r' by simp]
    exact Position.isPlaceIn_append _ _

/-- The lexer loses nothing and its positions are exact. -/
theorem covers_lex (s : Text) : Covers s (lex s).tokens (lex s).failure :=
  (tiling_lexFrom .root [] s).covers

/-- Bytes, lines and characters are counted apart. -/
example : (lex "é \"a\nb\" &".toList).failure = some ⟨'&', ⟨9, 2, 4⟩⟩ := by decide +kernel

end Lexer
end Agenda
