import Agenda.Proofs.Lexer.Tiling
import Agenda.Proofs.Op.Grammar
import Agenda.Proofs.Reading
/-!
# Places of what is read

The spans in a command are put together from those of its tokens, which are in order. So all of them are at
places of the line, and they are nested as what they are the spans of: operations come one after the other
within the command, values are within their operations, and the children of a node of a filter are within
it, the left before the right.

Results: for each kind of thing that is read, its spans come from the tokens that it was read from
(`Op.exists_liesIn`, `Filter.exists_liesIn`), and `spans_are_exact_and_nested` for the command of a line.
-/
namespace Agenda

open Lexer
open Token (InOrder)

/-! ## Operations -/

namespace Op

def valueSpan? : Op → Option Span
  | edit _ _ v _ => some v.span
  | _ => none

def spans (op : Op) : List Span := op.span :: op.valueSpan?.toList

/-- The spans in an operation are spans of the tokens, that of its value within its own. -/
structure LiesIn (op : Op) (ts : List Token) : Prop where
  spans : ∀ s ∈ op.spans, s.LiesIn ts
  value : ∀ s, op.valueSpan? = some s → s.Within op.span

variable {ts us rest : List Token} {op : Op}

theorem LiesIn.mono (h : op.LiesIn ts) (hs : ts ⊆ us) : op.LiesIn us :=
  ⟨fun s hmem => (h.spans s hmem).mono hs, h.value⟩

theorem LiesIn.span (h : op.LiesIn ts) : op.span.LiesIn ts := h.spans _ List.mem_cons_self

/-- An operation without a value. -/
theorem liesIn_of_valueSpan?_eq_none (hv : op.valueSpan? = none) (h : op.span.LiesIn ts) :
    op.LiesIn ts := by
  refine ⟨?_, fun s hs => ?_⟩
  · rw [spans, hv]
    exact List.forall_mem_singleton.2 h
  · rw [hv] at hs; cases hs

/-- An operation with a value, over the token before the value and the value. -/
theorem liesIn_edit {t : Token} (h : InOrder (t :: ts)) {how : Edit} {f : Field} {v : Value}
    (hv : v.span.LiesIn ts) : (edit how f v (t.span.cover v.span)).LiesIn (t :: ts) := by
  have ht : t.span.LiesIn [t] := Span.liesIn_token (h.sublist (by simp)) List.mem_cons_self
  have hcover : (t.span.cover v.span).LiesIn (t :: ts) := ht.cover h hv
  have hwithin := Span.within_cover_of_before (ht.before h hv) ht.nonempty hv.nonempty
  refine ⟨List.forall_mem_cons.2 ⟨hcover, List.forall_mem_singleton.2 ?_⟩, ?_⟩
  · exact hv.mono (List.subset_cons_self t ts)
  · rintro s ⟨⟩
    exact hwithin.2

theorem exists_liesIn_value {v : Value} (hts : InOrder ts) (h : IsValue ts v rest) :
    ∃ used, ts = used ++ rest ∧ v.span.LiesIn used := by
  cases h with
  | @quotation t rest hq =>
    exact ⟨[t], rfl, Span.liesIn_token (hts.sublist (by simp)) List.mem_cons_self⟩
  | @run t ts run rest hq split hne =>
    have happend := splitValue_append (t :: ts)
    rw [split] at happend
    rw [← happend] at hts ⊢
    exact ⟨t :: run, rfl, Span.liesIn_run (hts.sublist (List.sublist_append_left _ _))⟩

/-- The spans of an operation come from the tokens that it was read from. -/
theorem exists_liesIn (hts : InOrder ts) (h : IsOp ts op rest) :
    ∃ used, ts = used ++ rest ∧ op.LiesIn used := by
  cases h with
  | @edit how t ts rest f v ht hf value =>
    obtain ⟨used, rfl, hv⟩ := exists_liesIn_value hts.tail value
    exact ⟨t :: used, rfl,
      liesIn_edit (hts.sublist (List.sublist_append_left (t :: used) rest)) hv⟩
  | @clear t | @tag _ t =>
    exact ⟨[t], rfl, liesIn_of_valueSpan?_eq_none rfl
      (Span.liesIn_token (hts.sublist (by simp)) List.mem_cons_self)⟩
  | @added kind t u rest ht hu touch =>
    have hpair : InOrder [t, u] := hts.sublist (by simp)
    exact ⟨[t, u], rfl, liesIn_of_valueSpan?_eq_none rfl (Span.liesIn_run hpair)⟩
  | @removed kind t u rest ht hu touch =>
    have hpair : InOrder [t, u] := hts.sublist (by simp)
    exact ⟨[t, u], rfl, liesIn_edit hpair (Span.liesIn_token hpair.tail List.mem_cons_self)⟩

end Op

/-- Operations among words come one after the other. -/
theorem Command.Items.liesIn {eof : Position} {ts words : List Token} {ops : List Op}
    (h : Command.Items eof ts words ops) (hts : InOrder ts) :
    (∀ op ∈ ops, op.LiesIn ts) ∧ ops.Pairwise fun a b => a.span.Before b.span := by
  induction h with
  | nil => exact ⟨List.forall_mem_nil _, .nil⟩
  | @op ts rest words op ops head _ ih =>
    obtain ⟨used, rfl, hop⟩ := Op.exists_liesIn hts (Op.read_some_iff.1 head)
    obtain ⟨hall, hpairwise⟩ := ih (hts.suffix (List.suffix_append used rest))
    refine ⟨List.forall_mem_cons.2 ⟨hop.mono (List.subset_append_left used rest), fun o ho =>
      (hall o ho).mono (List.subset_append_right used rest)⟩, ?_⟩
    exact .cons (fun o ho => hop.span.before hts (hall o ho).span) hpairwise
  | @word t ts words ops head _ ih =>
    obtain ⟨hall, hpairwise⟩ := ih hts.tail
    exact ⟨fun o ho => (hall o ho).mono (List.subset_cons_self t ts), hpairwise⟩

/-! ## Filters -/

namespace Filter

def spans : Filter → List Span
  | binary _ l r s => s :: (l.spans ++ r.spans)
  | negation e s => s :: e.spans
  | predicate _ _ s => [s]

/-- The children of each node are within it, the left before the right, and no predicate is empty. -/
def Nested : Filter → Prop
  | binary _ l r s => l.span.Within s ∧ r.span.Within s ∧ l.span.Before r.span ∧ l.Nested ∧ r.Nested
  | negation e s => e.span.Within s ∧ e.Nested
  | predicate _ _ s => s.start.offset < s.stop.offset

/-- The spans in a filter are spans of the tokens, and they are nested. -/
structure LiesIn (e : Filter) (ts : List Token) : Prop where
  spans : ∀ s ∈ e.spans, s.LiesIn ts
  nested : e.Nested

variable {ts us rest : List Token} {e l r : Filter}

theorem span_mem_spans (e : Filter) : e.span ∈ e.spans := by
  cases e <;> exact List.mem_cons_self

theorem LiesIn.mono (h : e.LiesIn ts) (hs : ts ⊆ us) : e.LiesIn us :=
  ⟨fun s hmem => (h.spans s hmem).mono hs, h.nested⟩

theorem LiesIn.span (h : e.LiesIn ts) : e.span.LiesIn ts := h.spans _ e.span_mem_spans

theorem liesIn_predicate {kind : PredicateKind} {text : Text} {s : Span} (h : s.LiesIn ts) :
    (predicate kind text s).LiesIn ts :=
  ⟨List.forall_mem_singleton.2 h, h.nonempty⟩

theorem liesIn_ofKey {key text : Text} {s : Span} (h : s.LiesIn ts) : (ofKey key text s).LiesIn ts := by
  unfold ofKey
  split <;> exact liesIn_predicate h

theorem liesIn_combine {op : BoolOp} (h : InOrder (ts ++ us)) (hl : l.LiesIn ts) (hr : r.LiesIn us) :
    (combine op l r).LiesIn (ts ++ us) := by
  have hbefore := hl.span.before h hr.span
  obtain ⟨hleft, hright⟩ :=
    Span.within_cover_of_before hbefore hl.span.nonempty hr.span.nonempty
  refine ⟨List.forall_mem_cons.2 ⟨hl.span.cover h hr.span, fun s hs => ?_⟩,
    hleft, hright, hbefore, hl.nested, hr.nested⟩
  rcases List.mem_append.1 hs with hs | hs
  · exact (hl.spans s hs).mono (List.subset_append_left ts us)
  · exact (hr.spans s hs).mono (List.subset_append_right ts us)

theorem liesIn_negation {s : Span} (h : e.LiesIn ts) (hs : s.LiesIn ts) (hwithin : e.span.Within s) :
    (negation e s).LiesIn ts :=
  ⟨List.forall_mem_cons.2 ⟨hs, h.spans⟩, hwithin, h.nested⟩

theorem exists_liesIn_value {text : Text} {s : Span} (hts : InOrder ts) (h : IsValue ts text s rest) :
    ∃ used, ts = used ++ rest ∧ s.LiesIn used := by
  cases h with
  | @quotation t rest hq =>
    exact ⟨[t], rfl, Span.liesIn_token (hts.sublist (by simp)) List.mem_cons_self⟩
  | @run t ts rest hq inside stops =>
    exact ⟨t :: ts, rfl, Span.liesIn_run (hts.sublist (List.sublist_append_left _ _))⟩

theorem span_ofKey (key text : Text) (s : Span) : (ofKey key text s).span = s := by
  unfold ofKey
  split <;> rfl

/-- The predicate of a field, which goes from the token of the field to the end of the value. -/
theorem exists_liesIn_field {field : Token} (hts : InOrder (field :: ts))
    (h : IsFieldValue field ts e rest) :
    ∃ used, ts = used ++ rest ∧ e.LiesIn (field :: used) ∧ field.span.cover e.span = e.span := by
  cases h with
  | @intro _ text s value hb =>
    obtain ⟨used, rfl, hs⟩ := exists_liesIn_value hts.tail value
    have hused : InOrder ([field] ++ used) := hts.sublist (List.sublist_append_left _ rest)
    have hfield : field.span.LiesIn [field] :=
      Span.liesIn_token (hts.sublist (by simp)) List.mem_cons_self
    have hbefore := hfield.before hused hs
    refine ⟨used, rfl, liesIn_ofKey (hfield.cover hused hs), ?_⟩
    have hlt : field.span.stop.offset < s.stop.offset := Nat.lt_of_le_of_lt hbefore hs.nonempty
    rw [span_ofKey, Span.cover_of_before hbefore hfield.nonempty hs.nonempty]
    exact Span.cover_of_le (Nat.le_refl _) hlt

open GrammarSymbol in
/-- The spans of a filter come from the tokens that it is derived from: by induction on the derivation. What
a group adds to the tokens are its parentheses, which are in no span. -/
theorem exists_liesIn {s : GrammarSymbol} (h : Derives s ts e rest) (hts : InOrder ts) :
    ∃ used, ts = used ++ rest ∧ e.LiesIn used := by
  induction h with
  | alternative _ ih => exact ih hts
  | @or _ mid rest t l r _ _ _ ihl ihr | @and _ mid rest t l r _ _ _ ihl ihr =>
    obtain ⟨left, rfl, hl⟩ := ihl hts
    obtain ⟨right, rfl, hr⟩ := ihr (hts.suffix (List.suffix_append left _)).tail
    have hboth : InOrder (left ++ right) :=
      hts.sublist (((List.sublist_append_left right rest).cons t).append_left left)
    refine ⟨left ++ t :: right, by rw [List.append_assoc, List.cons_append], ?_⟩
    refine (liesIn_combine hboth hl hr).mono fun v hv => ?_
    exact (List.mem_append.1 hv).elim (List.mem_append_left _) fun hv =>
      List.mem_append_right _ (List.mem_cons_of_mem t hv)
  | term _ ih => exact ih hts
  | @not t ts rest e ht _ ih =>
    obtain ⟨used, rfl, he⟩ := ih hts.tail
    have hused : InOrder ([t] ++ used) := hts.sublist (List.sublist_append_left _ rest)
    have hnot : t.span.LiesIn [t] :=
      Span.liesIn_token (hts.sublist (by simp)) List.mem_cons_self
    have hwithin := Span.within_cover_of_before (hnot.before hused he.span) hnot.nonempty he.span.nonempty
    exact ⟨t :: used, rfl, liesIn_negation (he.mono (List.subset_cons_self t used))
      (hnot.cover hused he.span) hwithin.2⟩
  | @clearing t u ts rest p ht hu hp =>
    obtain ⟨used, rfl, he, hspan⟩ := exists_liesIn_field (hts.sublist (by simp)) hp
    -- the token of the field is the first of the predicate as well
    refine ⟨t :: u :: used, rfl, ?_⟩
    rw [hspan]
    exact (liesIn_negation he he.span ⟨Nat.le_refl _, he.span.nonempty, Nat.le_refl _⟩).mono
      (List.cons_subset_cons t (List.subset_cons_self u used))
  | plain _ ih => exact ih hts
  | @group t u ts rest e ht _ hu ih =>
    obtain ⟨used, rfl, he⟩ := ih hts.tail
    refine ⟨t :: used ++ [u], by simp, he.mono fun v hv => ?_⟩
    exact List.mem_append_left _ (List.mem_cons_of_mem t hv)
  | @project t rest ht | @context t rest ht =>
    exact ⟨[t], rfl, liesIn_predicate
      (Span.liesIn_token (hts.sublist (by simp)) List.mem_cons_self)⟩
  | @field t ts rest e ht hp =>
    obtain ⟨used, rfl, he, -⟩ := exists_liesIn_field hts hp
    exact ⟨t :: used, rfl, he⟩
  | text value hb =>
    obtain ⟨used, hused, hs⟩ := exists_liesIn_value hts value
    exact ⟨used, hused, liesIn_predicate hs⟩

end Filter

/-! ## Commands -/

namespace Command

def spans : Command → List Span
  | filter e s => s :: e.spans
  | c => c.span :: c.ops.flatMap Op.spans

/-- The spans below that of a command are spans of the tokens, and they are nested. -/
structure LiesIn (c : Command) (ts : List Token) : Prop where
  ops : ∀ op ∈ c.ops, op.LiesIn ts
  ops_in_order : c.ops.Pairwise fun a b => a.span.Before b.span
  filter : ∀ e span, c = .filter e span → e.LiesIn ts

theorem LiesIn.mono {c : Command} {ts us : List Token} (h : c.LiesIn ts) (hs : ts ⊆ us) :
    c.LiesIn us :=
  ⟨fun op hop => (h.ops op hop).mono hs, h.ops_in_order, fun e span hc => (h.filter e span hc).mono hs⟩

theorem LiesIn.spans {c : Command} {ts : List Token} (h : c.LiesIn ts) :
    ∀ s ∈ c.spans, s = c.span ∨ s.LiesIn ts := by
  intro s hs
  have hops (hmem : s ∈ c.ops.flatMap Op.spans) : s.LiesIn ts := by
    obtain ⟨op, hop, hs⟩ := List.mem_flatMap.1 hmem
    exact (h.ops op hop).spans s hs
  cases c with
  | filter e span => exact (List.mem_cons.1 hs).imp_right ((h.filter e span rfl).spans s)
  | _ => exact (List.mem_cons.1 hs).imp_right hops

/-- What the tokens make, whose span is that of the line. -/
theorem Makes.liesIn {eof : Position} {whole ts : List Token} {i : Intent} {c : Command}
    (h : Makes eof whole i ts c) (hts : Token.InOrder ts) :
    c.span = Token.spanBetween eof whole [] ∧ c.LiesIn ts := by
  cases h with
  | create items titled =>
    obtain ⟨hops, hpairwise⟩ := items.liesIn hts
    exact ⟨rfl, hops, hpairwise, fun e span hc => nomatch hc⟩
  | update htarget items =>
    have hsuffix := suffix_of_readTarget htarget
    obtain ⟨hops, hpairwise⟩ := items.liesIn (hts.suffix hsuffix)
    exact ⟨rfl, fun op hop => (hops op hop).mono hsuffix.subset, hpairwise, fun e span hc => nomatch hc⟩
  | filter derives =>
    obtain ⟨used, rfl, he⟩ := Filter.exists_liesIn derives hts
    rw [List.append_nil]
    refine ⟨rfl, List.forall_mem_nil _, .nil, ?_⟩
    rintro e span ⟨⟩
    exact he
  | _ => exact ⟨rfl, List.forall_mem_nil _, .nil, fun e span hc => nomatch hc⟩

/-- The spans in a command are exact and nested. -/
structure StandsIn (c : Command) (input : Text) : Prop where
  /-- From the start of the first token to the stop of the last, or the origin. -/
  whole : c.span = Token.wholeSpan (lex input).tokens
  ops_inside : ∀ op ∈ c.ops, op.span.Within c.span
  ops_in_order : c.ops.Pairwise fun a b => a.span.Before b.span
  values_inside : ∀ op ∈ c.ops, ∀ s, op.valueSpan? = some s → s.Within op.span
  filter_inside : ∀ e span, c = .filter e span → e.span.Within span ∧ e.Nested
  places : ∀ s ∈ c.spans, s.start.IsPlaceIn input ∧ s.stop.IsPlaceIn input

end Command

/-! ## Lines -/

theorem Lexer.inOrder_lex (s : Text) : Token.InOrder (lex s).tokens := by
  refine ⟨fun t ht => ?_, (covers_lex s).in_order⟩
  obtain ⟨hne, a, b, -, hspan⟩ := (tiling_lexFrom .root [] s).exists_of_mem ht
  have hpos : 0 < t.text.byteSize := Nat.pos_of_ne_zero fun h => hne (byteSize_eq_zero h)
  rw [hspan]
  simp only [Position.offset_origin_after, Text.byteSize_append]
  omega

/-- The ends of a span of the tokens of a line are places of the line. -/
theorem Span.LiesIn.isPlaceIn {s : Span} {input : Text} (h : s.LiesIn (lex input).tokens) :
    s.start.IsPlaceIn input ∧ s.stop.IsPlaceIn input := by
  obtain ⟨⟨t, ht, hstart⟩, ⟨u, hu, hstop⟩, -⟩ := h
  have hplaces := (covers_lex input).token_places
  rw [hstart, hstop]
  exact ⟨(hplaces t ht).1, (hplaces u hu).2⟩

theorem Token.isPlaceIn_wholeSpan (input : Text) :
    (wholeSpan (lex input).tokens).start.IsPlaceIn input ∧
      (wholeSpan (lex input).tokens).stop.IsPlaceIn input := by
  have horder := inOrder_lex input
  have hlies := fun s (h : Span.LiesIn s (lex input).tokens) => h.isPlaceIn
  cases htokens : (lex input).tokens with
  | nil => exact ⟨Position.isPlaceIn_append [] input, Position.isPlaceIn_append [] input⟩
  | cons t ts =>
    rw [htokens] at horder hlies
    exact hlies _ (Span.liesIn_wholeSpan horder)

/-- The spans in the command of a line, in whatever mode: its own is that of all tokens; its operations are
inside it, one after the other, with their values inside them; the children in a filter are inside their
parents; and all ends are places of the line. -/
theorem spans_are_exact_and_nested (mode : Mode) (now : Timestamp) (input : Text) (c : Command)
    (h : (Reading.ofLine mode now input).1.command = some c) : c.StandsIn input := by
  obtain ⟨-, -, i, -, hmakes⟩ := Reading.commandOf_ok_iff.1 (commandOf_of_ofLine h)
  have horder := inOrder_lex input
  have hafter := Command.afterVerb_suffix (lex input).tokens
  obtain ⟨hspan, hlies⟩ := hmakes.liesIn (horder.suffix hafter)
  have hlies := hlies.mono hafter.subset
  have hwhole : c.span = Token.wholeSpan (lex input).tokens := by
    rw [hspan, Token.spanBetween_nil horder]
  have hop {op : Op} (hop : op ∈ c.ops) := hlies.ops op hop
  exact {
    whole := hwhole
    ops_inside := fun op hmem => hwhole ▸ (hop hmem).span.within horder
    ops_in_order := hlies.ops_in_order
    values_inside := fun op hmem => (hop hmem).value
    filter_inside := by
      rintro e span rfl
      have he := hlies.filter e span rfl
      exact ⟨(show span = _ from hwhole) ▸ he.span.within horder, he.nested⟩
    places := fun s hs => by
      rcases hlies.spans s hs with rfl | hs
      · rw [hwhole]
        exact Token.isPlaceIn_wholeSpan input
      · exact hs.isPlaceIn }

/-- A filter with a clearing, a negation and a group, and an update with a signed tag and a value of several
words. -/
theorem spans_are_exact_and_nested_of_lines :
    let now : Timestamp := ⟨⟨2025, 3, 9, by decide, by decide, by decide, by decide⟩, 12, 0, 0, 0, 0⟩
    let made (s : String) := (Reading.ofLine .auto now s.toList).1.command
    (∃ c, made "find !state : done and (not #home or \"é b\")" = some c ∧
      c.StandsIn "find !state : done and (not #home or \"é b\")".toList) ∧
    ∃ c, made "set 7 +#home notes:a b !due" = some c ∧
      c.StandsIn "set 7 +#home notes:a b !due".toList := by
  intro now made
  have hfilter : (made "find !state : done and (not #home or \"é b\")").isSome = true := by
    decide +kernel
  have hupdate : (made "set 7 +#home notes:a b !due").isSome = true := by decide +kernel
  obtain ⟨c, hc⟩ := Option.isSome_iff_exists.1 hfilter
  obtain ⟨d, hd⟩ := Option.isSome_iff_exists.1 hupdate
  exact ⟨⟨c, hc, spans_are_exact_and_nested .auto now _ c hc⟩,
    d, hd, spans_are_exact_and_nested .auto now _ d hd⟩

end Agenda
