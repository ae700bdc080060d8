import Agenda.Proofs.Command.Grammar
import Agenda.Proofs.Op.Grammar
import Agenda.Proofs.ValueRun
/-!
# Tokens in other places

What tokens make depends on their kinds, on their texts and on which neighbours touch, but not on where
they stand. `Alike ts us` says that the tokens differ in no more than that. Whatever the grammar finds in
the one it finds in the other, with other spans, and what is left after it is alike again.

Results: the same lexemes make tokens that are alike wherever they stand (`alike_tokensAt`); what alike
tokens make is equal up to spans (`Alike.makes`).
-/
namespace Agenda

open Lexer

/-- The tokens are the same but for their places, and the same neighbours touch. -/
inductive Alike : List Token → List Token → Prop where
  | nil : Alike [] []
  | cons {t : Token} {ts us : List Token} (span : Span)
      (touch : ts.head?.map t.touches = us.head?.map (Token.touches { t with span := span }))
      (tail : Alike ts us) : Alike (t :: ts) ({ t with span := span } :: us)

/-- Lexemes make alike tokens wherever they stand: neighbours touch when there is no gap. -/
theorem alike_tokensAt (p q : Position) (ls : List Lexeme) : Alike (tokensAt p ls) (tokensAt q ls) := by
  induction ls generalizing p q with
  | nil => exact .nil
  | cons l ls ih =>
    refine .cons _ ?_ (ih _ _)
    cases ls with
    | nil => rfl
    | cons m ms =>
      refine congrArg some (Bool.eq_iff_iff.2 ?_)
      exact (@touches_iff _ _ _ m ms rfl rfl).trans (@touches_iff _ _ _ m ms rfl rfl).symm

/-- A condition on kinds and texts that holds of all tokens holds of those that differ in their places. -/
theorem forall_of_unplaced {f : Token → Bool} (hf : ∀ t, f t.unplaced = f t) {b : Bool}
    {xs ys : List Token} (h : xs.map Token.unplaced = ys.map Token.unplaced) (hx : ∀ x ∈ xs, f x = b) :
    ∀ y ∈ ys, f y = b := by
  intro y hy
  have hmem : y.unplaced ∈ xs.map Token.unplaced := h ▸ List.mem_map_of_mem hy
  obtain ⟨x, hxs, hxy⟩ := List.mem_map.1 hmem
  rw [← hf y, ← hxy, hf x, hx x hxs]

namespace Alike

variable {ts us rest : List Token}

theorem symm (h : Alike ts us) : Alike us ts := by
  induction h with
  | nil => exact .nil
  | @cons t ts us span touch tail ih => exact .cons t.span touch.symm ih

theorem map_unplaced (h : Alike ts us) : ts.map Token.unplaced = us.map Token.unplaced := by
  induction h with
  | nil => rfl
  | cons span touch tail ih => rw [List.map_cons, List.map_cons, ih]; rfl

theorem forall_iff (h : Alike ts us) {f : Token → Bool} (hf : ∀ t, f t.unplaced = f t) {b : Bool} :
    (∀ t ∈ ts, f t = b) ↔ ∀ u ∈ us, f u = b :=
  ⟨forall_of_unplaced hf h.map_unplaced, forall_of_unplaced hf h.symm.map_unplaced⟩

/-- What is alike to tokens in two parts has two such parts. -/
theorem exists_append {xs : List Token} (h : Alike (xs ++ rest) us) :
    ∃ ys rest', us = ys ++ rest' ∧ xs.map Token.unplaced = ys.map Token.unplaced ∧ Alike rest rest' := by
  induction xs generalizing us with
  | nil => exact ⟨[], us, rfl, rfl, h⟩
  | cons x xs ih =>
    cases h with
    | cons span touch tail =>
      obtain ⟨ys, rest', rfl, hys, hrest⟩ := ih tail
      exact ⟨_ :: ys, rest', rfl, by rw [List.map_cons, List.map_cons, hys]; rfl, hrest⟩

end Alike

theorem ValueRun.join_eq_of_unplaced {xs ys : List Token}
    (h : xs.map Token.unplaced = ys.map Token.unplaced) : join xs = join ys := by
  rw [← join_unplaced xs, h, join_unplaced]

/-! ## Operations -/

namespace Alike

variable {ts us rest : List Token}

theorem begins (h : Alike ts us) : Op.begins ts = Op.begins us := by
  cases h with
  | nil => rfl
  | cons span touch tail =>
    cases tail with
    | nil => rfl
    | cons span' touch' tail =>
      have htouch := Option.some.inj touch
      simp only [Op.begins, htouch]

theorem splitValue (h : Alike ts us) :
    (Op.splitValue ts).1.map Token.unplaced = (Op.splitValue us).1.map Token.unplaced ∧
      Alike (Op.splitValue ts).2 (Op.splitValue us).2 := by
  induction h with
  | nil => exact ⟨rfl, .nil⟩
  | @cons t ts us span touch tail ih =>
    rw [Op.splitValue, Op.splitValue, (Alike.cons span touch tail).begins]
    split
    · exact ⟨rfl, .cons span touch tail⟩
    · exact ⟨congrArg (t.unplaced :: ·) ih.1, ih.2⟩

theorem opValue (h : Alike ts us) {v : Value} (hv : Op.IsValue ts v rest) :
    ∃ v' rest', Op.IsValue us v' rest' ∧ ({ v' with span := .zero } : Value) = { v with span := .zero } ∧
      Alike rest rest' := by
  cases hv with
  | quotation hq =>
    cases h with
    | cons span touch tail => exact ⟨_, _, .quotation hq, rfl, tail⟩
  | @run t ts run rest hq split hne =>
    obtain ⟨hrun, hrest⟩ := h.splitValue
    cases h with
    | @cons _ _ us span touch tail =>
      rcases Op.splitValue_cons { t with span := span } us with hsplit | ⟨run', rest', hsplit⟩ <;>
        rw [split, hsplit] at hrun hrest
      · cases hrun
      · have hjoin := ValueRun.join_eq_of_unplaced hrun
        refine ⟨_, rest', .run hq hsplit (hjoin ▸ hne), ?_, hrest⟩
        simp only [hjoin]

theorem op (h : Alike ts us) {op : Op} (hop : Op.IsOp ts op rest) :
    ∃ op' rest', Op.IsOp us op' rest' ∧ op'.withoutSpans = op.withoutSpans ∧ Alike rest rest' := by
  cases hop with
  | edit how ht hf value =>
    cases h with
    | cons span touch tail =>
      obtain ⟨v', rest', hv, hsame, hrest⟩ := tail.opValue value
      exact ⟨_, rest', .edit how ht hf hv, by rw [Op.withoutSpans, Op.withoutSpans, hsame], hrest⟩
  | clear ht hf =>
    cases h with
    | cons span touch tail => exact ⟨_, _, .clear ht hf, rfl, tail⟩
  | tag kind ht hname =>
    cases h with
    | cons span touch tail => exact ⟨_, _, .tag kind ht hname, rfl, tail⟩
  | added kind ht hu htouch hname =>
    cases h with
    | cons span touch tail =>
      cases tail with
      | cons span' touch' tail =>
        have htouch' := (Option.some.inj touch).symm.trans htouch
        exact ⟨_, _, .added kind ht hu htouch' hname, rfl, tail⟩
  | removed kind ht hu htouch hname =>
    cases h with
    | cons span touch tail =>
      cases tail with
      | cons span' touch' tail =>
        have htouch' := (Option.some.inj touch).symm.trans htouch
        exact ⟨_, _, .removed kind ht hu htouch' hname, rfl, tail⟩

variable {eof : Position}

theorem items (eof' : Position) (h : Alike ts us) {words : List Token} {ops : List Op}
    (hitems : Command.Items eof ts words ops) :
    ∃ words' ops', Command.Items eof' us words' ops' ∧
      words.map Token.unplaced = words'.map Token.unplaced ∧
      ops'.map Op.withoutSpans = ops.map Op.withoutSpans := by
  induction hitems generalizing us with
  | nil => cases h; exact ⟨[], [], .nil, rfl, rfl⟩
  | op head _ ih =>
    obtain ⟨op', rest', hop, hsame, hrest⟩ := h.op (Op.read_some_iff.1 head)
    obtain ⟨words', ops', hitems, hwords, hops⟩ := ih hrest
    exact ⟨words', op' :: ops', .op (Op.read_some_iff.2 hop) hitems, hwords,
      by rw [List.map_cons, List.map_cons, hsame, hops]⟩
  | @word t ts words ops head _ ih =>
    obtain ⟨hmark, hb⟩ := Op.read_none_iff.1 head
    rw [h.begins] at hb
    cases h with
    | cons span touch tail =>
      obtain ⟨words', ops', hitems, hwords, hops⟩ := ih tail
      exact ⟨_ :: words', ops', .word (Op.read_none_iff.2 ⟨hmark, hb⟩) hitems,
        congrArg (t.unplaced :: ·) hwords, hops⟩

theorem target (h : Alike ts us) {target : Target}
    (ht : Command.readTarget ts = .ok (target, rest)) :
    ∃ rest', Command.readTarget us = .ok (target, rest') ∧ Alike rest rest' := by
  cases h with
  | nil => cases ht; exact ⟨[], rfl, .nil⟩
  | @cons t ts us span touch tail =>
    have hb := (Alike.cons span touch tail).begins
    -- the reader of numbers looks at the text alone
    have hid {digits : Text} (hread : Command.readId t digits ts = .ok (target, rest)) :
        ∃ rest', Command.readId { t with span := span } digits us = .ok (target, rest') ∧
          Alike rest rest' := by
      unfold Command.readId at hread ⊢
      split at hread
      · cases hread; exact ⟨us, rfl, tail⟩
      · cases hread
    unfold Command.readTarget at ht ⊢
    simp only at ht ⊢
    split at ht
    · next hk =>
      simp only [hk]
      split at ht
      · next hdigits =>
        simp only [show (⟨.hashNumber, t.text, span⟩ : Token).afterSigil? = some _ from hdigits]
        exact hid ht
      · cases ht
    · next hk =>
      simp only [hk]
      split at ht
      · next hw => rw [if_pos hw]; cases ht; exact ⟨us, rfl, tail⟩
      · next hw =>
        rw [if_neg hw]
        split at ht
        · next hd => rw [if_pos hd]; exact hid ht
        · cases ht
    · rw [hb] at ht
      split at ht
      · next hbegins =>
        cases ht
        exact ⟨{ t with span := span } :: us, if_pos hbegins, .cons span touch tail⟩
      · cases ht

end Alike

/-! ## Filters -/

namespace Filter

theorem withoutSpans_ofKey (key text : Text) (span span' : Span) :
    (ofKey key text span).withoutSpans = (ofKey key text span').withoutSpans := by
  unfold ofKey
  split <;> rfl

theorem withoutSpans_combine {op : BoolOp} {l l' r r' : Filter}
    (hl : l'.withoutSpans = l.withoutSpans) (hr : r'.withoutSpans = r.withoutSpans) :
    (combine op l' r').withoutSpans = (combine op l r).withoutSpans := by
  rw [combine, combine, withoutSpans, withoutSpans, hl, hr]

theorem withoutSpans_negation {e e' : Filter} {span span' : Span}
    (h : e'.withoutSpans = e.withoutSpans) :
    (negation e' span').withoutSpans = (negation e span).withoutSpans := by
  rw [withoutSpans, withoutSpans, h]

end Filter

namespace Alike

variable {ts us rest : List Token}

theorem stops (h : Alike ts us) (hs : Filter.Stops ts) : Filter.Stops us := by
  cases h with
  | nil => exact hs
  | @cons t ts us span touch tail =>
    intro u hu
    cases hu
    exact (hs t rfl : Filter.isDelimiter t = true)

theorem filterValue (h : Alike ts us) {s : Text} {span : Span}
    (hv : Filter.IsValue ts s span rest) :
    ∃ span' rest', Filter.IsValue us s span' rest' ∧ Alike rest rest' := by
  cases hv with
  | quotation hq =>
    cases h with
    | cons span touch tail => exact ⟨_, _, .quotation hq, tail⟩
  | @run t ts rest hq inside stops =>
    obtain ⟨ys, rest', rfl, hys, hrest⟩ := h.exists_append
    have hinside := forall_of_unplaced (fun _ => rfl) hys inside
    have hjoin := ValueRun.join_eq_of_unplaced hys
    cases ys with
    | nil => cases hys
    | cons u us =>
      have hhead : t.unplaced = u.unplaced := (List.cons.inj hys).1
      have hkind : t.kind = u.kind := by simpa using congrArg Token.kind hhead
      rw [hjoin]
      exact ⟨_, rest', .run (hkind ▸ hq) hinside (hrest.stops stops), hrest⟩

theorem filterField (h : Alike ts us) {field : Token} (span : Span) {e : Filter}
    (hv : Filter.IsFieldValue field ts e rest) :
    ∃ e' rest', Filter.IsFieldValue { field with span := span } us e' rest' ∧
      e'.withoutSpans = e.withoutSpans ∧ Alike rest rest' := by
  cases hv with
  | intro value hb =>
    obtain ⟨span', rest', hvalue, hrest⟩ := h.filterValue value
    refine ⟨_, rest', .intro hvalue hb, ?_, hrest⟩
    exact Filter.withoutSpans_ofKey _ _ _ _

theorem beginsOther {t : Token} (h : Alike ts us) (span : Span) :
    Filter.beginsOther { t with span := span } us = Filter.beginsOther t ts := by
  cases h <;> rfl

open Agenda.Filter Agenda.Filter.GrammarSymbol in
/-- Alike tokens derive the same filters up to spans: by induction on the derivation, along which what is
left of the tokens stays alike. -/
theorem derives (h : Alike ts us) {s : GrammarSymbol} {e : Filter} (hd : Derives s ts e rest) :
    ∃ e' rest', Derives s us e' rest' ∧ e'.withoutSpans = e.withoutSpans ∧ Alike rest rest' := by
  induction hd generalizing us with
  | alternative _ ih =>
    obtain ⟨e', rest', hd, hsame, hrest⟩ := ih h
    exact ⟨e', rest', .alternative hd, hsame, hrest⟩
  | or _ ht _ ihl ihr =>
    obtain ⟨l', mid', hl, hsamel, hmid⟩ := ihl h
    cases hmid with
    | cons span touch tail =>
      obtain ⟨r', rest', hr, hsamer, hrest⟩ := ihr tail
      exact ⟨_, rest', .or hl ht hr, withoutSpans_combine hsamel hsamer, hrest⟩
  | term _ ih =>
    obtain ⟨e', rest', hd, hsame, hrest⟩ := ih h
    exact ⟨e', rest', .term hd, hsame, hrest⟩
  | and _ ht _ ihl ihr =>
    obtain ⟨l', mid', hl, hsamel, hmid⟩ := ihl h
    cases hmid with
    | cons span touch tail =>
      obtain ⟨r', rest', hr, hsamer, hrest⟩ := ihr tail
      exact ⟨_, rest', .and hl ht hr, withoutSpans_combine hsamel hsamer, hrest⟩
  | not ht _ ih =>
    cases h with
    | cons span touch tail =>
      obtain ⟨e', rest', hd, hsame, hrest⟩ := ih tail
      exact ⟨_, rest', .not ht hd, withoutSpans_negation hsame, hrest⟩
  | clearing ht hu hp =>
    cases h with
    | cons span touch tail =>
      cases tail with
      | cons span' touch' tail =>
        obtain ⟨p', rest', hp', hsame, hrest⟩ := tail.filterField span hp
        exact ⟨_, rest', .clearing ht hu hp', withoutSpans_negation hsame, hrest⟩
  | plain _ ih =>
    obtain ⟨e', rest', hd, hsame, hrest⟩ := ih h
    exact ⟨e', rest', .plain hd, hsame, hrest⟩
  | group ht _ hu ih =>
    cases h with
    | cons span touch tail =>
      obtain ⟨e', rest', hd, hsame, hrest⟩ := ih tail
      cases hrest with
      | cons span' touch' hrest => exact ⟨e', _, .group ht hd hu, hsame, hrest⟩
  | project ht hname =>
    cases h with
    | cons span touch tail => exact ⟨_, _, .project ht hname, rfl, tail⟩
  | context ht hname =>
    cases h with
    | cons span touch tail => exact ⟨_, _, .context ht hname, rfl, tail⟩
  | field ht hp =>
    cases h with
    | cons span touch tail =>
      obtain ⟨e', rest', hp', hsame, hrest⟩ := tail.filterField span hp
      exact ⟨e', rest', .field ht hp', hsame, hrest⟩
  | text value hb =>
    obtain ⟨span', rest', hvalue, hrest⟩ := h.filterValue value
    cases h with
    | cons span touch tail =>
      exact ⟨_, rest', .text hvalue ((tail.beginsOther span).trans hb), rfl, hrest⟩

/-! ## Commands -/

/-- Where a token stands makes no difference to the context that it asks for. -/
theorem contextOf_of_span {t : Token} {a : ContextArg} (h : Command.contextOf t = .ok a) (span : Span) :
    Command.contextOf { t with span } = .ok a := by
  unfold Command.contextOf at h ⊢
  split at h
  · next hw => rw [if_pos (show Token.isWord { t with span } _ = true from hw)]; exact h
  · next hw =>
    rw [if_neg (show ¬ Token.isWord { t with span } _ = true from hw)]
    split at h
    · next htag => rw [if_pos htag]; exact h
    · cases h

/-- What alike tokens make is equal up to spans. -/
theorem makes (h : Alike ts us) {eof eof' : Position} {whole whole' : List Token} {i : Intent}
    {c : Command} (hc : Command.Makes eof whole i ts c) :
    ∃ c', Command.Makes eof' whole' i us c' ∧ c'.withoutSpans = c.withoutSpans := by
  cases hc with
  | create items titled =>
    obtain ⟨words', ops', hitems, hwords, hops⟩ := h.items eof' items
    have hjoin := ValueRun.join_eq_of_unplaced hwords
    refine ⟨_, .create hitems fun hempty => ?_, ?_⟩
    · rw [Command.any_setsTitle_of_withoutSpans hops]
      exact titled (hjoin.trans hempty)
    · rw [Command.withoutSpans, Command.withoutSpans, hjoin, hops]
  | update htarget items =>
    obtain ⟨rest', htarget', hrest⟩ := h.target htarget
    obtain ⟨words', ops', hitems, hwords, hops⟩ := hrest.items eof' items
    obtain rfl : words' = [] := List.map_eq_nil_iff.1 hwords.symm
    exact ⟨_, .update htarget' hitems, by rw [Command.withoutSpans, Command.withoutSpans, hops]⟩
  | filter derives =>
    obtain ⟨e', rest', hd, hsame, hrest⟩ := h.derives derives
    cases hrest
    exact ⟨_, .filter hd, by rw [Command.withoutSpans, Command.withoutSpans, hsame]⟩
  | allViews => cases h; exact ⟨_, .allViews, rfl⟩
  | view named =>
    cases h with
    | cons span touch tail => cases tail; exact ⟨_, .view named, rfl⟩
  | showContext => cases h; exact ⟨_, .showContext, rfl⟩
  | context named =>
    cases h with
    | cons span touch tail => cases tail; exact ⟨_, .context (contextOf_of_span named span), rfl⟩

end Alike

end Agenda
