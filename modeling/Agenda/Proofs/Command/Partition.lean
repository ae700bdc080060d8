import Agenda.Proofs.Command.Places
/-!
# Every token has its part

No token of a line that makes a create or update command is lost, and none counts twice: the span of an
operation holds the tokens that the operation was read from and no others, so the tokens of the line are
divided among the verb, the target, the words of the title and the operations. What an operation says can be
read off the tokens within its span and within that of its value (`Op.MadeOf`).

Results: which tokens are within a span of some of them (`Span.inside_append_left`, `Span.inside_wholeSpan`);
the tokens of an operation (`Op.exists_madeOf`) and of operations among words (`Command.Items.divides`);
`tokens_have_their_parts`.
-/
namespace Agenda

open Lexer
open Token (InOrder wholeSpan)

/-! ## Tokens within a span -/

namespace Span

def holds (s : Span) (t : Token) : Bool :=
  decide (s.start.offset ≤ t.span.start.offset ∧ t.span.stop.offset ≤ s.stop.offset)

def inside (s : Span) (ts : List Token) : List Token := ts.filter s.holds

variable {s : Span} {t : Token} {ts xs ys : List Token}

theorem holds_of_before (h : s.Before t.span) (ht : t.span.start.offset < t.span.stop.offset) :
    s.holds t = false := by
  unfold Before at h
  exact decide_eq_false fun ⟨_, hstop⟩ => by omega

theorem holds_of_after (h : t.span.Before s) (ht : t.span.start.offset < t.span.stop.offset) :
    s.holds t = false := by
  unfold Before at h
  exact decide_eq_false fun ⟨hstart, _⟩ => by omega

/-- A span of tokens holds no token before these. -/
theorem LiesIn.holds_left (hs : s.LiesIn ys) (h : InOrder (xs ++ ys)) : ∀ t ∈ xs, s.holds t = false := by
  intro t ht
  have hxs : t.span.LiesIn xs := liesIn_token (h.sublist (List.sublist_append_left xs ys)) ht
  exact holds_of_after (hxs.before h hs) hxs.nonempty

/-- A span of tokens holds no token after these. -/
theorem LiesIn.holds_right (hs : s.LiesIn xs) (h : InOrder (xs ++ ys)) :
    ∀ t ∈ ys, s.holds t = false := by
  intro t ht
  have hys : t.span.LiesIn ys := liesIn_token (h.suffix (List.suffix_append xs ys)) ht
  exact holds_of_before (hs.before h hys) hys.nonempty

theorem filter_eq_nil {f : Token → Bool} (h : ∀ t ∈ ts, f t = false) : ts.filter f = [] :=
  List.filter_eq_nil_iff.2 fun t ht => by rw [h t ht]; exact Bool.false_ne_true

theorem inside_append_left (hs : s.LiesIn xs) (h : InOrder (xs ++ ys)) :
    s.inside (xs ++ ys) = s.inside xs := by
  rw [inside, List.filter_append, filter_eq_nil (hs.holds_right h), List.append_nil, inside]

theorem inside_append_right (hs : s.LiesIn ys) (h : InOrder (xs ++ ys)) :
    s.inside (xs ++ ys) = s.inside ys := by
  rw [inside, List.filter_append, filter_eq_nil (hs.holds_left h), List.nil_append, inside]

/-- The span of all tokens holds them all. -/
theorem inside_wholeSpan (h : InOrder ts) : (wholeSpan ts).inside ts = ts := by
  cases ts with
  | nil => rfl
  | cons t ts =>
    exact List.filter_eq_self.2 fun u hu => decide_eq_true ⟨h.start_le u hu, h.stop_le u hu⟩

theorem inside_singleton (t : Token) : t.span.inside [t] = [t] :=
  List.filter_cons_of_pos (decide_eq_true ⟨Nat.le_refl _, Nat.le_refl _⟩)

/-- A token before others, and the span of these. -/
theorem cover_wholeSpan {u : Token} {us : List Token} (h : InOrder (t :: u :: us)) :
    t.span.cover (wholeSpan (u :: us)) = wholeSpan (t :: u :: us) := by
  have hwhole : (wholeSpan (u :: us)).LiesIn (u :: us) := liesIn_wholeSpan h.tail
  have ht : t.span.LiesIn [t] := liesIn_token (h.sublist (by simp)) List.mem_cons_self
  rw [cover_of_before (ht.before h hwhole) ht.nonempty hwhole.nonempty, wholeSpan, wholeSpan,
    List.getLastD_cons]

end Span

/-! ## Operations -/

namespace Op

/-- What the tokens within an operation and within its value say of it. -/
inductive MadeOf (ts : List Token) : Op → Prop where
  /-- A field and one quotation. -/
  | quotation {how : Edit} {f : Field} {v : Value} {s : Span} {t u : Token}
      (tokens : s.inside ts = [t, u]) (ht : t.kind = editToken how) (hf : fieldOf t = .ok f)
      (value : v.span.inside ts = [u]) (hu : u.kind = .quoted) (quoted : v.quoted = true)
      (raw : v.raw = u.text.unquote) : MadeOf ts (.edit how f v s)
  /-- A field and a run. -/
  | run {how : Edit} {f : Field} {v : Value} {s : Span} {t : Token} {run : List Token}
      (tokens : s.inside ts = t :: run) (ht : t.kind = editToken how) (hf : fieldOf t = .ok f)
      (value : v.span.inside ts = run) (unquoted : v.quoted = false)
      (raw : v.raw = ValueRun.join run) : MadeOf ts (.edit how f v s)
  /-- A minus sign and a tag. -/
  | removed {kind : TagKind} {v : Value} {s : Span} {t u : Token}
      (tokens : s.inside ts = [t, u]) (ht : t.kind = .removeOp) (hu : u.kind = tagToken kind)
      (value : v.span.inside ts = [u]) (unquoted : v.quoted = false)
      (raw : u.afterSigil? = some v.raw) : MadeOf ts (.edit .remove kind.field v s)
  | clear {f : Field} {s : Span} {t : Token} (tokens : s.inside ts = [t]) (ht : t.kind = .clearField)
      (hf : fieldOf t = .ok f) : MadeOf ts (.clear f s)
  | tag {kind : TagKind} {name : Text} {s : Span} {t : Token} (tokens : s.inside ts = [t])
      (ht : t.kind = tagToken kind) (hname : t.afterSigil? = some name) :
      MadeOf ts (.tag kind name s)
  /-- A plus sign and a tag. -/
  | added {kind : TagKind} {name : Text} {s : Span} {t u : Token} (tokens : s.inside ts = [t, u])
      (ht : t.kind = .addOp) (hu : u.kind = tagToken kind) (hname : u.afterSigil? = some name) :
      MadeOf ts (.tag kind name s)

variable {ts us xs ys rest : List Token} {op : Op} {ops : List Op}

/-- Only the tokens within its spans count. -/
theorem MadeOf.of_inside (h : op.MadeOf ts) (hspans : ∀ s ∈ op.spans, s.inside us = s.inside ts) :
    op.MadeOf us := by
  have hspan : op.span.inside us = op.span.inside ts := hspans _ List.mem_cons_self
  have hvalue {s : Span} (hs : op.valueSpan? = some s) : s.inside us = s.inside ts :=
    hspans s (List.mem_cons_of_mem _ (Option.mem_toList.2 hs))
  cases h with
  | quotation tokens ht hf value hu quoted raw =>
    exact .quotation (hspan.trans tokens) ht hf ((hvalue rfl).trans value) hu quoted raw
  | run tokens ht hf value unquoted raw =>
    exact .run (hspan.trans tokens) ht hf ((hvalue rfl).trans value) unquoted raw
  | removed tokens ht hu value unquoted raw =>
    exact .removed (hspan.trans tokens) ht hu ((hvalue rfl).trans value) unquoted raw
  | clear tokens ht hf => exact .clear (hspan.trans tokens) ht hf
  | tag tokens ht hname => exact .tag (hspan.trans tokens) ht hname
  | added tokens ht hu hname => exact .added (hspan.trans tokens) ht hu hname

theorem MadeOf.append_left (h : op.MadeOf xs) (hlies : op.LiesIn xs) (hts : InOrder (xs ++ ys)) :
    op.MadeOf (xs ++ ys) :=
  h.of_inside fun s hs => Span.inside_append_left (hlies.spans s hs) hts

theorem MadeOf.append_right (h : op.MadeOf ys) (hlies : op.LiesIn ys) (hts : InOrder (xs ++ ys)) :
    op.MadeOf (xs ++ ys) :=
  h.of_inside fun s hs => Span.inside_append_right (hlies.spans s hs) hts

/-- The tokens of a value: one quotation, or a run that joins to it. -/
theorem exists_tokens_of_isValue {v : Value} (hts : InOrder ts) (h : IsValue ts v rest) :
    ∃ u us, ts = u :: us ++ rest ∧ v.span = wholeSpan (u :: us) ∧
      ((us = [] ∧ u.kind = .quoted ∧ v.quoted = true ∧ v.raw = u.text.unquote) ∨
        v.quoted = false ∧ v.raw = ValueRun.join (u :: us)) := by
  cases h with
  | @quotation t rest hq => exact ⟨t, [], rfl, rfl, Or.inl ⟨rfl, hq, rfl, if_pos hq⟩⟩
  | @run t ts run rest hq split hne =>
    have happend := splitValue_append (t :: ts)
    rw [split] at happend
    have horder : InOrder (t :: run) := hts.sublist (happend ▸ List.sublist_append_left _ _)
    exact ⟨t, run, happend.symm, Token.cover_getLastD horder, Or.inr ⟨rfl, rfl⟩⟩

theorem madeOf_edit {how : Edit} {t u : Token} {f : Field} {v : Value} (hts : InOrder (t :: u :: us))
    (ht : t.kind = editToken how) (hf : fieldOf t = .ok f) (hspan : v.span = wholeSpan (u :: us))
    (hv : (us = [] ∧ u.kind = .quoted ∧ v.quoted = true ∧ v.raw = u.text.unquote) ∨
      v.quoted = false ∧ v.raw = ValueRun.join (u :: us)) :
    (edit how f v (wholeSpan (t :: u :: us))).MadeOf (t :: u :: us) := by
  have htokens : (wholeSpan (t :: u :: us)).inside (t :: u :: us) = t :: u :: us :=
    Span.inside_wholeSpan hts
  have hvalue : v.span.inside ([t] ++ u :: us) = u :: us := by
    rw [hspan, Span.inside_append_right (Span.liesIn_wholeSpan hts.tail) hts,
      Span.inside_wholeSpan hts.tail]
  rcases hv with ⟨rfl, hu, quoted, raw⟩ | ⟨unquoted, raw⟩
  · exact .quotation htokens ht hf hvalue hu quoted raw
  · exact .run htokens ht hf hvalue unquoted raw

/-- An operation is read from the tokens within its span. -/
theorem exists_madeOf (hts : InOrder ts) (h : IsOp ts op rest) :
    ∃ used, ts = used ++ rest ∧ op.span.inside used = used ∧ op.MadeOf used := by
  cases h with
  | @edit how t ts rest f v ht hf value =>
    obtain ⟨u, us, rfl, hspan, hv⟩ := exists_tokens_of_isValue hts.tail value
    have horder : InOrder (t :: u :: us) := hts.sublist (List.sublist_append_left (t :: u :: us) rest)
    rw [hspan, Span.cover_wholeSpan horder]
    exact ⟨t :: u :: us, rfl, Span.inside_wholeSpan horder, madeOf_edit horder ht hf hspan hv⟩
  | @clear t rest f ht hf =>
    exact ⟨[t], rfl, Span.inside_singleton t, .clear (Span.inside_singleton t) ht hf⟩
  | @tag kind t rest name ht hname =>
    exact ⟨[t], rfl, Span.inside_singleton t, .tag (Span.inside_singleton t) ht hname⟩
  | @added kind t u rest name ht hu touch hname =>
    have horder : InOrder [t, u] := hts.sublist (by simp)
    have hwhole : (t.span.cover u.span).inside [t, u] = [t, u] := by
      rw [show t.span.cover u.span = _ from Token.cover_getLastD horder, Span.inside_wholeSpan horder]
    exact ⟨[t, u], rfl, hwhole, .added hwhole ht hu hname⟩
  | @removed kind t u rest name ht hu touch hname =>
    have horder : InOrder [t, u] := hts.sublist (by simp)
    have hwhole : (t.span.cover u.span).inside [t, u] = [t, u] := by
      rw [show t.span.cover u.span = _ from Token.cover_getLastD horder, Span.inside_wholeSpan horder]
    have hvalue : u.span.inside ([t] ++ [u]) = [u] := by
      rw [Span.inside_append_right (Span.liesIn_token horder.tail List.mem_cons_self) horder,
        Span.inside_singleton]
    exact ⟨[t, u], rfl, hwhole, .removed hwhole ht hu hvalue rfl hname⟩

/-- The number of operations that the token is within. -/
def owners (ops : List Op) (t : Token) : Nat := ops.countP fun op => op.span.holds t

theorem owners_cons (t : Token) :
    owners (op :: ops) t = owners ops t + if op.span.holds t then 1 else 0 := List.countP_cons

/-- Tokens before those of all operations are in none. -/
theorem owners_left (hops : ∀ op ∈ ops, op.LiesIn ys) (h : InOrder (xs ++ ys)) :
    ∀ t ∈ xs, owners ops t = 0 := by
  intro t ht
  rw [owners, List.countP_eq_zero]
  intro op hop
  rw [(hops op hop).span.holds_left h t ht]
  exact Bool.false_ne_true

end Op

/-! ## Commands -/

namespace Command

/-- The tokens are those of the words and of the operations. -/
structure Divides (ts words : List Token) (ops : List Op) : Prop where
  words : words = ts.filter fun t => Op.owners ops t == 0
  once : ∀ t ∈ ts, Op.owners ops t ≤ 1
  made : ∀ op ∈ ops, op.MadeOf ts

/-- One more operation before the others. -/
theorem Divides.op {used rest words : List Token} {op : Op} {ops : List Op}
    (h : Divides rest words ops) (hts : InOrder (used ++ rest)) (hops : ∀ o ∈ ops, o.LiesIn rest)
    (hop : op.LiesIn used) (hall : op.span.inside used = used) (hmade : op.MadeOf used) :
    Divides (used ++ rest) words (op :: ops) := by
  have hused : ∀ t ∈ used, Op.owners (op :: ops) t = 1 := fun t ht => by
    rw [Op.owners_cons, Op.owners_left hops hts t ht, List.filter_eq_self.1 hall t ht]
    rfl
  have hrest : ∀ t ∈ rest, Op.owners (op :: ops) t = Op.owners ops t := fun t ht => by
    rw [Op.owners_cons, hop.span.holds_right hts t ht]
    rfl
  refine ⟨?_, List.forall_mem_append.2 ⟨fun t ht => (hused t ht).le, fun t ht => ?_⟩,
    List.forall_mem_cons.2 ⟨hmade.append_left hop hts, fun o ho => ?_⟩⟩
  · have hnone : used.filter (fun t => Op.owners (op :: ops) t == 0) = [] :=
      Span.filter_eq_nil fun t ht => by rw [hused t ht]; rfl
    rw [List.filter_append, hnone, List.nil_append, h.words]
    exact List.filter_congr fun t ht => by rw [hrest t ht]
  · rw [hrest t ht]
    exact h.once t ht
  · exact (h.made o ho).append_right (hops o ho) hts

/-- One more word before the others. -/
theorem Divides.word {t : Token} {ts words : List Token} {ops : List Op} (h : Divides ts words ops)
    (hts : InOrder (t :: ts)) (hops : ∀ op ∈ ops, op.LiesIn ts) :
    Divides (t :: ts) (t :: words) ops := by
  have horder : InOrder ([t] ++ ts) := hts
  have ht : Op.owners ops t = 0 := Op.owners_left hops horder t List.mem_cons_self
  refine ⟨?_, List.forall_mem_cons.2 ⟨ht.le.trans (Nat.zero_le 1), h.once⟩, fun op hop => ?_⟩
  · rw [List.filter_cons_of_pos (by rw [ht]; rfl), ← h.words]
  · exact (h.made op hop).append_right (hops op hop) horder

theorem Items.divides {eof : Position} {ts words : List Token} {ops : List Op}
    (h : Items eof ts words ops) (hts : InOrder ts) : Divides ts words ops := by
  induction h with
  | nil => exact ⟨rfl, List.forall_mem_nil _, List.forall_mem_nil _⟩
  | op head tail ih =>
    have hop := Op.read_some_iff.1 head
    obtain ⟨used, rfl, hall, hmade⟩ := Op.exists_madeOf hts hop
    obtain ⟨used', heq, hlies⟩ := Op.exists_liesIn hts hop
    obtain rfl := List.append_cancel_right heq
    have hrest := hts.suffix (List.suffix_append used _)
    exact (ih hrest).op hts (tail.liesIn hrest).1 hlies hall hmade
  | word head tail ih => exact (ih hts.tail).word hts (tail.liesIn hts.tail).1

/-- The tokens of an update after the target; a line that begins with an operation has none. -/
def afterTarget (ts : List Token) : List Token := if Op.begins ts then ts else ts.tail

/-- No operation begins with a number or a word. -/
theorem begins_of_word {t : Token} (ts : List Token) (ht : t.kind = .hashNumber ∨ t.kind = .ident) :
    Op.begins (t :: ts) = false := by
  cases ts <;> rcases ht with ht | ht <;> simp [Op.begins, ht, TokenKind.startsOp]

theorem afterTarget_of_readTarget {ts rest : List Token} {target : Target}
    (h : readTarget ts = .ok (target, rest)) : afterTarget ts = rest := by
  have hid {t : Token} {digits : Text} {us : List Token}
      (h : readId t digits us = .ok (target, rest)) : us = rest := by
    unfold readId at h
    split at h
    · cases h; rfl
    · cases h
  unfold readTarget at h
  split at h
  · cases h; rfl
  · next t us =>
    have hword (hk : t.kind = .hashNumber ∨ t.kind = .ident) : afterTarget (t :: us) = us := by
      rw [afterTarget, begins_of_word us hk]
      rfl
    split at h
    · next hk =>
      rw [hword (Or.inl hk)]
      split at h
      · exact hid h
      · cases h
    · next hk =>
      rw [hword (Or.inr hk)]
      split at h
      · cases h; rfl
      · split at h
        · exact hid h
        · cases h
    · split at h
      · next hb => cases h; exact if_pos hb
      · cases h

structure KeepsTokens (c : Command) (ts : List Token) : Prop where
  /-- The title is what the tokens after the verb that are in no operation join to. -/
  title : ∀ title ops span, c = .create title ops span →
    title = ValueRun.join ((afterVerb ts).filter fun t => Op.owners ops t == 0)
  /-- Every token after the verb and the target of an update is in one operation. -/
  update : ∀ target ops span, c = .update target ops span →
    ∀ t ∈ afterTarget (afterVerb ts), Op.owners ops t = 1
  /-- No token is in two operations. -/
  once : ∀ t ∈ ts, Op.owners c.ops t ≤ 1
  /-- Every operation is made of the tokens within it, and its value of those within the value. -/
  made : ∀ op ∈ c.ops, op.MadeOf ts

/-- What holds of the tokens at the end of a line that are divided holds of all its tokens. -/
theorem Divides.of_suffix {whole ts words : List Token} {ops : List Op} (h : Divides ts words ops)
    (hops : ∀ op ∈ ops, op.LiesIn ts) (hwhole : InOrder whole) (hs : ts <:+ whole) :
    (∀ t ∈ whole, Op.owners ops t ≤ 1) ∧ ∀ op ∈ ops, op.MadeOf whole := by
  obtain ⟨before, rfl⟩ := hs
  refine ⟨List.forall_mem_append.2 ⟨fun t ht => ?_, h.once⟩, fun op hop => ?_⟩
  · rw [Op.owners_left hops hwhole t ht]
    exact Nat.zero_le 1
  · exact (h.made op hop).append_right (hops op hop) hwhole

/-- No words are left between operations. -/
theorem Divides.owners_eq_one {ts : List Token} {ops : List Op} (h : Divides ts [] ops) :
    ∀ t ∈ ts, Op.owners ops t = 1 := by
  intro t ht
  have hpos : Op.owners ops t ≠ 0 := by
    have hnone := List.filter_eq_nil_iff.1 h.words.symm t ht
    rwa [beq_iff_eq] at hnone
  have hle := h.once t ht
  omega

theorem keepsTokens_of_no_ops {c : Command} {ts : List Token} (hops : c.ops = [])
    (hcreate : c.intent ≠ .create) (hupdate : c.intent ≠ .update) : c.KeepsTokens ts := by
  refine ⟨?_, ?_, fun t _ => ?_, ?_⟩
  · rintro title ops span rfl
    exact absurd rfl hcreate
  · rintro target ops span rfl
    exact absurd rfl hupdate
  · rw [hops]
    exact Nat.zero_le 1
  · rw [hops]
    exact List.forall_mem_nil _

theorem Makes.keepsTokens {eof : Position} {whole ts : List Token} {i : Intent} {c : Command}
    (h : Makes eof whole i (afterVerb ts) c) (hts : InOrder ts) : c.KeepsTokens ts := by
  have hsuffix := afterVerb_suffix ts
  generalize hafter : afterVerb ts = after at h hsuffix
  cases h with
  | create items titled =>
    have hdivides := items.divides (hts.suffix hsuffix)
    obtain ⟨honce, hmade⟩ := hdivides.of_suffix (items.liesIn (hts.suffix hsuffix)).1 hts hsuffix
    refine ⟨?_, ?_, honce, hmade⟩
    · rintro title ops span ⟨⟩
      rw [hafter, ← hdivides.words]
    · rintro target ops span ⟨⟩
  | update htarget items =>
    have hrest := (suffix_of_readTarget htarget).trans hsuffix
    have hdivides := items.divides (hts.suffix hrest)
    obtain ⟨honce, hmade⟩ := hdivides.of_suffix (items.liesIn (hts.suffix hrest)).1 hts hrest
    refine ⟨?_, ?_, honce, hmade⟩
    · rintro title ops span ⟨⟩
    · rintro target ops span ⟨⟩
      rw [hafter, afterTarget_of_readTarget htarget]
      exact hdivides.owners_eq_one
  | filter | allViews | view | showContext | context =>
    exact keepsTokens_of_no_ops rfl Intent.noConfusion Intent.noConfusion

end Command

/-- In every line that makes a create or update command, in whatever mode, no token is lost and none counts
twice: the title joins from the tokens outside the operations, the tokens of an update after its target are
each in one operation, and operations and values are made of the tokens within their spans. -/
theorem tokens_have_their_parts (mode : Mode) (now : Timestamp) (input : Text) (c : Command)
    (h : (Reading.ofLine mode now input).1.command = some c) : c.KeepsTokens (lex input).tokens := by
  obtain ⟨-, -, i, -, hmakes⟩ := Reading.commandOf_ok_iff.1 (commandOf_of_ofLine h)
  exact hmakes.keepsTokens (inOrder_lex input)

/-- A title in two parts with operations between them, and an update with a quotation and a removed tag. -/
theorem tokens_have_their_parts_of_lines :
    let now : Timestamp := ⟨⟨2025, 3, 9, by decide, by decide, by decide, by decide⟩, 12, 0, 0, 0, 0⟩
    let made (s : String) := (Reading.ofLine .auto now s.toList).1.command
    (∃ c, made "add call +#home ann, due:next week" = some c ∧
      c.KeepsTokens (lex "add call +#home ann, due:next week".toList).tokens) ∧
    ∃ c, made "set #7 notes:\"a b\" -@phone" = some c ∧
      c.KeepsTokens (lex "set #7 notes:\"a b\" -@phone".toList).tokens := by
  intro now made
  have hcreate : (made "add call +#home ann, due:next week").isSome = true := by decide +kernel
  have hupdate : (made "set #7 notes:\"a b\" -@phone").isSome = true := by decide +kernel
  obtain ⟨c, hc⟩ := Option.isSome_iff_exists.1 hcreate
  obtain ⟨d, hd⟩ := Option.isSome_iff_exists.1 hupdate
  exact ⟨⟨c, hc, tokens_have_their_parts .auto now _ c hc⟩,
    d, hd, tokens_have_their_parts .auto now _ d hd⟩

end Agenda
