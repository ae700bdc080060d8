import Agenda.Op.Parser
import Agenda.Proofs.Lexer.Cuts
import Agenda.Proofs.Span
/-!
# The grammar of operations

What an operation is, said without a reader:

* a field with its colon and a value, after no sign or after the sign of an addition or a removal;
* the clearing of a field;
* a tag, or a tag that a sign touches.

A value is one quotation, or the run of tokens up to the next operation (`IsValue`). `IsOp ts op rest` says
that the operation `op`, spans included, is at the head of `ts` and that the tokens `rest` come after it.

Results: the reader of operations finds just these (`read_some_iff`), and where it finds none, none begins
(`read_none_iff`).
-/
namespace Agenda.Op

open Lexer

/-! ## Values -/

/-- A value at the head of the tokens, and the tokens after it. -/
inductive IsValue : List Token → Value → List Token → Prop where
  | quotation {t : Token} {rest : List Token} (hq : t.kind = .quoted) :
      IsValue (t :: rest) ⟨t.value, true, t.span⟩ rest
  | run {t : Token} {ts run rest : List Token} (hq : t.kind ≠ .quoted)
      (split : splitValue (t :: ts) = (t :: run, rest)) (hne : ValueRun.join (t :: run) ≠ []) :
      IsValue (t :: ts) ⟨ValueRun.join (t :: run), false, t.span.cover (run.getLastD t).span⟩ rest

section
variable {eof : Position} {field : Field} {fieldToken : Token} {ts rest : List Token} {v : Value}

/-- A run begins with the first of the tokens, or is empty. -/
theorem splitValue_cons (t : Token) (ts : List Token) :
    splitValue (t :: ts) = ([], t :: ts) ∨ ∃ run rest, splitValue (t :: ts) = (t :: run, rest) := by
  rw [splitValue]
  split
  · exact Or.inl rfl
  · exact Or.inr ⟨_, _, rfl⟩

theorem spanBetween_of_splitValue {t : Token} {run : List Token}
    (h : splitValue (t :: ts) = (t :: run, rest)) :
    Token.spanBetween eof (t :: ts) rest = t.span.cover (run.getLastD t).span := by
  have happend := splitValue_append (t :: ts)
  rw [h] at happend
  rw [← happend]
  exact Token.spanBetween_append eof t run rest

theorem isValue_of_readRun {t : Token} (hq : t.kind ≠ .quoted)
    (h : readValue.readRun eof field fieldToken (t :: ts) = .ok (v, rest)) :
    IsValue (t :: ts) v rest := by
  rcases splitValue_cons t ts with hsplit | ⟨run, rest', hsplit⟩ <;>
    rw [readValue.readRun, hsplit] at h <;> simp only at h
  · rw [ValueRun.join_nil, if_pos rfl] at h
    cases h
  · split at h
    · cases h
    · next hne =>
      cases h
      rw [spanBetween_of_splitValue hsplit]
      exact .run hq hsplit hne

/-- The reader of values finds just these. -/
theorem readValue_ok_iff :
    readValue eof field fieldToken ts = .ok (v, rest) ↔ IsValue ts v rest := by
  constructor
  · intro h
    cases ts with
    | nil => cases h
    | cons t ts =>
      rw [readValue] at h
      split at h
      · next hq => cases h; exact .quotation hq
      · next hq => exact isValue_of_readRun hq h
  · intro h
    cases h with
    | quotation hq => rw [readValue, if_pos hq]
    | run hq split hne =>
      rw [readValue, if_neg hq, readValue.readRun, split]
      simp only [if_neg hne, spanBetween_of_splitValue split]

theorem IsValue.suffix (h : IsValue ts v rest) : rest <:+ ts := by
  cases h with
  | quotation hq => exact List.suffix_cons _ _
  | @run t ts run rest hq split hne =>
    have happend := splitValue_append (t :: ts)
    rw [split] at happend
    exact ⟨t :: run, happend⟩

end

/-! ## Operations -/

/-- An operation at the head of the tokens, and the tokens after it. -/
inductive IsOp : List Token → Op → List Token → Prop where
  | edit (how : Edit) {t : Token} {ts rest : List Token} {f : Field} {v : Value}
      (ht : t.kind = editToken how) (hf : fieldOf t = .ok f) (value : IsValue ts v rest) :
      IsOp (t :: ts) (.edit how f v (t.span.cover v.span)) rest
  | clear {t : Token} {rest : List Token} {f : Field} (ht : t.kind = .clearField)
      (hf : fieldOf t = .ok f) : IsOp (t :: rest) (.clear f t.span) rest
  | tag (kind : TagKind) {t : Token} {rest : List Token} {name : Text} (ht : t.kind = tagToken kind)
      (hname : t.afterSigil? = some name) : IsOp (t :: rest) (.tag kind name t.span) rest
  | added (kind : TagKind) {t u : Token} {rest : List Token} {name : Text} (ht : t.kind = .addOp)
      (hu : u.kind = tagToken kind) (touch : t.touches u = true)
      (hname : u.afterSigil? = some name) :
      IsOp (t :: u :: rest) (.tag kind name (t.span.cover u.span)) rest
  | removed (kind : TagKind) {t u : Token} {rest : List Token} {name : Text} (ht : t.kind = .removeOp)
      (hu : u.kind = tagToken kind) (touch : t.touches u = true)
      (hname : u.afterSigil? = some name) :
      IsOp (t :: u :: rest)
        (.edit .remove kind.field ⟨name, false, u.span⟩ (t.span.cover u.span)) rest

section
variable {eof : Position} {t : Token} {ts rest : List Token} {op : Op}

theorem IsOp.suffix (h : IsOp ts op rest) : rest <:+ ts := by
  cases h with
  | edit how ht hf value => exact value.suffix.trans (List.suffix_cons _ _)
  | clear | tag => exact List.suffix_cons _ _
  | added | removed => exact ⟨[_, _], rfl⟩

theorem readEdit_ok_iff {how : Edit} :
    readEdit eof how t ts = .ok (op, rest) ↔
      ∃ f v, fieldOf t = .ok f ∧ IsValue ts v rest ∧ op = .edit how f v (t.span.cover v.span) := by
  constructor
  · intro h
    unfold readEdit at h
    split at h
    · cases h
    · next f hf =>
      split at h
      · cases h
      · next v rest' hv => cases h; exact ⟨f, v, hf, readValue_ok_iff.1 hv, rfl⟩
  · rintro ⟨f, v, hf, hv, rfl⟩
    simp only [readEdit, hf, readValue_ok_iff.2 hv]

theorem isOp_of_readEdit (how : Edit) (ht : t.kind = editToken how)
    (h : (readEdit eof how t ts).map some = .ok (some (op, rest))) : IsOp (t :: ts) op rest := by
  obtain ⟨f, v, hf, hv, rfl⟩ := readEdit_ok_iff.1 (ok_of_map_some h)
  exact .edit how ht hf hv

theorem exists_tagToken {k : TokenKind} (h : k.isTag = true) : ∃ kind, k = tagToken kind := by
  cases k with
  | projectTag => exact ⟨.project, rfl⟩
  | contextTag => exact ⟨.context, rfl⟩
  | _ => cases h

theorem tagKind_tagToken (kind : TagKind) : tagKind (tagToken kind) = kind := by cases kind <;> rfl

theorem isOp_of_signed {u : Token} {name : Text} (hb : begins (t :: u :: rest) = true)
    (ht : t.kind = .addOp ∨ t.kind = .removeOp) (hname : u.afterSigil? = some name) :
    IsOp (t :: u :: rest) (signed t u name) rest := by
  rcases begins_cons_iff.1 hb with hstart | ⟨-, v, vs, hvs, htag, touch⟩
  · rcases ht with ht | ht <;> rw [ht] at hstart <;> cases hstart
  cases hvs
  obtain ⟨kind, hu⟩ := exists_tagToken htag
  rcases ht with ht | ht
  · simp only [signed, if_pos ht, hu, tagKind_tagToken]
    exact .added kind ht hu touch hname
  · have hne : t.kind ≠ .addOp := by rw [ht]; decide
    simp only [signed, if_neg hne, hu, tagKind_tagToken]
    exact .removed kind ht hu touch hname

theorem isOp_of_read (h : Op.read eof ts = .ok (some (op, rest))) : IsOp ts op rest := by
  unfold Op.read at h
  split at h
  · cases h
  · split at h
    · cases h
    · split at h
      · next hb =>
        split at h
        · next hk => exact isOp_of_readEdit .set hk h
        · next hk => exact isOp_of_readEdit .add hk h
        · next hk => exact isOp_of_readEdit .remove hk h
        · next t ts hk =>
          have hclear := ok_of_map_some h
          unfold readClear at hclear
          split at hclear
          · cases hclear
          · next hf => cases hclear; exact .clear hk hf
        · next hk =>
          obtain ⟨name, hname, rfl, rfl⟩ := readTag_ok_iff.1 (ok_of_map_some h)
          exact .tag .project hk hname
        · next hk =>
          obtain ⟨name, hname, rfl, rfl⟩ := readTag_ok_iff.1 (ok_of_map_some h)
          exact .tag .context hk hname
        · next hk =>
          obtain ⟨name, hname, rfl, rfl⟩ := readTag_ok_iff.1 (ok_of_map_some h)
          exact isOp_of_signed hb (Or.inl hk) hname
        · next hk =>
          obtain ⟨name, hname, rfl, rfl⟩ := readTag_ok_iff.1 (ok_of_map_some h)
          exact isOp_of_signed hb (Or.inr hk) hname
        · cases h
      · cases h

/-- The reader of operations finds just these. -/
theorem read_some_iff : Op.read eof ts = .ok (some (op, rest)) ↔ IsOp ts op rest := by
  refine ⟨isOp_of_read, fun h => ?_⟩
  cases h with
  | @edit how t ts rest f v ht hf value =>
    have hread : readEdit eof how t ts = .ok (.edit how f v (t.span.cover v.span), rest) :=
      readEdit_ok_iff.2 ⟨f, v, hf, value, rfl⟩
    cases how <;> simp [Op.read, begins, ht, editToken, TokenKind.isMark, TokenKind.startsOp, hread,
      Except.map]
  | clear ht hf =>
    simp [Op.read, begins, ht, TokenKind.isMark, TokenKind.startsOp, readClear, hf, Except.map]
  | tag kind ht hname =>
    cases kind <;> simp [Op.read, begins, ht, readTag, hname, tagToken, TokenKind.isMark,
      TokenKind.startsOp, Except.map]
  | added kind ht hu touch hname =>
    cases kind <;> simp [Op.read, begins, ht, hu, touch, readTag, hname, tagToken, TokenKind.isMark,
      TokenKind.startsOp, TokenKind.isTag, signed, tagKind, Except.map]
  | removed kind ht hu touch hname =>
    cases kind <;> simp [Op.read, begins, ht, hu, touch, readTag, hname, tagToken, TokenKind.isMark,
      TokenKind.startsOp, TokenKind.isTag, signed, tagKind, Except.map]

theorem map_some_ne (p : Parsed Op) : p.map some ≠ .ok none := by
  cases p <;> simp [Except.map]

/-- Where the reader finds no operation none begins, and there is no sigil without a name. -/
theorem read_none_iff :
    Op.read eof (t :: ts) = .ok none ↔ t.kind.isMark = false ∧ begins (t :: ts) = false := by
  constructor
  · intro h
    unfold Op.read at h
    simp only at h
    split at h
    · cases h
    · next hm =>
      refine ⟨by simpa using hm, ?_⟩
      cases hb : begins (t :: ts) with
      | false => rfl
      | true =>
        rw [if_pos hb] at h
        split at h
        iterate 8 exact absurd h (map_some_ne _)
        · -- no other token begins an operation
          rcases begins_cons_iff.1 hb with hstart | ⟨hsign, u, us, rfl, -⟩
          · cases hk : t.kind <;> rw [hk] at hstart <;> contradiction
          · next hadd hremove =>
            rcases hsign with hk | hk
            · exact (hadd u us hk rfl).elim
            · exact (hremove u us hk rfl).elim
  · rintro ⟨hm, hb⟩
    simp [Op.read, hm, hb]

end

end Agenda.Op
