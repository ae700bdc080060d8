import Agenda.Proofs.Lexer.Named
import Agenda.Proofs.Op.Grammar
import Agenda.Proofs.ValueRun
/-!
# How far operations go

Where an operation begins, its kind of token alone says how far it goes (`Op.after`), whether or not it can be
read. What has to hold for reading it is said token by token, of each token and those that come next: `IsFine`
is what makes operations readable, and `IsFollowed` is what leaves no words between them.

Results: an operation that begins is read if its tokens are fine (`Op.exists_isOp`), and then they are
(`Op.IsOp.isFine`); it ends where it should (`Op.IsOp.after_eq`), with an operation or nothing next if its
tokens are so followed (`Op.IsOp.resumes`) and only then (`Op.IsOp.isFollowed`).
-/
namespace Agenda

open Lexer

/-! ## Tokens and those after them -/

namespace Token

/-- A property of every token and those after it. -/
def Everywhere (P : Token → List Token → Prop) (ts : List Token) : Prop :=
  ∀ t rest, t :: rest <:+ ts → P t rest

variable {P : Token → List Token → Prop} {t : Token} {ts us : List Token}

theorem everywhere_nil : Everywhere P [] := fun _ _ h => by cases List.suffix_nil.1 h

theorem everywhere_cons (ht : P t ts) (hts : Everywhere P ts) : Everywhere P (t :: ts) := by
  intro u rest hs
  rcases List.suffix_cons_iff.1 hs with heq | hs
  · cases heq; exact ht
  · exact hts u rest hs

theorem everywhere_append (hus : ∀ u ∈ us, ∀ rest, P u rest) (hts : Everywhere P ts) :
    Everywhere P (us ++ ts) := by
  induction us with
  | nil => exact hts
  | cons u us ih =>
    obtain ⟨hu, hus⟩ := List.forall_mem_cons.1 hus
    exact everywhere_cons (hu _) (ih hus)

theorem Everywhere.head (h : Everywhere P (t :: ts)) : P t ts := h t ts List.suffix_rfl

theorem Everywhere.suffix (h : Everywhere P ts) (hs : us <:+ ts) : Everywhere P us :=
  fun t rest ht => h t rest (ht.trans hs)

/-- What follows of a token whatever comes after it holds of each. -/
theorem Everywhere.forall_mem {Q : Token → Prop} (h : Everywhere P ts) (hQ : ∀ t rest, P t rest → Q t) :
    ∀ t ∈ ts, Q t := by
  intro t ht
  obtain ⟨before, rest, hts⟩ := List.append_of_mem ht
  exact hQ t rest (h t rest ⟨before, hts.symm⟩)

theorem Everywhere.tail (h : Everywhere P (t :: ts)) : Everywhere P ts := h.suffix (List.suffix_cons t ts)

end Token

open Token (Everywhere everywhere_nil everywhere_cons everywhere_append)

/-! ## Runs with text -/

/-- A run that begins with a token in one piece has text. -/
theorem ValueRun.join_ne_nil {t : Token} (ts : List Token) (hq : t.kind ≠ .quoted)
    (h : Solid t.kind t.text) : ValueRun.join (t :: ts) ≠ [] := by
  have hvalue : t.value = t.text := if_neg hq
  obtain ⟨c, r, htext⟩ := List.exists_cons_of_ne_nil h.ne_nil
  refine Text.trim_ne_nil ?_ (h.not_blank c (by rw [htext]; exact List.mem_cons_self))
  rw [ValueRun.head?_spread false ts (hvalue ▸ h.ne_nil), hvalue, htext, List.head?_cons]

namespace Op

variable {s : Text} {eof : Position} {t u : Token} {ts us rest : List Token} {f : Field} {v : Value} {op : Op}

/-! ## Fields -/

theorem fieldOf_ok_iff : fieldOf t = .ok f ↔ Field.key t.text = f.name := by
  rw [← Field.ofName?_eq_some_iff, fieldOf]
  cases Field.ofName? (Field.key t.text) <;> simp

/-- The field of a token can be modified unless it occurs in filters only. -/
theorem exists_fieldOf (ht : t ∈ (lex s).tokens) (hk : namesField t.kind = true)
    (hkey : Field.key t.text ∉ Field.filterKeys) : ∃ f, fieldOf t = .ok f := by
  obtain ⟨w, hw, hword⟩ := exists_word_of_mem_tokens ht hk
  have hfield := Field.unalias_cases hw
  rw [← hword, List.contains_eq_mem, decide_eq_false hkey] at hfield
  obtain ⟨f, hf⟩ := Option.isSome_iff_exists.1 hfield
  exact ⟨f, by rw [fieldOf, hf]⟩

/-! ## Where operations begin -/

/-- Nothing but an operation comes next. -/
def Resumes (ts : List Token) : Prop := ts = [] ∨ begins ts = true

theorem begins_of_isOp (h : IsOp ts op rest) : begins ts = true := by
  cases h with
  | @edit how t ts rest f v ht =>
    refine begins_cons_iff.2 (Or.inl ?_)
    rw [ht]; cases how <;> rfl
  | clear ht => exact begins_cons_iff.2 (Or.inl (by rw [ht]; rfl))
  | tag kind ht => exact begins_cons_iff.2 (Or.inl (by rw [ht]; cases kind <;> rfl))
  | added kind ht hu touch | removed kind ht hu touch =>
    refine begins_cons_iff.2 (Or.inr ⟨by simp [ht], _, _, rfl, ?_, touch⟩)
    rw [hu]; cases kind <;> rfl

theorem startsOp_of_not_begins (h : begins (t :: ts) = false) : t.kind.startsOp = false := by
  cases hs : t.kind.startsOp with
  | false => rfl
  | true => rw [begins_cons_iff.2 (Or.inl hs)] at h; cases h

/-- A token that begins no operation by its kind, and is no sigil without a name. -/
def IsPlain (t : Token) : Prop := t.kind.startsOp = false ∧ t.kind.isMark = false

theorem IsPlain.kind_eq (h : IsPlain t) :
    namesField t.kind = false ∧ isFieldKind t.kind = false ∧ t.kind.isTag = false := by
  obtain ⟨hstart, -⟩ := h
  generalize t.kind = k at hstart
  revert hstart
  cases k <;> decide

/-! ## Values -/

def afterValue (ts : List Token) : List Token :=
  if ts.head?.map Token.kind = some .quoted then ts.tail else (splitValue ts).2

theorem isPlain_of_mem_splitValue (h : t ∈ (splitValue ts).1) : IsPlain t := by
  induction ts with
  | nil => cases h
  | cons u us ih =>
    rw [splitValue] at h
    split at h
    · cases h
    · next hstop =>
      simp only [Bool.or_eq_true, not_or, Bool.not_eq_true] at hstop
      rcases List.mem_cons.1 h with rfl | h
      · exact ⟨startsOp_of_not_begins hstop.1, hstop.2⟩
      · exact ih h

/-- A run of tokens without sigils that lack a name goes up to the next operation. -/
theorem resumes_splitValue (h : ∀ t ∈ ts, t.kind.isMark = false) : Resumes (splitValue ts).2 := by
  induction ts with
  | nil => exact Or.inl rfl
  | cons u us ih =>
    obtain ⟨hu, hus⟩ := List.forall_mem_cons.1 h
    rw [splitValue, hu, Bool.or_false]
    split
    · next hb => exact Or.inr hb
    · exact ih hus

theorem IsValue.afterValue_eq (h : IsValue ts v rest) : afterValue ts = rest := by
  cases h with
  | quotation hq => rw [afterValue, List.head?_cons, Option.map_some, hq, if_pos rfl, List.tail_cons]
  | run hq split =>
    rw [afterValue, List.head?_cons, Option.map_some, if_neg (by simpa using hq), split]

/-- Before a value there is no operation. -/
theorem IsValue.begins_eq (h : IsValue ts v rest) : ts ≠ [] ∧ begins ts = false := by
  cases h with
  | @quotation t rest hq =>
    refine ⟨List.cons_ne_nil t rest, ?_⟩
    cases rest <;> simp [begins, hq, TokenKind.startsOp]
  | @run t ts run rest hq split =>
    refine ⟨List.cons_ne_nil t ts, ?_⟩
    cases hb : begins (t :: ts) with
    | false => rfl
    | true => rw [splitValue, hb, Bool.true_or, if_pos rfl] at split; cases split

theorem IsValue.exists_plain (h : IsValue ts v rest) :
    ∃ used, ts = used ++ rest ∧ ∀ t ∈ used, IsPlain t := by
  cases h with
  | @quotation t rest hq =>
    have hplain : IsPlain t := by rw [IsPlain, hq]; exact ⟨rfl, rfl⟩
    exact ⟨[t], rfl, List.forall_mem_singleton.2 hplain⟩
  | @run t ts run rest hq split =>
    have happend := splitValue_append (t :: ts)
    have hplain : ∀ u ∈ (splitValue (t :: ts)).1, IsPlain u := fun u hu => isPlain_of_mem_splitValue hu
    rw [split] at happend hplain
    exact ⟨t :: run, happend.symm, hplain⟩

/-- There is a value before a token of the line that begins no operation. -/
theorem exists_isValue (ht : t ∈ (lex s).tokens) (hopen : t.kind.isOpenString = false)
    (hmark : t.kind.isMark = false) (hb : begins (t :: ts) = false) :
    ∃ v rest, IsValue (t :: ts) v rest := by
  by_cases hq : t.kind = .quoted
  · exact ⟨_, _, .quotation hq⟩
  · have hsplit : splitValue (t :: ts) = (t :: (splitValue ts).1, (splitValue ts).2) := by
      rw [splitValue, hb, hmark, Bool.or_false, if_neg Bool.false_ne_true]
    have hsolid : Solid t.kind t.text := by
      refine (shape_of_mem_tokens ht).solid ?_
      simp [isSolidKind, startsOp_of_not_begins hb, hopen, hmark, hq]
    exact ⟨_, _, .run hq hsplit (ValueRun.join_ne_nil _ hq hsolid)⟩

/-! ## Operations -/

def after : List Token → List Token
  | [] => []
  | t :: ts => if isFieldKind t.kind then afterValue ts else if t.kind.startsOp then ts else ts.tail

theorem IsOp.after_eq (h : IsOp ts op rest) : after ts = rest := by
  cases h with
  | edit how ht hf value =>
    have hkind : isFieldKind (editToken how) = true := by cases how <;> rfl
    rw [after, ht, if_pos hkind, value.afterValue_eq]
  | clear ht => rw [after, ht]; rfl
  | tag kind ht => rw [after, ht]; cases kind <;> rfl
  | added kind ht | removed kind ht => rw [after, ht]; rfl

/-- What the tokens of a line have to be for its operations to be readable. -/
structure IsFine (t : Token) (rest : List Token) : Prop where
  closed : t.kind.isOpenString = false
  named : t.kind.isMark = false
  /-- No operation is on a key that occurs in filters only. -/
  known : namesField t.kind = true → Field.key t.text ∉ Field.filterKeys
  /-- After a field comes a token that begins no operation. -/
  valued : isFieldKind t.kind = true → rest ≠ [] ∧ begins rest = false

theorem IsPlain.isFine (h : IsPlain t) (hopen : t.kind.isOpenString = false) (rest : List Token) :
    IsFine t rest := by
  obtain ⟨hnames, hfield, -⟩ := h.kind_eq
  refine ⟨hopen, h.2, fun hk => ?_, fun hk => ?_⟩
  · rw [hnames] at hk; cases hk
  · rw [hfield] at hk; cases hk

theorem exists_isOp_of_edit (how : Edit) (hts : t :: ts <:+ (lex s).tokens)
    (hfine : Everywhere IsFine (t :: ts)) (ht : t.kind = editToken how) :
    ∃ op rest, IsOp (t :: ts) op rest := by
  have hfield : namesField t.kind = true ∧ isFieldKind t.kind = true := by rw [ht]; cases how <;> decide
  have hmem : ∀ u ∈ t :: ts, u ∈ (lex s).tokens := hts.subset
  obtain ⟨f, hf⟩ := exists_fieldOf (hmem t List.mem_cons_self) hfield.1 (hfine.head.known hfield.1)
  obtain ⟨hne, hb⟩ := hfine.head.valued hfield.2
  cases ts with
  | nil => exact absurd rfl hne
  | cons u us =>
    have hu := hfine.tail.head
    obtain ⟨v, rest, hv⟩ := exists_isValue (hmem u (by simp)) hu.closed hu.named hb
    exact ⟨_, _, .edit how ht hf hv⟩

/-- An operation that begins is read if the tokens are fine. -/
theorem exists_isOp (hts : t :: ts <:+ (lex s).tokens) (hfine : Everywhere IsFine (t :: ts))
    (hb : begins (t :: ts) = true) : ∃ op rest, IsOp (t :: ts) op rest := by
  rcases begins_cons_iff.1 hb with hstart | ⟨hsign, u, us, rfl, htag, -⟩
  · have hname : t.kind.isTag = true → ∃ name, t.afterSigil? = some name := fun htag =>
      exists_afterSigil_of_mem_lex (hts.subset List.mem_cons_self) (by simp [TokenKind.hasSigil, htag])
    cases hk : t.kind <;> rw [hk] at hstart hname
    case setField => exact exists_isOp_of_edit .set hts hfine hk
    case addField => exact exists_isOp_of_edit .add hts hfine hk
    case removeField => exact exists_isOp_of_edit .remove hts hfine hk
    case clearField =>
      have hfield : namesField t.kind = true := by rw [hk]; rfl
      obtain ⟨f, hf⟩ := exists_fieldOf (hts.subset List.mem_cons_self) hfield (hfine.head.known hfield)
      exact ⟨_, _, .clear hk hf⟩
    case projectTag =>
      obtain ⟨name, hname⟩ := hname rfl
      exact ⟨_, _, .tag .project hk hname⟩
    case contextTag =>
      obtain ⟨name, hname⟩ := hname rfl
      exact ⟨_, _, .tag .context hk hname⟩
    all_goals cases hstart
  · obtain ⟨name, hname⟩ := exists_afterSigil_of_mem_lex (hts.subset (by simp))
      (show u.kind.hasSigil = true by simp [TokenKind.hasSigil, htag])
    exact ⟨_, _, isOp_of_signed hb hsign hname⟩

/-- Among tokens that are fine the reader of operations makes no mistake. -/
theorem read_ne_error (hts : t :: ts <:+ (lex s).tokens) (hfine : Everywhere IsFine (t :: ts))
    (e : Failure) : Op.read eof (t :: ts) ≠ .error e := by
  intro he
  cases hb : begins (t :: ts) with
  | true =>
    obtain ⟨op, rest, hop⟩ := exists_isOp hts hfine hb
    rw [read_some_iff.2 hop] at he
    cases he
  | false =>
    rw [read_none_iff.2 ⟨hfine.head.named, hb⟩] at he
    cases he

theorem isPlain_of_sign (h : t.kind = .addOp ∨ t.kind = .removeOp) : IsPlain t := by
  rcases h with h | h <;> rw [IsPlain, h] <;> exact ⟨rfl, rfl⟩

theorem isFine_of_tag {kind : TagKind} (h : t.kind = tagToken kind) (rest : List Token) : IsFine t rest := by
  refine ⟨?_, ?_, fun hk => ?_, fun hk => ?_⟩ <;> rw [h] at * <;> cases kind
  all_goals first | rfl | cases hk

/-- The tokens of an operation are fine. -/
theorem IsOp.isFine (h : IsOp ts op rest) (hopen : ∀ t ∈ ts, t.kind.isOpenString = false)
    (hrest : Everywhere IsFine rest) : Everywhere IsFine ts := by
  cases h with
  | @edit how t ts rest f v ht hf value =>
    obtain ⟨hhead, htail⟩ := List.forall_mem_cons.1 hopen
    have hmark : t.kind.isMark = false := by rw [ht]; cases how <;> rfl
    refine everywhere_cons ⟨hhead, hmark, fun _ => ?_, fun _ => value.begins_eq⟩ ?_
    · rw [fieldOf_ok_iff.1 hf]
      exact Field.name_not_mem_filterKeys _
    · obtain ⟨used, rfl, hplain⟩ := value.exists_plain
      exact everywhere_append
        (fun u hu rest => (hplain u hu).isFine (htail u (List.mem_append_left _ hu)) rest) hrest
  | clear ht hf =>
    refine everywhere_cons ⟨by rw [ht]; rfl, by rw [ht]; rfl, fun _ => ?_, fun hk => ?_⟩ hrest
    · rw [fieldOf_ok_iff.1 hf]
      exact Field.name_not_mem_filterKeys _
    · rw [ht] at hk; cases hk
  | tag kind ht => exact everywhere_cons (isFine_of_tag ht _) hrest
  | added kind ht hu | removed kind ht hu =>
    refine everywhere_cons ((isPlain_of_sign (by simp [ht])).isFine (by rw [ht]; rfl) _) ?_
    exact everywhere_cons (isFine_of_tag hu _) hrest

/-! ## What comes next -/

/-- What comes after the tokens of operations without words between them. -/
structure IsFollowed (t : Token) (rest : List Token) : Prop where
  clearing : t.kind = .clearField → Resumes rest
  tag : t.kind.isTag = true → Resumes rest
  /-- After a quotation that is the value of a field. -/
  quotation : isFieldKind t.kind = true → ∀ u us, rest = u :: us → u.kind = .quoted → Resumes us

theorem IsPlain.isFollowed (h : IsPlain t) (rest : List Token) : IsFollowed t rest := by
  obtain ⟨hnames, hfield, htag⟩ := h.kind_eq
  refine ⟨fun hk => ?_, fun hk => ?_, fun hk => ?_⟩
  · rw [hk] at hnames; cases hnames
  · rw [htag] at hk; cases hk
  · rw [hfield] at hk; cases hk

theorem isFollowed_of_tag {kind : TagKind} (h : t.kind = tagToken kind) (hrest : Resumes rest) :
    IsFollowed t rest := by
  refine ⟨fun _ => hrest, fun _ => hrest, fun hk => ?_⟩
  rw [h] at hk
  cases kind <;> cases hk

/-- Between an operation that is so followed and the next there are no words. -/
theorem IsOp.resumes (h : IsOp ts op rest) (hmark : ∀ t ∈ ts, t.kind.isMark = false)
    (hfollowed : Everywhere IsFollowed ts) : Resumes rest := by
  cases h with
  | edit how ht hf value =>
    cases value with
    | quotation hq => exact hfollowed.head.quotation (by rw [ht]; cases how <;> rfl) _ _ rfl hq
    | run hq split =>
      have hsplit := resumes_splitValue (List.forall_mem_cons.1 hmark).2
      rwa [split] at hsplit
  | clear ht => exact hfollowed.head.clearing ht
  | tag kind ht => exact hfollowed.head.tag (by rw [ht]; cases kind <;> rfl)
  | added kind ht hu | removed kind ht hu => exact hfollowed.tail.head.tag (by rw [hu]; cases kind <;> rfl)

theorem IsOp.isFollowed (h : IsOp ts op rest) (hnext : Resumes rest)
    (hrest : Everywhere IsFollowed rest) : Everywhere IsFollowed ts := by
  cases h with
  | edit how ht hf value =>
    obtain ⟨used, hused, hplain⟩ := value.exists_plain
    have htail := everywhere_append (fun u hu rest => (hplain u hu).isFollowed rest) hrest
    rw [← hused] at htail
    refine everywhere_cons ⟨fun hk => ?_, fun hk => ?_, fun _ u us hts hq => ?_⟩ htail
    · rw [ht] at hk; cases how <;> cases hk
    · rw [ht] at hk; cases how <;> cases hk
    · subst hts
      have hafter := value.afterValue_eq
      rw [afterValue, List.head?_cons, Option.map_some, hq, if_pos rfl, List.tail_cons] at hafter
      rwa [hafter]
  | clear ht =>
    refine everywhere_cons ⟨fun _ => hnext, fun _ => hnext, fun hk => ?_⟩ hrest
    rw [ht] at hk
    cases hk
  | tag kind ht => exact everywhere_cons (isFollowed_of_tag ht hnext) hrest
  | added kind ht hu | removed kind ht hu =>
    refine everywhere_cons ((isPlain_of_sign (by simp [ht])).isFollowed _) ?_
    exact everywhere_cons (isFollowed_of_tag hu hnext) hrest

end Op

end Agenda
