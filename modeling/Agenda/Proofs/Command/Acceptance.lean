import Agenda.Proofs.Command.Partition
import Agenda.Proofs.Op.Extent
/-!
# Which lines create and update commands accept

A line asks for a create or update command by its verb or by the mode. Whether it makes one can be told from
its tokens, each looked at with those after it, without following the readers: `AcceptsCreate` and
`AcceptsUpdate` say what the tokens have to be.

Results: fine tokens are words and operations, and conversely (`exists_items`, `Items.isFine`); the words are
the tokens outside operations (`Items.words_eq`), and there are none when nothing but operations comes next
(`Items.words_eq_nil`, `Items.isFollowed`); when a target is read (`exists_readTarget_iff`);
`create_and_update_accept`.
-/
namespace Agenda.Command

open Lexer
open Op (begins Resumes IsFine IsFollowed IsOp)
open Token (Everywhere everywhere_nil everywhere_cons)

variable {s : Text} {eof : Position} {ts words rest : List Token} {ops : List Op} {t : Token}

/-! ## Words and operations -/

theorem length_splitValue_le (ts : List Token) : (Op.splitValue ts).2.length ≤ ts.length := by
  have hlength := Op.length_splitValue ts
  omega

theorem length_after_le (t : Token) (ts : List Token) : (Op.after (t :: ts)).length ≤ ts.length := by
  rw [Op.after, Op.afterValue]
  split
  · split
    · exact ts.length_tail ▸ Nat.sub_le _ _
    · exact length_splitValue_le ts
  · split
    · exact Nat.le_refl _
    · exact ts.length_tail ▸ Nat.sub_le _ _

def outside (ts : List Token) : List Token :=
  match ts with
  | [] => []
  | t :: rest => if begins (t :: rest) then outside (Op.after (t :: rest)) else t :: outside rest
termination_by ts.length
decreasing_by
  · exact Nat.lt_succ_of_le (length_after_le t rest)
  · exact Nat.lt_succ_self _

theorem outside_nil : outside [] = [] := by rw [outside]

theorem outside_of_begins (h : begins ts = true) : outside ts = outside (Op.after ts) := by
  cases ts with
  | nil => cases h
  | cons t ts => rw [outside, if_pos h]

theorem outside_cons (h : begins (t :: ts) = false) : outside (t :: ts) = t :: outside ts := by
  rw [outside, h, if_neg Bool.false_ne_true]

/-- The words among operations are the tokens outside these. -/
theorem Items.words_eq (h : Items eof ts words ops) : words = outside ts := by
  induction h with
  | nil => exact outside_nil.symm
  | op head _ ih =>
    have hop := Op.read_some_iff.1 head
    rw [outside_of_begins (Op.begins_of_isOp hop), hop.after_eq, ih]
  | word head _ ih => rw [outside_cons (Op.read_none_iff.1 head).2, ih]

/-- Fine tokens are words and operations. -/
theorem exists_items (eof : Position) (hts : ts <:+ (lex s).tokens) (hfine : Everywhere IsFine ts) :
    ∃ words ops, Items eof ts words ops := by
  induction ts using readItems.induct eof with
  | case1 => exact ⟨[], [], .nil⟩
  | case2 t ts e he => exact absurd he (Op.read_ne_error hts hfine e)
  | case3 t ts op rest hop ih =>
    have hsuffix := (Op.read_some_iff.1 hop).suffix
    obtain ⟨words, ops, items⟩ := ih (hsuffix.trans hts) (hfine.suffix hsuffix)
    exact ⟨words, op :: ops, .op hop items⟩
  | case4 t ts hop ih =>
    obtain ⟨words, ops, items⟩ := ih ((List.suffix_cons t ts).trans hts) hfine.tail
    exact ⟨t :: words, ops, .word hop items⟩

/-- Words and operations are of fine tokens. -/
theorem Items.isFine (h : Items eof ts words ops) (hopen : ∀ t ∈ ts, t.kind.isOpenString = false) :
    Everywhere IsFine ts := by
  induction h with
  | nil => exact everywhere_nil
  | op head _ ih =>
    have hop := Op.read_some_iff.1 head
    exact hop.isFine hopen (ih fun t ht => hopen t (hop.suffix.subset ht))
  | word head _ ih =>
    obtain ⟨hmark, hb⟩ := Op.read_none_iff.1 head
    obtain ⟨ht, hts⟩ := List.forall_mem_cons.1 hopen
    exact everywhere_cons (Op.IsPlain.isFine ⟨Op.startsOp_of_not_begins hb, hmark⟩ ht _) (ih hts)

/-! ## Operations alone -/

/-- Operations that begin at once and are each followed by one leave no words. -/
theorem Items.words_eq_nil (h : Items eof ts words ops) (hmark : ∀ t ∈ ts, t.kind.isMark = false)
    (hfollowed : Everywhere IsFollowed ts) (hnext : Resumes ts) : words = [] := by
  induction h with
  | nil => rfl
  | op head _ ih =>
    have hop := Op.read_some_iff.1 head
    exact ih (fun t ht => hmark t (hop.suffix.subset ht)) (hfollowed.suffix hop.suffix)
      (hop.resumes hmark hfollowed)
  | word head =>
    rcases hnext with hnil | hb
    · cases hnil
    · rw [(Op.read_none_iff.1 head).2] at hb; cases hb

/-- Without words an operation comes next or nothing. -/
theorem Items.resumes (h : Items eof ts [] ops) : Resumes ts := by
  cases h with
  | nil => exact Or.inl rfl
  | op head => exact Or.inr (Op.begins_of_isOp (Op.read_some_iff.1 head))

theorem Items.isFollowed (h : Items eof ts [] ops) : Everywhere IsFollowed ts := by
  generalize hw : ([] : List Token) = words at h
  induction h with
  | nil => exact everywhere_nil
  | op head tail ih =>
    subst hw
    exact (Op.read_some_iff.1 head).isFollowed tail.resumes (ih rfl)
  | word => cases hw

/-! ## Titles -/

def namesTitle (t : Token) : Bool := t.kind == .setField && Field.key t.text == Field.title.name

theorem namesTitle_eq_false (h : t.kind ≠ .setField) : namesTitle t = false := by
  rw [namesTitle, beq_eq_false_iff_ne.2 h, Bool.false_and]

theorem namesTitle_of_plain (h : Op.IsPlain t) : namesTitle t = false :=
  namesTitle_eq_false fun hk => by
    have hstart := h.1
    rw [hk] at hstart
    cases hstart

/-- An operation sets the title if one of its tokens is of that field. -/
theorem any_namesTitle_of_isOp {op : Op} (h : IsOp ts op rest) :
    ts.any namesTitle = (setsTitle op || rest.any namesTitle) := by
  cases h with
  | @edit how t ts rest f v ht hf value =>
    obtain ⟨used, rfl, hplain⟩ := value.exists_plain
    have hused : used.any namesTitle = false :=
      List.any_eq_false.2 fun u hu => by rw [namesTitle_of_plain (hplain u hu)]; decide
    rw [List.any_cons, List.any_append, hused, Bool.false_or, namesTitle, ht, Op.fieldOf_ok_iff.1 hf]
    cases how <;> cases f <;> rfl
  | clear ht => rw [List.any_cons, namesTitle_eq_false (by rw [ht]; decide)]; rfl
  | tag kind ht => rw [List.any_cons, namesTitle_eq_false (by rw [ht]; cases kind <;> decide)]; rfl
  | added kind ht hu | removed kind ht hu =>
    rw [List.any_cons, List.any_cons, namesTitle_eq_false (by rw [ht]; decide),
      namesTitle_eq_false (by rw [hu]; cases kind <;> decide)]
    cases kind <;> rfl

theorem Items.any_setsTitle (h : Items eof ts words ops) : ops.any setsTitle = ts.any namesTitle := by
  induction h with
  | nil => rfl
  | op head _ ih => rw [List.any_cons, ih, any_namesTitle_of_isOp (Op.read_some_iff.1 head)]
  | word head _ ih =>
    obtain ⟨hmark, hb⟩ := Op.read_none_iff.1 head
    rw [List.any_cons, namesTitle_of_plain ⟨Op.startsOp_of_not_begins hb, hmark⟩, Bool.false_or, ih]

/-! ## Targets -/

/-- The token names the target of an update. -/
inductive NamesTarget (t : Token) : Prop where
  /-- A hash and a number of sixty-four bits. -/
  | number {n : Nat} (ht : t.kind = .hashNumber) (hn : Text.readNat? t.text.tail = some n)
      (bound : n < Text.wordBound)
  /-- A number of sixty-four bits. -/
  | digits {n : Nat} (ht : t.kind = .ident) (hn : Text.readNat? t.text = some n)
      (bound : n < Text.wordBound)
  /-- A word for the selected task. -/
  | selected (ht : t.kind = .ident) (hw : selectedWords.contains (Text.asciiLower t.text) = true)

theorem exists_readId_iff {digits : Text} (h : digits.all Char.isDigit = true) :
    (∃ out, readId t digits ts = .ok out) ↔ ∃ n, Text.readNat? digits = some n ∧ n < Text.wordBound := by
  simp only [← Text.readWord?_eq_some_iff h]
  unfold readId
  cases Text.readWord? digits <;> simp

theorem exists_readTarget_of_number {digits : Text} (ht : t.kind = .hashNumber)
    (hcut : t.afterSigil? = some digits) (hdigits : t.text.tail.all Char.isDigit = true) :
    (∃ out, readTarget (t :: ts) = .ok out) ↔ NamesTarget t := by
  have htail : digits = t.text.tail := by
    obtain ⟨c, -, htext⟩ := Token.afterSigil?_eq_some_iff.1 hcut
    rw [htext, List.tail_cons]
  simp only [readTarget, ht, hcut, htail]
  rw [exists_readId_iff hdigits]
  constructor
  · rintro ⟨n, hn, bound⟩
    exact .number ht hn bound
  · intro h
    cases h with
    | number _ hn bound => exact ⟨_, hn, bound⟩
    | digits hk | selected hk => rw [ht] at hk; cases hk

theorem exists_readTarget_of_ident (ht : t.kind = .ident) :
    (∃ out, readTarget (t :: ts) = .ok out) ↔ NamesTarget t := by
  simp only [readTarget, ht]
  split
  · next hw => exact iff_of_true ⟨_, rfl⟩ (.selected ht hw)
  · next hw =>
    split
    · next hdigits =>
      rw [exists_readId_iff hdigits]
      constructor
      · rintro ⟨n, hn, bound⟩
        exact .digits ht hn bound
      · intro h
        cases h with
        | number hk => rw [ht] at hk; cases hk
        | digits _ hn bound => exact ⟨_, hn, bound⟩
        | selected _ hs => exact absurd hs hw
    · next hdigits =>
      refine iff_of_false (by rintro ⟨out, hout⟩; cases hout) fun h => ?_
      cases h with
      | number hk => rw [ht] at hk; cases hk
      | digits _ hn => exact hdigits (Text.readNat?_eq_some_iff.1 hn).1.2
      | selected _ hs => exact hw hs

theorem exists_readTarget_of_other (hnumber : t.kind ≠ .hashNumber) (hident : t.kind ≠ .ident) :
    (∃ out, readTarget (t :: ts) = .ok out) ↔ begins (t :: ts) = true := by
  rw [readTarget]
  split
  · next hk => exact absurd hk hnumber
  · next hk => exact absurd hk hident
  · split
    · next hb => exact iff_of_true ⟨_, rfl⟩ hb
    · next hb => exact iff_of_false (by rintro ⟨out, hout⟩; cases hout) hb

theorem NamesTarget.kind_eq (h : NamesTarget t) : t.kind = .hashNumber ∨ t.kind = .ident := by
  cases h with
  | number ht => exact Or.inl ht
  | digits ht | selected ht => exact Or.inr ht

/-- The tokens begin with a target, or leave it out. -/
def IsTargeted (ts : List Token) : Prop :=
  ∀ t rest, ts = t :: rest → NamesTarget t ∨ begins (t :: rest) = true

theorem isTargeted_cons : IsTargeted (t :: ts) ↔ NamesTarget t ∨ begins (t :: ts) = true :=
  ⟨fun h => h t ts rfl, fun h u rest hu => by cases hu; exact h⟩

/-- A target is read when the first token names one or an operation begins at once. -/
theorem exists_readTarget_iff (hts : ts <:+ (lex s).tokens) :
    (∃ out, readTarget ts = .ok out) ↔ IsTargeted ts := by
  cases ts with
  | nil => exact iff_of_true ⟨_, rfl⟩ fun t rest h => by cases h
  | cons t ts =>
    rw [isTargeted_cons]
    by_cases hword : t.kind = .hashNumber ∨ t.kind = .ident
    · rw [begins_of_word ts hword, or_iff_left Bool.false_ne_true]
      rcases hword with ht | ht
      · have hmem := hts.subset List.mem_cons_self
        obtain ⟨digits, hcut⟩ := exists_afterSigil_of_mem_lex hmem (by rw [ht]; rfl)
        exact exists_readTarget_of_number ht hcut (digits_of_mem_tokens hmem ht)
      · exact exists_readTarget_of_ident ht
    · obtain ⟨hnumber, hident⟩ := not_or.1 hword
      rw [exists_readTarget_of_other hnumber hident, or_iff_right fun h => hword h.kind_eq]

/-! ## The verb and the target -/

/-- The tokens without one in front that may be a verb or a target, or all of them. -/
def Skips (ts rest : List Token) : Prop :=
  ts = rest ∨ ∃ t, (t.kind = .hashNumber ∨ t.kind = .ident) ∧ ts = t :: rest

theorem isPlain_of_word (h : t.kind = .hashNumber ∨ t.kind = .ident) : Op.IsPlain t := by
  rcases h with h | h <;> rw [Op.IsPlain, h] <;> exact ⟨rfl, rfl⟩

theorem skips_afterVerb (ts : List Token) : Skips ts (afterVerb ts) := by
  unfold afterVerb
  split
  · next hverb =>
    cases ts with
    | nil => exact Or.inl rfl
    | cons t ts =>
      rw [leadingVerb] at hverb
      split at hverb
      · next ht => exact Or.inr ⟨t, Or.inr ht, rfl⟩
      · cases hverb
  · exact Or.inl rfl

theorem skips_afterTarget (h : IsTargeted ts) : Skips ts (afterTarget ts) := by
  unfold afterTarget
  split
  · exact Or.inl rfl
  · next hb =>
    cases ts with
    | nil => exact Or.inl rfl
    | cons t ts =>
      rcases isTargeted_cons.1 h with ht | ht
      · exact Or.inr ⟨t, ht.kind_eq, rfl⟩
      · exact absurd ht hb

theorem Skips.suffix (h : Skips ts rest) : rest <:+ ts := by
  rcases h with rfl | ⟨t, -, rfl⟩
  · exact List.suffix_rfl
  · exact List.suffix_cons t rest

theorem Skips.isFine (h : Skips ts rest) (hrest : Everywhere IsFine rest) : Everywhere IsFine ts := by
  rcases h with rfl | ⟨t, ht, rfl⟩
  · exact hrest
  · refine everywhere_cons ((isPlain_of_word ht).isFine ?_ _) hrest
    rcases ht with ht | ht <;> rw [ht] <;> rfl

theorem Skips.isFollowed (h : Skips ts rest) (hrest : Everywhere IsFollowed rest) :
    Everywhere IsFollowed ts := by
  rcases h with rfl | ⟨t, ht, rfl⟩
  · exact hrest
  · exact everywhere_cons ((isPlain_of_word ht).isFollowed _) hrest

theorem Skips.any_namesTitle (h : Skips ts rest) : ts.any namesTitle = rest.any namesTitle := by
  rcases h with rfl | ⟨t, ht, rfl⟩
  · rfl
  · rw [List.any_cons, namesTitle_of_plain (isPlain_of_word ht), Bool.false_or]

/-! ## Commands -/

structure AcceptsCreate (ts : List Token) : Prop where
  fine : Everywhere IsFine ts
  /-- There is text outside the verb and the operations, or a title is set. -/
  titled : ValueRun.join (outside (afterVerb ts)) ≠ [] ∨ ts.any namesTitle = true

structure AcceptsUpdate (ts : List Token) : Prop where
  fine : Everywhere IsFine ts
  /-- The first token after the verb names the target, or an operation begins there. -/
  targeted : IsTargeted (afterVerb ts)
  /-- Nothing but operations comes after the target. -/
  resumed : Resumes (afterTarget (afterVerb ts))
  followed : Everywhere IsFollowed ts

section
variable {whole : List Token}

theorem exists_create_iff (hts : ts <:+ (lex s).tokens) (hopen : ∀ t ∈ ts, t.kind.isOpenString = false) :
    (∃ c, Makes eof whole .create (afterVerb ts) c) ↔ AcceptsCreate ts := by
  have hskips := skips_afterVerb ts
  constructor
  · rintro ⟨c, h⟩
    cases h with
    | create items titled =>
      refine ⟨hskips.isFine (items.isFine fun t ht => hopen t (hskips.suffix.subset ht)), ?_⟩
      rw [hskips.any_namesTitle, ← items.any_setsTitle, ← items.words_eq]
      exact (em _).symm.imp_right titled
  · rintro ⟨fine, titled⟩
    obtain ⟨words, ops, items⟩ :=
      exists_items eof (hskips.suffix.trans hts) (fine.suffix hskips.suffix)
    rw [hskips.any_namesTitle, ← items.any_setsTitle, ← items.words_eq] at titled
    exact ⟨_, .create items fun hempty => titled.resolve_left fun hne => hne hempty⟩

theorem exists_update_iff (hts : ts <:+ (lex s).tokens) (hopen : ∀ t ∈ ts, t.kind.isOpenString = false) :
    (∃ c, Makes eof whole .update (afterVerb ts) c) ↔ AcceptsUpdate ts := by
  have hskips := skips_afterVerb ts
  have hsuffix : afterVerb ts <:+ (lex s).tokens := hskips.suffix.trans hts
  constructor
  · rintro ⟨c, h⟩
    cases h with
    | @update _ rest target ops htarget items =>
      have htargeted : IsTargeted (afterVerb ts) := (exists_readTarget_iff hsuffix).1 ⟨_, htarget⟩
      have hafter := skips_afterTarget htargeted
      obtain rfl := afterTarget_of_readTarget htarget
      exact {
        fine := hskips.isFine (hafter.isFine
          (items.isFine fun t ht => hopen t (hskips.suffix.subset (hafter.suffix.subset ht))))
        targeted := htargeted
        resumed := items.resumes
        followed := hskips.isFollowed (hafter.isFollowed items.isFollowed) }
  · rintro ⟨fine, targeted, resumed, followed⟩
    obtain ⟨⟨target, rest⟩, htarget⟩ := (exists_readTarget_iff hsuffix).2 targeted
    obtain rfl := afterTarget_of_readTarget htarget
    have hrest := (skips_afterTarget targeted).suffix
    have hfine := (fine.suffix hskips.suffix).suffix hrest
    obtain ⟨words, ops, items⟩ := exists_items eof (hrest.trans hsuffix) hfine
    have hmark : ∀ t ∈ afterTarget (afterVerb ts), t.kind.isMark = false :=
      hfine.forall_mem fun _ _ ht => ht.named
    -- fine tokens are words and operations, and these are so followed that no word is left
    obtain rfl := items.words_eq_nil hmark ((followed.suffix hskips.suffix).suffix hrest) resumed
    exact ⟨_, .update htarget items⟩

end

/-- A line that asks for a command makes one when the tokens after the verb do. -/
theorem isSome_command_iff {mode : Mode} {now : Timestamp} {i : Intent} (hlex : (lex s).failure = none)
    (hi : (leadingVerb (lex s).tokens).or mode.intent? = some i) :
    (Reading.ofLine mode now s).1.command.isSome = true ↔
      (∀ t ∈ (lex s).tokens, t.kind.isOpenString = false) ∧
        ∃ c, Makes (Token.endOf (lex s).tokens) (lex s).tokens i (afterVerb (lex s).tokens) c := by
  simp only [Option.isSome_iff_exists, Reading.command_ofLine_eq_some_iff, Reading.commandOf_ok_iff]
  constructor
  · rintro ⟨c, -, hopen, j, hj, hmakes⟩
    rw [hi] at hj
    cases hj
    exact ⟨hopen, c, hmakes⟩
  · rintro ⟨hopen, c, hmakes⟩
    exact ⟨c, hlex, hopen, i, hi, hmakes⟩

/-- Of the lines that the lexer takes and that ask for a create or an update command, by verb or by mode,
those whose tokens are acceptable, and no others, make one. -/
theorem create_and_update_accept (mode : Mode) (now : Timestamp) (input : Text)
    (hlex : (lex input).failure = none) :
    ((leadingVerb (lex input).tokens).or mode.intent? = some .create →
      ((Reading.ofLine mode now input).1.command.isSome = true ↔ AcceptsCreate (lex input).tokens)) ∧
    ((leadingVerb (lex input).tokens).or mode.intent? = some .update →
      ((Reading.ofLine mode now input).1.command.isSome = true ↔ AcceptsUpdate (lex input).tokens)) := by
  have hclosed (hfine : Everywhere IsFine (lex input).tokens) :
      ∀ t ∈ (lex input).tokens, t.kind.isOpenString = false := hfine.forall_mem fun _ _ ht => ht.closed
  refine ⟨fun hi => ?_, fun hi => ?_⟩ <;> rw [isSome_command_iff hlex hi] <;> constructor
  · rintro ⟨hopen, h⟩
    exact (exists_create_iff List.suffix_rfl hopen).1 h
  · intro h
    exact ⟨hclosed h.fine, (exists_create_iff List.suffix_rfl (hclosed h.fine)).2 h⟩
  · rintro ⟨hopen, h⟩
    exact (exists_update_iff List.suffix_rfl hopen).1 h
  · intro h
    exact ⟨hclosed h.fine, (exists_update_iff List.suffix_rfl (hclosed h.fine)).2 h⟩

/-- A plus sign apart from its tag is a word of the title, and a word after a quotation stops an update. -/
theorem create_and_update_accept_lines :
    let create := "add + #home notes:a:b".toList
    let update := "it notes:\"a\" b".toList
    ((lex create).failure = none ∧ AcceptsCreate (lex create).tokens) ∧
      (lex update).failure = none ∧ ¬ AcceptsUpdate (lex update).tokens := by
  intro create update
  let now : Timestamp := ⟨⟨2025, 3, 9, by decide, by decide, by decide, by decide⟩, 12, 0, 0, 0, 0⟩
  have hcreate : (lex create).failure = none := by decide +kernel
  have hupdate : (lex update).failure = none := by decide +kernel
  have hmade : (Reading.ofLine .auto now create).1.command.isSome = true := by decide +kernel
  have hnone : ¬ (Reading.ofLine (.only .update) now update).1.command.isSome = true := by decide +kernel
  have hverb : (leadingVerb (lex create).tokens).or Mode.auto.intent? = some .create := by decide +kernel
  have hmode : (leadingVerb (lex update).tokens).or (Mode.only .update).intent? = some .update := by
    decide +kernel
  refine ⟨⟨hcreate, ((create_and_update_accept .auto now create hcreate).1 hverb).1 hmade⟩, hupdate, ?_⟩
  exact fun h => hnone (((create_and_update_accept (.only .update) now update hupdate).2 hmode).2 h)

end Agenda.Command
