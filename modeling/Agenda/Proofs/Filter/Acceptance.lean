import Agenda.Filter.Outcome
import Agenda.Proofs.Command.Reading
import Agenda.Proofs.Filter.Grammar
import Agenda.Proofs.Span
import Mathlib.Data.List.TakeWhile
/-!
# The filter reader accepts its grammar

With one equation for the outcome of each reader (`Agenda/Filter/Outcome`) the two directions are:

* `reads_of_derives`: what the grammar derives is read, by induction on the derivation;
* `derives_of_read`: what is read is derived, by induction on the number of tokens.

Results: a filter command is accepted with exactly the filters that the tokens after the verb derive
(`readFilter_ok_iff_derives`), and with it the reading of a whole line
(`accepts_iff_derives`).
-/
namespace Agenda.Filter

open GrammarSymbol

/-! ## Values -/

theorem isDelimiter_of_quoted {t : Token} (h : t.kind = .quoted) : isDelimiter t = false := by
  simp [isDelimiter, Token.isWord, h]

theorem readRun_append (eof : Position) {t : Token} {ts rest : List Token}
    (inside : ∀ u ∈ t :: ts, isDelimiter u = false) (stops : Stops rest) :
    readRun eof (t :: ts ++ rest)
      = ((ValueRun.join (t :: ts), t.span.cover (ts.getLastD t).span), rest) := by
  have hin : ∀ u ∈ t :: ts, (!isDelimiter u) = true := fun u hu => by simp [inside u hu]
  have htake : (t :: ts ++ rest).takeWhile (fun u => !isDelimiter u) = t :: ts := by
    rw [List.takeWhile_append_of_pos hin]
    cases rest with
    | nil => simp
    | cons u us => simp [stops u rfl]
  have hdrop : (t :: ts ++ rest).dropWhile (fun u => !isDelimiter u) = rest := by
    rw [List.dropWhile_append_of_pos hin]
    cases rest with
    | nil => rfl
    | cons u us => simp [stops u rfl]
  simp only [readRun, htake, hdrop, Token.spanBetween_append]

/-- A value is what the reader takes, where the tokens do not begin with a delimiter. -/
theorem isValue_cons_iff (eof : Position) {t : Token} {ts rest : List Token} {s : Text}
    {span : Span} :
    IsValue (t :: ts) s span rest
      ↔ isDelimiter t = false ∧ readValue eof (t :: ts) = ((s, span), rest) := by
  constructor
  · generalize hw : t :: ts = whole
    rintro (@⟨u, _, hq⟩ | @⟨u, us, _, hq, inside, stops⟩)
    · cases hw
      exact ⟨isDelimiter_of_quoted hq, by simp [readValue, hq]⟩
    · have hu := inside u (by simp)
      cases hw
      refine ⟨hu, ?_⟩
      rw [List.cons_append, readValue, if_neg hq, ← List.cons_append, readRun_append eof inside stops]
  · intro h
    obtain ⟨ht, h⟩ := h
    by_cases hq : t.kind = .quoted
    · simp only [readValue, hq, if_true] at h
      cases h
      exact .quotation hq
    · have hsplit := List.takeWhile_append_dropWhile (p := fun u => !isDelimiter u) (l := ts)
      have inside : ∀ u ∈ t :: ts.takeWhile (fun u => !isDelimiter u), isDelimiter u = false := by
        intro u hu
        rcases List.mem_cons.1 hu with rfl | hu
        · exact ht
        · simpa using List.mem_takeWhile_imp hu
      have stops : Stops (ts.dropWhile fun u => !isDelimiter u) := by
        intro u hu
        have := List.head?_dropWhile_not (fun u => !isDelimiter u) ts
        rw [hu] at this
        simpa using this
      rw [readValue, if_neg hq, ← hsplit, ← List.cons_append, readRun_append eof inside stops] at h
      cases h
      have := IsValue.run hq inside stops
      rwa [List.cons_append, hsplit] at this

theorem isValue_nil {rest : List Token} {s : Text} {span : Span} : ¬ IsValue [] s span rest := by
  generalize hw : ([] : List Token) = whole
  rintro (_ | _) <;> cases hw

/-- The predicate of a field is what the reader takes: no value begins with a delimiter or at the
end, and there the reader finds nothing but the blank value. -/
theorem isFieldValue_iff {eof : Position} {t : Token} {ts rest : List Token} {p : Filter} :
    IsFieldValue t ts p rest ↔ readField eof t ts = .ok (p, rest) := by
  constructor
  · intro h
    obtain ⟨value, hb⟩ := h
    cases ts with
    | nil => exact absurd value isValue_nil
    | cons u us => simp only [readField, ((isValue_cons_iff eof).1 value).2, if_neg hb]
  · intro h
    unfold readField at h
    rcases hv : readValue eof ts with ⟨⟨s, span⟩, rest'⟩
    simp only [hv] at h
    split at h
    · cases h
    · next hb =>
      cases h
      refine .intro ?_ hb
      cases ts with
      | nil => simp only [readValue, readRun, List.takeWhile_nil] at hv; cases hv; exact absurd rfl hb
      | cons u us =>
        refine (isValue_cons_iff eof).2 ⟨?_, hv⟩
        -- a value that begins with a delimiter would be empty, hence blank
        by_contra hu
        have hd : isDelimiter u = true := by simpa using hu
        have hq : u.kind ≠ .quoted := fun hq => hu (isDelimiter_of_quoted hq)
        simp only [readValue, if_neg hq, readRun, List.takeWhile_cons, hd] at hv
        cases hv
        exact hb rfl

/-! ## Terms -/

theorem isAnd_of_isOr {t : Token} (h : isOr t = true) : isAnd t = false := by
  simp only [isOr, isAnd, Token.isWord, Bool.or_eq_true, Bool.and_eq_true, beq_iff_eq] at *
  rcases h with h | ⟨hk, hw⟩
  · simp [h]
  · simp only [Text.sameWord, beq_iff_eq] at *
    rw [hk, hw]; decide

theorem isDelimiter_of_isNot {t : Token} (h : isNot t = true) :
    t.kind = .clearOp ∨ isDelimiter t = true := by
  simp only [isNot, isDelimiter, Bool.or_eq_true, beq_iff_eq] at *
  exact h.imp_right Or.inr

/-- A value by itself is read where nothing else begins. -/
theorem outcome_readTerm_text (eof : Position) {t : Token} (ts : List Token)
    (hb : beginsOther t ts = false) (hd : isDelimiter t = false) :
    outcome (readTerm eof t ts)
      = .ok (predicate .text (readValue eof (t :: ts)).1.1 (readValue eof (t :: ts)).1.2,
          (readValue eof (t :: ts)).2) := by
  simp only [beginsOther, TokenKind.isMark, TokenKind.isTag] at hb
  rw [readTerm]
  cases hk : t.kind <;> simp_all [outcome, Except.map]

theorem not_atClearing_of_text {t : Token} {ts : List Token} (hb : beginsOther t ts = false) :
    ¬ AtClearing t ts := by
  intro h
  obtain ⟨hk, hc⟩ := h
  simp [beginsOther, hk, hc] at hb

theorem isNot_of_text {t : Token} {ts : List Token} (hb : beginsOther t ts = false)
    (hd : isDelimiter t = false) : isNot t = false := by
  cases h : isNot t with
  | false => rfl
  | true =>
    rcases isDelimiter_of_isNot h with hk | hk
    · simp [beginsOther, hk] at hb
    · rw [hd] at hk; cases hk

/-- The kinds with which a term begins that is neither a negation nor a value by itself. -/
theorem not_negation_of_kind {t : Token} (ts : List Token)
    (hk : t.kind = .leftParen ∨ t.kind = .projectTag ∨ t.kind = .contextTag ∨ t.kind = .setField) :
    ¬ AtClearing t ts ∧ isNot t = false := by
  rcases hk with h | h | h | h <;> simp [AtClearing, isNot, Token.isWord, h]

/-! ## What the grammar derives is read -/

/-- What a derivation says about the reader of its symbol. After a chain the reader would go on with
the operator of the chain, and after alternatives with that of their terms as well. -/
def Reads (eof : Position) : GrammarSymbol → List Token → Filter → List Token → Prop
  | orExpr, ts, e, rest =>
    NotAt isAnd rest → outcome (readOr eof ts) = outcome (readOrTail eof e rest)
  | andExpr, ts, e, rest => outcome (readAnd eof ts) = outcome (readAndTail eof e rest)
  | notExpr, ts, e, rest => outcome (readNot eof ts) = .ok (e, rest)
  | atom, ts, e, rest => outcome (readNot eof ts) = .ok (e, rest)

theorem reads_of_derives (eof : Position) {s : GrammarSymbol} {ts rest : List Token} {e : Filter}
    (h : Derives s ts e rest) : Reads eof s ts e rest := by
  induction h with
  | alternative _ ih =>
    intro hrest
    rw [outcome_readOr, ih, outcome_readAndTail_stop eof _ hrest, andThen_ok]
  | or _ ht _ ihl ihr =>
    intro hrest
    rw [ihl (notAt_cons _ (isAnd_of_isOr ht)), outcome_readOrTail_cons eof _ _ ht, ihr,
      outcome_readAndTail_stop eof _ hrest, andThen_ok]
  | term _ ih => rw [Reads, outcome_readAnd, ih, andThen_ok]
  | and _ ht _ ihl ihr =>
    rw [Reads, ihl, outcome_readAndTail_cons eof _ _ ht, ihr, andThen_ok]
  | @not t ts _ _ ht _ ih =>
    have hc : ¬ AtClearing t ts := by
      intro h
      obtain ⟨hk, -⟩ := h
      simp [isNot, Token.isWord, hk] at ht
    rw [Reads, outcome_readNot_not eof _ hc ht, ih, andThen_ok]
  | clearing ht hu hp =>
    rw [Reads, outcome_readNot_clearing eof _ ht hu, isFieldValue_iff.1 hp, andThen_ok]
  | plain _ ih => exact ih
  | @group t u ts _ _ ht _ hu ih =>
    obtain ⟨hc, hn⟩ := not_negation_of_kind ts (Or.inl ht)
    have hor : isOr u = false := by simp [isOr, Token.isWord, hu]
    have hand : isAnd u = false := by simp [isAnd, Token.isWord, hu]
    rw [Reads, outcome_readNot_plain eof _ hc hn, outcome_readTerm_group eof _ ht,
      ih (notAt_cons _ hand), outcome_readOrTail_stop eof _ (notAt_cons _ hor), andThen_ok]
    simp [hu]
  | @project t rest name ht hname =>
    obtain ⟨hc, hn⟩ := not_negation_of_kind rest (Or.inr (Or.inl ht))
    rw [Reads, outcome_readNot_plain eof _ hc hn, readTerm, ht]
    simp only [hname]
    rfl
  | @context t rest name ht hname =>
    obtain ⟨hc, hn⟩ := not_negation_of_kind rest (Or.inr (Or.inr (Or.inl ht)))
    rw [Reads, outcome_readNot_plain eof _ hc hn, readTerm, ht]
    simp only [hname]
    rfl
  | @field t ts _ _ ht hp =>
    obtain ⟨hc, hn⟩ := not_negation_of_kind ts (Or.inr (Or.inr (Or.inr ht)))
    rw [Reads, outcome_readNot_plain eof _ hc hn, outcome_readTerm_field eof _ ht,
      isFieldValue_iff.1 hp]
  | @text t ts _ _ _ value hb =>
    obtain ⟨hd, hv⟩ := (isValue_cons_iff eof).1 value
    rw [Reads, outcome_readNot_plain eof _ (not_atClearing_of_text hb) (isNot_of_text hb hd),
      outcome_readTerm_text eof _ hb hd, hv]

/-! ## What is read, the grammar derives -/

theorem outcome_readTerm_delimiter (eof : Position) {t : Token} (ts : List Token)
    (hb : beginsOther t ts = false) (hd : isDelimiter t = true) :
    outcome (readTerm eof t ts)
      = .error (.at t (.unexpectedToken t.text .filterTerm) (t :: ts)) := by
  simp only [beginsOther, TokenKind.isMark, TokenKind.isTag] at hb
  rw [readTerm]
  cases hk : t.kind <;> simp_all [outcome, Except.map]

theorem kind_of_beginsOther {t : Token} {ts : List Token} (hb : beginsOther t ts = true)
    (hc : ¬ AtClearing t ts) (hn : isNot t = false) :
    t.kind = .leftParen ∨ t.kind.isMark = true ∨ t.kind = .projectTag ∨ t.kind = .contextTag
      ∨ t.kind = .setField := by
  simp only [beginsOther, AtClearing, isNot, Token.isWord, TokenKind.isTag] at *
  cases hk : t.kind <;> simp_all

section
variable (eof : Position)

/-- What the term reader finds, where no negation begins, the grammar derives, provided that it does
for the filter in parentheses. -/
theorem derives_of_readTerm {t : Token} {ts rest : List Token} {e : Filter}
    (hor : ∀ e rest, outcome (readOr eof ts) = .ok (e, rest) → Derives orExpr ts e rest)
    (hc : ¬ AtClearing t ts) (hn : isNot t = false)
    (h : outcome (readTerm eof t ts) = .ok (e, rest)) : Derives atom (t :: ts) e rest := by
  cases hb : beginsOther t ts with
  | false =>
    cases hd : isDelimiter t with
    | true => rw [outcome_readTerm_delimiter eof ts hb hd] at h; cases h
    | false =>
      rw [outcome_readTerm_text eof ts hb hd] at h
      cases h
      exact .text ((isValue_cons_iff eof).2 ⟨hd, rfl⟩) hb
  | true =>
    rcases kind_of_beginsOther hb hc hn with hk | hk | hk | hk | hk
    · rw [outcome_readTerm_group eof ts hk] at h
      obtain ⟨e', mid, he, hm⟩ := ok_of_andThen h
      rcases mid with _ | ⟨u, mid⟩
      · cases hm
      · simp only at hm
        split at hm
        · next hu => cases hm; exact .group hk (hor _ _ he) hu
        · cases hm
    · rw [readTerm] at h
      cases ht : t.kind <;> simp [ht, TokenKind.isMark] at hk <;> simp [ht, outcome, Except.map] at h
    · rw [readTerm, hk] at h
      simp only at h
      split at h
      · next hname => cases h; exact .project hk hname
      · cases h
    · rw [readTerm, hk] at h
      simp only at h
      split at h
      · next hname => cases h; exact .context hk hname
      · cases h
    · rw [outcome_readTerm_field eof ts hk] at h
      exact .field hk (isFieldValue_iff.2 h)

theorem derives_of_readNot {ts rest : List Token} {e : Filter}
    (hor : ∀ us, us.length < ts.length → ∀ e rest,
      outcome (readOr eof us) = .ok (e, rest) → Derives orExpr us e rest)
    (hnot : ∀ us, us.length < ts.length → ∀ e rest,
      outcome (readNot eof us) = .ok (e, rest) → Derives notExpr us e rest)
    (h : outcome (readNot eof ts) = .ok (e, rest)) : Derives notExpr ts e rest := by
  cases ts with
  | nil => rw [readNot] at h; cases h
  | cons t ts =>
    by_cases hc : AtClearing t ts
    · obtain ⟨ht, hu⟩ := hc
      cases ts with
      | nil => simp at hu
      | cons u us =>
        have hu : u.kind = .colon := by simpa using hu
        rw [outcome_readNot_clearing eof us ht hu] at h
        obtain ⟨p, rest', hp, hr⟩ := ok_of_andThen h
        cases hr
        exact .clearing ht hu (isFieldValue_iff.2 hp)
    · cases hn : isNot t with
      | true =>
        rw [outcome_readNot_not eof ts hc hn] at h
        obtain ⟨e', rest', he, hr⟩ := ok_of_andThen h
        cases hr
        exact .not hn (hnot ts (by simp) _ _ he)
      | false =>
        rw [outcome_readNot_plain eof ts hc hn] at h
        exact .plain (derives_of_readTerm eof (hor ts (by simp)) hc hn h)

/-- Operands with operators between them are derived, to the left, when the operands are: the reader of
the tail goes on as long as there is an operator, and each operand takes tokens. -/
theorem derives_of_chain {s o : GrammarSymbol} {op : BoolOp} {isOp : Token → Bool}
    {operand : List Token → Parsed Filter} {tail : Filter → List Token → Parsed Filter}
    (stop : ∀ l mid, NotAt isOp mid → tail l mid = .ok (l, mid))
    (next : ∀ l t mid, isOp t = true →
      tail l (t :: mid) = andThen (operand mid) fun r rest => tail (combine op l r) rest)
    (shorter : ∀ mid r rest, operand mid = .ok (r, rest) → rest.length < mid.length)
    (single : ∀ ts e rest, Derives o ts e rest → Derives s ts e rest)
    (more : ∀ ts l t mid r rest, Derives s ts l (t :: mid) → isOp t = true →
      Derives o mid r rest → Derives s ts (combine op l r) rest)
    {ts rest : List Token} {e : Filter}
    (hoperand : ∀ us, us.length ≤ ts.length → ∀ e rest,
      operand us = .ok (e, rest) → Derives o us e rest)
    (h : andThen (operand ts) tail = .ok (e, rest)) : Derives s ts e rest := by
  have htail : ∀ n mid l, mid.length = n → mid.length ≤ ts.length → Derives s ts l mid →
      tail l mid = .ok (e, rest) → Derives s ts e rest := by
    intro n
    induction n using Nat.strongRecOn with
    | ind n ih =>
      intro mid l hn hle hl hm
      cases mid with
      | nil => rw [stop _ _ (notAt_nil _)] at hm; cases hm; exact hl
      | cons t mid =>
        cases ht : isOp t with
        | false => rw [stop _ _ (notAt_cons _ ht)] at hm; cases hm; exact hl
        | true =>
          rw [next _ _ _ ht] at hm
          obtain ⟨r, mid', hr, hm'⟩ := ok_of_andThen hm
          have hlen := shorter _ _ _ hr
          simp only [List.length_cons] at hn hle
          have hr' := hoperand mid (by omega) _ _ hr
          exact ih mid'.length (by omega) mid' _ rfl (by omega) (more _ _ _ _ _ _ hl ht hr') hm'
  obtain ⟨l, mid, hl, hm⟩ := ok_of_andThen h
  have hlen := shorter _ _ _ hl
  exact htail mid.length mid l rfl (by omega) (single _ _ _ (hoperand ts (Nat.le_refl _) _ _ hl)) hm

theorem derives_of_readAnd {ts rest : List Token} {e : Filter}
    (hnot : ∀ us, us.length ≤ ts.length → ∀ e rest,
      outcome (readNot eof us) = .ok (e, rest) → Derives notExpr us e rest)
    (h : outcome (readAnd eof ts) = .ok (e, rest)) : Derives andExpr ts e rest := by
  rw [outcome_readAnd] at h
  exact derives_of_chain (fun l _ => outcome_readAndTail_stop eof l)
    (fun l _ mid => outcome_readAndTail_cons eof l mid) (fun _ _ _ hr => prop_of_outcome hr)
    (fun _ _ _ => .term) (fun _ _ _ _ _ _ => .and) hnot h

theorem derives_of_readOr {ts rest : List Token} {e : Filter}
    (hand : ∀ us, us.length ≤ ts.length → ∀ e rest,
      outcome (readAnd eof us) = .ok (e, rest) → Derives andExpr us e rest)
    (h : outcome (readOr eof ts) = .ok (e, rest)) : Derives orExpr ts e rest := by
  rw [outcome_readOr] at h
  exact derives_of_chain (fun l _ => outcome_readOrTail_stop eof l)
    (fun l _ mid => outcome_readOrTail_cons eof l mid) (fun _ _ _ hr => prop_of_outcome hr)
    (fun _ _ _ => .alternative) (fun _ _ _ _ _ _ => .or) hand h

/-- What is read, the grammar derives: by induction on the number of tokens, which falls below
parentheses, negations and operators. -/
theorem derives_of_read (n : Nat) : ∀ ts, ts.length = n →
    (∀ e rest, outcome (readNot eof ts) = .ok (e, rest) → Derives notExpr ts e rest) ∧
    (∀ e rest, outcome (readAnd eof ts) = .ok (e, rest) → Derives andExpr ts e rest) ∧
    (∀ e rest, outcome (readOr eof ts) = .ok (e, rest) → Derives orExpr ts e rest) := by
  induction n using Nat.strongRecOn with
  | ind n ih =>
    intro ts hn
    have hnot : ∀ us, us.length ≤ n → ∀ e rest,
        outcome (readNot eof us) = .ok (e, rest) → Derives notExpr us e rest := fun us hu e rest =>
      derives_of_readNot eof (fun vs hv => (ih vs.length (by omega) vs rfl).2.2)
        (fun vs hv => (ih vs.length (by omega) vs rfl).1)
    have hand : ∀ us, us.length ≤ n → ∀ e rest,
        outcome (readAnd eof us) = .ok (e, rest) → Derives andExpr us e rest := fun us hu e rest =>
      derives_of_readAnd eof fun vs hv => hnot vs (by omega)
    exact ⟨hnot ts (by omega), hand ts (by omega), fun e rest =>
      derives_of_readOr eof fun us hu => hand us (by omega)⟩

end

/-- The reader of filters takes all tokens when the grammar derives the filter from all of them. -/
theorem read_ok_iff_derives {eof : Position} {ts : List Token} {e : Filter} :
    read eof ts = .ok (e, []) ↔ Derives orExpr ts e [] := by
  show outcome (readOr eof ts) = .ok (e, []) ↔ _
  constructor
  · exact (derives_of_read eof ts.length ts rfl).2.2 e []
  · intro h
    rw [show outcome (readOr eof ts) = _ from reads_of_derives eof h (notAt_nil _),
      outcome_readOrTail_stop eof e (notAt_nil _)]

theorem not_derives_nil {e : Filter} : ¬ Derives orExpr [] e [] := by
  intro h
  have : read .origin [] = .ok (e, []) := read_ok_iff_derives.2 h
  rw [show read .origin [] = outcome (readOr .origin []) from rfl, outcome_readOr, outcome_readAnd,
    readNot] at this
  cases this

/-! ## Commands -/

/-- The tokens after the verb of a filter, which may be left out. -/
def afterVerb (line : List Token) : List Token :=
  if Command.leadingVerb line = some .filter then line.tail else line

theorem readFilter_ok_iff_derives {eof : Position} {whole ts : List Token} {e : Filter} :
    (∃ span, Command.readFilter eof whole ts = .ok (.filter e span, [])) ↔ Derives orExpr ts e [] := by
  unfold Command.readFilter
  split
  · next hts =>
    subst hts
    exact ⟨fun ⟨_, h⟩ => (by cases h), fun h => absurd h not_derives_nil⟩
  · constructor
    · intro h
      obtain ⟨span, h⟩ := h
      split at h
      · cases h
      · next hr => cases h; exact read_ok_iff_derives.1 hr
    · intro h
      rw [read_ok_iff_derives.2 h]
      exact ⟨_, rfl⟩

theorem eq_afterVerb_of_dispatch {mode : Mode} {eof : Position} {line after : List Token}
    (h : Command.dispatch mode eof line = .ok (.filter, after)) : after = afterVerb line := by
  unfold Command.dispatch at h
  unfold afterVerb
  split at h
  · next hv => cases h; rw [if_pos hv]
  · next hv _ => cases h; rw [if_neg (by simp [hv])]
  · split at h <;> cases h

/-- The reader of filters, up to the last token, accepts exactly its grammar, and a line that is read
as a filter is accepted with exactly the filters that the tokens after the verb derive. -/
theorem accepts_iff_derives (line : List Token) (e : Filter)
    (hopen : ∀ t ∈ line, t.kind.isOpenString = false) :
    ((∃ span, Command.readFilter (Token.endOf line) line (afterVerb line)
        = .ok (.filter e span, [])) ↔ Derives orExpr (afterVerb line) e []) ∧
    ∀ mode after, Command.dispatch mode (Token.endOf line) line = .ok (.filter, after) →
      after = afterVerb line ∧
        ((∃ span, Command.read mode line line = .ok (.filter e span))
          ↔ Derives orExpr after e []) := by
  refine ⟨readFilter_ok_iff_derives, fun mode after hd => ⟨eq_afterVerb_of_dispatch hd, ?_⟩⟩
  simp only [Command.read_ok_iff_of_dispatch hopen hd]
  exact readFilter_ok_iff_derives

/-- A clearing with a colon after it: `find !state : done`. -/
theorem accepts_clearing :
    let place := fun n => (⟨⟨n, 1, n⟩, ⟨n + 1, 1, n + 1⟩⟩ : Span)
    let line : List Token := [⟨.ident, "find".toList, place 0⟩, ⟨.clearField, "!state".toList, place 1⟩,
      ⟨.colon, [':'], place 2⟩, ⟨.ident, "done".toList, place 3⟩]
    (∀ t ∈ line, t.kind.isOpenString = false) ∧
      ∃ span, Command.read .auto line line
        = .ok (.filter (negation (predicate .state "done".toList ⟨⟨1, 1, 1⟩, ⟨4, 1, 4⟩⟩)
            ⟨⟨1, 1, 1⟩, ⟨4, 1, 4⟩⟩) span) := by
  intro place line
  have hopen : ∀ t ∈ line, t.kind.isOpenString = false := by decide
  refine ⟨hopen, ?_⟩
  refine (((accepts_iff_derives line _ hopen).2 .auto line.tail rfl).2).2 ?_
  have value : IsValue [⟨.ident, "done".toList, place 3⟩] "done".toList (place 3) [] :=
    @IsValue.run ⟨.ident, "done".toList, place 3⟩ [] [] (by decide) (by decide)
      (fun _ h => by cases h)
  exact .alternative (.term (.clearing rfl rfl (.intro value (by decide))))

end Agenda.Filter
