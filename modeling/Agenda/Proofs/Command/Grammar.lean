import Agenda.Proofs.Filter.Acceptance
import Agenda.Reading
/-!
# What makes a command

`Makes` says, without a reader, which tokens after the verb make a command of a given intent. A line makes
a command when the lexer takes all of it, no string is left open, a verb or the mode says what it is for,
and the tokens after the verb make such a command.

Results: the readers compute this relation (`readAs_ok_iff`), and so does the reading of a line
(`commandOf_ok_iff`).
-/
namespace Agenda

namespace Command

/-- The tokens `ts`, which come after the verb of the line `whole`, make a command. Its span is that of the
line. -/
inductive Makes (eof : Position) (whole : List Token) : Intent → List Token → Command → Prop where
  | create {ts words : List Token} {ops : List Op} (items : Items eof ts words ops)
      (titled : ValueRun.join words = [] → ops.any setsTitle = true) :
      Makes eof whole .create ts
        (.create (ValueRun.join words) ops (Token.spanBetween eof whole []))
  | update {ts rest : List Token} {target : Target} {ops : List Op}
      (htarget : readTarget ts = .ok (target, rest)) (items : Items eof rest [] ops) :
      Makes eof whole .update ts (.update target ops (Token.spanBetween eof whole []))
  | filter {ts : List Token} {e : Filter} (derives : Filter.Derives .orExpr ts e []) :
      Makes eof whole .filter ts (.filter e (Token.spanBetween eof whole []))
  | allViews : Makes eof whole .view [] (.view none (Token.spanBetween eof whole []))
  | view {t : Token} {v : View} (named : viewOf t = some v) :
      Makes eof whole .view [t] (.view (some v) (Token.spanBetween eof whole []))
  | showContext : Makes eof whole .context [] (.context none (Token.spanBetween eof whole []))
  | context {t : Token} {a : ContextArg} (named : contextOf t = .ok a) :
      Makes eof whole .context [t] (.context (some a) (Token.spanBetween eof whole []))

section
variable {eof : Position} {whole ts : List Token} {i : Intent} {c : Command}

theorem makes_of_readCreate (h : readCreate eof whole ts = .ok (c, [])) :
    Makes eof whole .create ts c := by
  unfold readCreate at h
  split at h
  · cases h
  · next words ops hitems =>
    simp only at h
    split at h
    · cases h
    · next htitle =>
      cases h
      refine .create (items_of_readItems hitems) fun hempty => ?_
      simpa [hempty] using htitle

theorem makes_of_readUpdate (h : readUpdate eof whole ts = .ok (c, [])) :
    Makes eof whole .update ts c := by
  unfold readUpdate at h
  split at h
  · cases h
  · next htarget =>
    split at h
    · cases h
    · next hops => cases h; exact .update htarget (items_of_readOps hops)

theorem makes_of_readFilter (h : readFilter eof whole ts = .ok (c, [])) :
    Makes eof whole .filter ts c := by
  unfold readFilter at h
  split at h
  · cases h
  · split at h
    · cases h
    · next hr => cases h; exact .filter (Filter.read_ok_iff_derives.1 hr)

theorem makes_of_readView (h : readView eof whole ts = .ok (c, [])) : Makes eof whole .view ts c := by
  unfold readView at h
  split at h
  · cases h; exact .allViews
  · split at h
    · next hv => cases h; exact .view hv
    · cases h

theorem makes_of_readContext (h : readContext eof whole ts = .ok (c, [])) :
    Makes eof whole .context ts c := by
  unfold readContext at h
  split at h
  · cases h; exact .showContext
  · split at h
    · next ha => cases h; exact .context ha
    · cases h

/-- The readers of commands, up to the last token, compute what makes a command. -/
theorem readAs_ok_iff : readAs i eof whole ts = .ok (c, []) ↔ Makes eof whole i ts c := by
  constructor
  · intro h
    cases i with
    | create => exact makes_of_readCreate h
    | update => exact makes_of_readUpdate h
    | filter => exact makes_of_readFilter h
    | view => exact makes_of_readView h
    | context => exact makes_of_readContext h
  · intro h
    cases h with
    | @create ts words ops items titled =>
      have htitle : ¬ (ValueRun.join words = [] ∧ (!ops.any setsTitle) = true) := by
        rintro ⟨hempty, hnone⟩
        rw [titled hempty] at hnone
        cases hnone
      simp only [readAs, readCreate, readItems_iff.2 items, if_neg htitle]
    | update htarget items => simp only [readAs, readUpdate, htarget, readOps_iff.2 items]
    | @filter ts e derives =>
      have hne : ts ≠ [] := fun hnil => Filter.not_derives_nil (hnil ▸ derives)
      simp only [readAs, readFilter, if_neg hne, Filter.read_ok_iff_derives.2 derives]
    | view named => simp only [readAs, readView, named]
    | context named => simp only [readAs, readContext, named]
    | _ => rfl

theorem setsTitle_withoutSpans (op : Op) : setsTitle op.withoutSpans = setsTitle op := by
  cases op with
  | edit how f v s => cases how <;> cases f <;> rfl
  | clear f s => rfl
  | tag k n s => rfl

/-- Where operations stand makes no difference to whether one of them sets the title. -/
theorem any_setsTitle_of_withoutSpans {ops ops' : List Op}
    (h : ops'.map Op.withoutSpans = ops.map Op.withoutSpans) :
    ops'.any setsTitle = ops.any setsTitle := by
  have hany := congrArg (List.any · setsTitle) h
  simpa only [List.any_map, Function.comp_def, setsTitle_withoutSpans] using hany

end

/-! ## Verbs -/

/-- The tokens after the verb, which may be left out. -/
def afterVerb (ts : List Token) : List Token := if (leadingVerb ts).isSome then ts.tail else ts

theorem afterVerb_suffix (ts : List Token) : afterVerb ts <:+ ts := by
  unfold afterVerb
  split
  · exact List.tail_suffix ts
  · exact List.suffix_rfl

/-- The verb at the head of the tokens says what they are for, or else the mode. -/
theorem dispatch_ok_iff {mode : Mode} {eof : Position} {ts after : List Token} {i : Intent} :
    dispatch mode eof ts = .ok (i, after) ↔
      (leadingVerb ts).or mode.intent? = some i ∧ after = afterVerb ts := by
  unfold dispatch afterVerb
  cases leadingVerb ts with
  | some verb => simp [eq_comm]
  | none =>
    cases mode.intent? with
    | some j => simp [eq_comm]
    | none => cases ts <;> simp

end Command

/-- A line makes a command when the lexer takes all of it, no string is left open, a verb or the mode says
what it is for, and the tokens after the verb make such a command. -/
theorem Reading.commandOf_ok_iff {mode : Mode} {input : Text} {c : Command} :
    commandOf mode input = .ok c ↔
      (Lexer.lex input).failure = none ∧
      (∀ t ∈ (Lexer.lex input).tokens, t.kind.isOpenString = false) ∧
      ∃ i, (Command.leadingVerb (Lexer.lex input).tokens).or mode.intent? = some i ∧
        Command.Makes (Token.endOf (Lexer.lex input).tokens) (Lexer.lex input).tokens i
          (Command.afterVerb (Lexer.lex input).tokens) c := by
  rw [commandOf_eq_ok_iff, and_congr_right_iff, Command.read_eq_ok_iff, Command.readFrom_eq_ok_iff,
    and_congr_right_iff]
  intro _ _
  constructor
  · intro h
    obtain ⟨-, i, after, hd, hread⟩ := h
    obtain ⟨hi, rfl⟩ := Command.dispatch_ok_iff.1 hd
    exact ⟨i, hi, Command.readAs_ok_iff.1 hread⟩
  · intro h
    obtain ⟨i, hi, hmakes⟩ := h
    exact ⟨rfl, i, _, Command.dispatch_ok_iff.2 ⟨hi, rfl⟩, Command.readAs_ok_iff.2 hmakes⟩

end Agenda
