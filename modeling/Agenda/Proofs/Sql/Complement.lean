import Agenda.Proofs.Listing.Normal
import Agenda.Proofs.Sql.Folding
import Agenda.Proofs.Text.Number
/-!
# Complements

Of a task row in which only the day may be missing, and of a compiled filter, nothing is unknown but
whether a missing day is a given one. A query for the negation of the filter therefore selects the rows
that a query for the filter leaves out, except those of which the filter can be answered either way:
`Filter.ComesOut` gives the answers that a filter can have when each comparison of a missing day is
answered at will, and these are what the truth value leaves open (`exists_truth`).

Results: `leafTruth_of_ofWritten`; `exists_truth`; `negation_complements`.
-/
namespace Agenda

open Sql

namespace Sql

/-! ## Answers left open -/

namespace Truth

/-- The answer is possible as far as is known. -/
def Allows (v : Truth) (b : Bool) : Prop := v ≠ ofBool !b

instance (v : Truth) (b : Bool) : Decidable (v.Allows b) := inferInstanceAs (Decidable (v ≠ _))

theorem ofBool_ne_unknown (b : Bool) : ofBool b ≠ unknown := by cases b <;> decide

theorem or_ne_unknown {u v : Truth} (hu : u ≠ unknown) (hv : v ≠ unknown) : u.or v ≠ unknown := by
  revert hu hv
  cases u <;> cases v <;> decide

theorem and_ne_unknown {u v : Truth} (hu : u ≠ unknown) (hv : v ≠ unknown) :
    u.and v ≠ unknown := by
  revert hu hv
  cases u <;> cases v <;> decide

theorem not_ne_unknown {v : Truth} (hv : v ≠ unknown) : v.not ≠ unknown := by
  revert hv
  cases v <;> decide

theorem allows_unknown (b : Bool) : unknown.Allows b := by cases b <;> decide

theorem allows_iff_eq {v : Truth} (hv : v ≠ unknown) (b : Bool) : v.Allows b ↔ v = ofBool b := by
  revert hv
  cases v <;> cases b <;> decide

theorem allows_and_iff {u v : Truth} {b : Bool} :
    (u.and v).Allows b ↔ ∃ x y, u.Allows x ∧ v.Allows y ∧ (x && y) = b := by
  cases u <;> cases v <;> cases b <;> decide

theorem allows_or_iff {u v : Truth} {b : Bool} :
    (u.or v).Allows b ↔ ∃ x y, u.Allows x ∧ v.Allows y ∧ (x || y) = b := by
  cases u <;> cases v <;> cases b <;> decide

theorem allows_not_iff {v : Truth} {b : Bool} : v.not.Allows b ↔ v.Allows !b := by
  cases v <;> cases b <;> decide

/-- What is neither true nor false is what can be answered either way. -/
theorem neither_iff {v : Truth} :
    ¬ (v = yes ∨ v.not = yes) ↔ v.Allows true ∧ v.Allows false := by
  cases v <;> decide

end Truth

/-! ## Stored rows -/

/-- A row as the task table holds it: only the day may be missing. -/
def Row.IsStored (row : Row) : Prop := ∀ c : Column, c ≠ .due → row c.name ≠ .null

theorem Datum.equals_eq_unknown_iff {a b : Datum} :
    a.equals b = .unknown ↔ a = .null ∨ b = .null := by
  unfold equals
  split
  · next h => exact ⟨fun _ => h, fun _ => rfl⟩
  · next h => exact ⟨fun hu => absurd hu (Truth.ofBool_ne_unknown _), fun hn => absurd hn h⟩

theorem Datum.like_ne_unknown {dialect : Dialect} {pattern : Text} {a : Datum} (h : a ≠ .null) :
    a.like dialect pattern ≠ .unknown := by
  cases a with
  | null => exact absurd rfl h
  | text s => exact Truth.ofBool_ne_unknown _
  | number n => exact Truth.ofBool_ne_unknown false

/-- Whether a link exists is always known. -/
theorem Condition.truth_tagged_ne_unknown (config : Config) (db : Database) (row : Row)
    (kind : TagKind) (m : TagMatch) : (tagged kind m).truth config db row ≠ .unknown := by
  cases m with
  | any => exact Truth.ofBool_ne_unknown _
  | named n => exact Truth.ofBool_ne_unknown _

theorem Literal.datum_ne_null (v : Literal) : v.datum ≠ .null := by cases v <;> simp [datum]

end Sql

/-! ## What is unknown of a filter -/

/-- The answers that a filter can have for a task row, where each comparison of a missing day with a
given one may be answered either way, whatever the others are answered. -/
inductive Filter.ComesOut (config : Config) (db : Database) (row : Row) : Filter → Bool → Prop
  | both {l r : Filter} {span : Span} {a b : Bool} : ComesOut config db row l a →
      ComesOut config db row r b → ComesOut config db row (binary .and l r span) (a && b)
  | either {l r : Filter} {span : Span} {a b : Bool} : ComesOut config db row l a →
      ComesOut config db row r b → ComesOut config db row (binary .or l r span) (a || b)
  | negation {e : Filter} {span : Span} {b : Bool} : ComesOut config db row e b →
      ComesOut config db row (negation e span) (!b)
  | missing {day : Text} {span : Span} (b : Bool) : day ≠ wildcard → row Column.due.name = .null →
      ComesOut config db row (predicate .due day span) b
  | known {kind : PredicateKind} {text : Text} {span : Span} {b : Bool} :
      leafTruth config db row (kind, text) = .ok (.ofBool b) →
      ComesOut config db row (predicate kind text span) b

section
variable {config : Config} {db : Database} {row : Row}

theorem leafTruth_day (config : Config) (db : Database) (row : Row) (d : Date) :
    leafTruth config db row (.due, d.render)
      = .ok ((row Column.due.name).equals (Literal.text d.render).datum) := by
  have hwild : d.render ≠ wildcard := d.render_ne_wildcard
  rw [leafTruth, Condition.ofPredicate, if_neg hwild]
  rfl

theorem leafTruth_number (config : Config) (db : Database) (row : Row) {n : Nat}
    (hn : n < Text.wordBound) :
    leafTruth config db row (.id, Text.ofNat n)
      = .ok ((row Column.id.name).equals (Literal.number n).datum) := by
  rw [leafTruth, Condition.ofPredicate, readId, Text.readHashed?_ofNat hn]
  rfl

/-- A predicate of a compiled filter has a truth value, which is unknown only of a missing day that is
compared with a given one. -/
theorem leafTruth_of_ofWritten (config : Config) (db : Database) (hrow : row.IsStored) {c : Criterion}
    (hc : Criterion.ofWritten c.render c.kind = .ok c) :
    ∃ v, leafTruth config db row (c.kind, c.render) = .ok v ∧
      (v = .unknown ↔ c.kind = .due ∧ c.render ≠ wildcard ∧ row Column.due.name = .null) := by
  have hequals {column : Column} (hcolumn : column ≠ .due) (v : Literal) :
      (row column.name).equals v.datum ≠ .unknown := by
    rw [Ne, Datum.equals_eq_unknown_iff]
    exact not_or.2 ⟨hrow column hcolumn, v.datum_ne_null⟩
  cases c with
  | state s =>
    refine ⟨_, rfl, fun hu => absurd hu (hequals (by decide) (.text s.name)), ?_⟩
    rintro ⟨hkind, -, -⟩
    cases hkind
  | due d =>
    cases d with
    | none =>
      refine ⟨_, rfl, fun hu => absurd hu (Truth.ofBool_ne_unknown _), ?_⟩
      rintro ⟨-, hwild, -⟩
      exact absurd rfl hwild
    | some d =>
      have hwild : d.render ≠ wildcard := d.render_ne_wildcard
      refine ⟨_, leafTruth_day config db row d, ?_⟩
      rw [Datum.equals_eq_unknown_iff, or_iff_left (Literal.datum_ne_null _)]
      exact ⟨fun hnull => ⟨rfl, hwild, hnull⟩, fun h => h.2.2⟩
  | tag kind m =>
    have hkind : (Criterion.tag kind m).kind = (Listable.tag kind).kind := by cases kind <;> rfl
    refine ⟨_, hkind ▸ leafTruth_tag config db row kind _,
      fun hu => absurd hu (Condition.truth_tagged_ne_unknown _ _ _ _ _), ?_⟩
    rintro ⟨hdue, -, -⟩
    cases kind <;> cases hdue
  | text s =>
    refine ⟨_, rfl, fun hu => absurd hu (Truth.or_ne_unknown ?_ ?_), ?_⟩
    · exact Datum.like_ne_unknown (hrow .title (by decide))
    · exact Datum.like_ne_unknown (hrow .notes (by decide))
    · rintro ⟨hkind, -, -⟩
      cases hkind
  | id n =>
    have hn : n < Text.wordBound := (Criterion.bounds_of_ofWritten hc).2
    refine ⟨_, leafTruth_number config db row hn,
      fun hu => absurd hu (hequals (by decide) (.number n)), ?_⟩
    rintro ⟨hkind, -, -⟩
    cases hkind

namespace Filter

theorem comesOut_predicate_iff {kind : PredicateKind} {text : Text} {span : Span} {v : Truth}
    (hleaf : leafTruth config db row (kind, text) = .ok v)
    (hunknown : v = .unknown ↔ kind = .due ∧ text ≠ wildcard ∧ row Column.due.name = .null)
    (b : Bool) : (predicate kind text span).ComesOut config db row b ↔ v.Allows b := by
  by_cases hv : v = .unknown
  · obtain ⟨rfl, hwild, hnull⟩ := hunknown.1 hv
    exact iff_of_true (.missing b hwild hnull) (hv ▸ Truth.allows_unknown b)
  · rw [Truth.allows_iff_eq hv]
    constructor
    · intro h
      cases h with
      | missing b hwild hnull => exact absurd (hunknown.2 ⟨rfl, hwild, hnull⟩) hv
      | known hknown => exact Except.ok.inj (hleaf.symm.trans hknown)
    · rintro rfl
      exact .known hleaf

theorem comesOut_both_iff {l r : Filter} {span : Span} {b : Bool} :
    (binary .and l r span).ComesOut config db row b
      ↔ ∃ x y, l.ComesOut config db row x ∧ r.ComesOut config db row y ∧ (x && y) = b := by
  constructor
  · intro h
    cases h with
    | both hl hr => exact ⟨_, _, hl, hr, rfl⟩
  · rintro ⟨x, y, hl, hr, rfl⟩
    exact .both hl hr

theorem comesOut_either_iff {l r : Filter} {span : Span} {b : Bool} :
    (binary .or l r span).ComesOut config db row b
      ↔ ∃ x y, l.ComesOut config db row x ∧ r.ComesOut config db row y ∧ (x || y) = b := by
  constructor
  · intro h
    cases h with
    | either hl hr => exact ⟨_, _, hl, hr, rfl⟩
  · rintro ⟨x, y, hl, hr, rfl⟩
    exact .either hl hr

theorem comesOut_negation_iff {e : Filter} {span : Span} {b : Bool} :
    (negation e span).ComesOut config db row b ↔ e.ComesOut config db row !b := by
  constructor
  · intro h
    cases h with
    | negation he => rwa [Bool.not_not]
  · intro h
    have hnot : (negation e span).ComesOut config db row (!!b) := .negation h
    rwa [Bool.not_not] at hnot

theorem IsNormal.left {op : BoolOp} {l r : Filter} {span : Span} (h : (binary op l r span).IsNormal) :
    l.IsNormal := fun kind text hmem => h kind text (List.mem_append_left _ hmem)

theorem IsNormal.right {op : BoolOp} {l r : Filter} {span : Span}
    (h : (binary op l r span).IsNormal) : r.IsNormal :=
  fun kind text hmem => h kind text (List.mem_append_right _ hmem)

/-- A compiled filter has a truth value for every task row. It leaves open what can come out, and of a
row with a day that is one answer. -/
theorem exists_truth (config : Config) (db : Database) (hrow : row.IsStored) {e : Filter}
    (h : e.IsNormal) :
    ∃ v, e.truth config db row = .ok v ∧ (row Column.due.name ≠ .null → v ≠ .unknown) ∧
      ∀ b, e.ComesOut config db row b ↔ v.Allows b := by
  induction e with
  | binary op l r span ihl ihr =>
    obtain ⟨u, hu, hudated, huallows⟩ := ihl h.left
    obtain ⟨v, hv, hvdated, hvallows⟩ := ihr h.right
    cases op with
    | and =>
      refine ⟨u.and v, by rw [truth, hu, hv]; rfl,
        fun hd => Truth.and_ne_unknown (hudated hd) (hvdated hd), fun b => ?_⟩
      simp only [comesOut_both_iff, huallows, hvallows, Truth.allows_and_iff]
    | or =>
      refine ⟨u.or v, by rw [truth, hu, hv]; rfl,
        fun hd => Truth.or_ne_unknown (hudated hd) (hvdated hd), fun b => ?_⟩
      simp only [comesOut_either_iff, huallows, hvallows, Truth.allows_or_iff]
  | negation e span ih =>
    obtain ⟨v, hv, hdated, hallows⟩ := ih h
    refine ⟨v.not, by rw [truth, hv]; rfl, fun hd => Truth.not_ne_unknown (hdated hd), fun b => ?_⟩
    rw [comesOut_negation_iff, hallows, Truth.allows_not_iff]
  | predicate kind text span =>
    obtain ⟨c, rfl, rfl, hc⟩ := h kind text (List.mem_singleton.2 rfl)
    obtain ⟨v, hv, hunknown⟩ := leafTruth_of_ofWritten config db hrow hc
    exact ⟨v, hv, fun hd hu => hd (hunknown.1 hu).2.2, comesOut_predicate_iff hv hunknown⟩

end Filter

end

namespace Sql

/-- A query for a filter that has a truth value selects the rows of which it is true. -/
theorem selects_of_truth {config : Config} {db : Database} {row : Row} {e : Filter} {v : Truth}
    (h : e.truth config db row = .ok v) (r : ListRequest) :
    ∃ q, Query.ofRequest config.leastFold { r with expr := some e } = .ok q ∧
      (q.selects config db row = true ↔ v = .yes) := by
  rw [← truth_condition config.leastFold] at h
  obtain ⟨⟨c, folds⟩, hc, rfl⟩ := exists_of_map_eq_ok h
  refine ⟨⟨some c, folds⟩, by simp only [Query.ofRequest, hc], ?_⟩
  simp [Query.selects]

/-- Negation is complement but for missing days: no row is selected both by the query of a compiled
filter and by that of its negation, and it is selected by one of them unless it has no day and the
filter depends on what day that is. -/
theorem negation_complements (config : Config) {today : Date} {e e' : Filter}
    (he : e.normalize today = .ok e') (span : Span) (r : ListRequest) (db : Database) {row : Row}
    (hrow : row.IsStored) :
    ∃ p q, Query.ofRequest config.leastFold { r with expr := some e' } = .ok p ∧
      Query.ofRequest config.leastFold { r with expr := some (.negation e' span) } = .ok q ∧
      ¬ (p.selects config db row = true ∧ q.selects config db row = true) ∧
      (¬ (p.selects config db row = true ∨ q.selects config db row = true) ↔
        row Column.due.name = .null ∧
          e'.ComesOut config db row true ∧ e'.ComesOut config db row false) := by
  obtain ⟨v, hv, hdated, hallows⟩ :=
    Filter.exists_truth config db hrow (Filter.isNormal_of_normalize he)
  have hnot : (Filter.negation e' span).truth config db row = .ok v.not := by
    rw [Filter.truth, hv]; rfl
  obtain ⟨p, hp, hpsel⟩ := selects_of_truth hv r
  obtain ⟨q, hq, hqsel⟩ := selects_of_truth hnot r
  refine ⟨p, q, hp, hq, ?_, ?_⟩
  · rw [hpsel, hqsel]
    rintro ⟨rfl, hno⟩
    cases hno
  · rw [hpsel, hqsel, hallows, hallows, Truth.neither_iff]
    refine ⟨fun hopen => ⟨?_, hopen⟩, fun hopen => hopen.2⟩
    by_contra hd
    have hknown := hdated hd
    rw [Truth.allows_iff_eq hknown, Truth.allows_iff_eq hknown] at hopen
    cases hopen.1.symm.trans hopen.2

/-- A task without a day, and with empty texts. -/
def undatedRow : Row := fun column =>
  if column = Column.id.name then .number 1
  else if column = Column.due.name then .null
  else .text []

theorem undatedRow_isStored : undatedRow.IsStored := by
  intro c
  cases c <;> decide

/-- The filter `state:done or due:today` on a task without a day. -/
theorem negation_complements_undated :
    let today : Date := ⟨2026, 2, 8, by decide, by decide, by decide, by decide⟩
    let e := Filter.binary .or (.predicate .state "done".toList .zero)
      (.predicate .due "today".toList .zero) .zero
    let e' := Filter.binary .or (.predicate .state "done".toList .zero)
      (.predicate .due "2026-02-08".toList .zero) .zero
    let r := ListRequest.all
    let db : Database := fun _ => [undatedRow]
    e.normalize today = .ok e' ∧ undatedRow.IsStored ∧
      ∃ p q, Query.ofRequest Config.standard.leastFold { r with expr := some e' } = .ok p ∧
        Query.ofRequest Config.standard.leastFold { r with expr := some (.negation e' .zero) }
          = .ok q ∧
        ¬ (p.selects .standard db undatedRow = true ∧ q.selects .standard db undatedRow = true) ∧
        (¬ (p.selects .standard db undatedRow = true ∨ q.selects .standard db undatedRow = true) ↔
          undatedRow Column.due.name = .null ∧
            e'.ComesOut .standard db undatedRow true ∧ e'.ComesOut .standard db undatedRow false) := by
  intro today e e' r db
  have he : e.normalize today = .ok e' := by decide +kernel
  exact ⟨he, undatedRow_isStored,
    negation_complements .standard he .zero r db undatedRow_isStored⟩

/-- A task without a day is neither due on a given day nor not due on it. -/
theorem undated_selected_by_neither :
    let today : Date := ⟨2026, 2, 8, by decide, by decide, by decide, by decide⟩
    let e := Filter.predicate .due "2026-02-08".toList .zero
    let db : Database := fun _ => [undatedRow]
    e.normalize today = .ok e ∧ undatedRow.IsStored ∧
      ∃ p q, Query.ofRequest Config.standard.leastFold { ListRequest.all with expr := some e }
          = .ok p ∧
        Query.ofRequest Config.standard.leastFold
          { ListRequest.all with expr := some (.negation e .zero) } = .ok q ∧
        p.selects .standard db undatedRow = false ∧ q.selects .standard db undatedRow = false := by
  intro today e db
  refine ⟨by decide +kernel, undatedRow_isStored,
    ⟨some (.equal .due (.text "2026-02-08".toList)), []⟩,
    ⟨some (.not (.equal .due (.text "2026-02-08".toList))), []⟩, ?_, ?_, ?_, ?_⟩
  · decide +kernel
  · decide +kernel
  · decide +kernel
  · decide +kernel

end Sql

end Agenda
