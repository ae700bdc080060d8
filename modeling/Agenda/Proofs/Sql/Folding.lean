import Agenda.Plan.Item
import Agenda.Proofs.Sql.Meaning
/-!
# Lists of values

Where a filter offers values of one column by or, its condition may list them. A filter has a meaning of
its own, `Filter.truth`, which knows of no lists, and the condition of a filter has that meaning however
many values make a list (`truth_condition`), with the same error for a number that cannot be read. What
a query selects therefore does not depend on where it folds.

Results: `truth_alternatives`; `truth_ofValues`; `truth_condition`; `ofRequest_selectsAlike`.
-/
namespace Agenda

open Sql

/-! ## The meaning of a filter -/

section
variable (config : Config) (db : Database) (row : Row)

/-- What a predicate says of a task row, or why it cannot be read. -/
def leafTruth (leaf : PredicateKind × Text) : Except CompileError.Cause Truth :=
  (Condition.ofPredicate leaf.2 leaf.1).map (Condition.truth config db row)

/-- What a filter says of a task row, or why its first unreadable predicate cannot be read. -/
def Filter.truth : Filter → Except CompileError.Cause Truth
  | binary .and l r _ => l.truth.bind fun a => r.truth.map a.and
  | binary .or l r _ => l.truth.bind fun a => r.truth.map a.or
  | negation e _ => e.truth.map Truth.not
  | predicate kind text _ => leafTruth config db row (kind, text)

end

/-- A predicate on tags says that a link exists. -/
theorem leafTruth_tag (config : Config) (db : Database) (row : Row) (kind : TagKind) (s : Text) :
    leafTruth config db row ((Listable.tag kind).kind, s)
      = .ok ((Condition.tagged kind (Criterion.tagMatch s)).truth config db row) := by
  cases kind <;> rfl

theorem readIds_eq_readAll (texts : List Text) :
    Condition.readIds texts = Value.readAll readId texts := by
  induction texts with
  | nil => rfl
  | cons s texts ih => rw [Condition.readIds, Value.readAll, ih]; cases readId s <;> rfl

section
variable {config : Config} {db : Database} {row : Row}

/-- A filter that has nothing but or says that one of its predicates is true. -/
theorem truth_alternatives {e : Filter} {leaves : List (PredicateKind × Text)}
    (h : e.alternatives? = some leaves) :
    e.truth config db row = (Value.readAll (leafTruth config db row) leaves).map Truth.any := by
  induction e generalizing leaves with
  | binary op l r span ihl ihr =>
    cases op with
    | and => cases h
    | or =>
      simp only [Filter.alternatives?, Option.bind_eq_bind, Option.bind_eq_some_iff] at h
      obtain ⟨ls, hl, rs, hr, he⟩ := h
      cases he
      rw [Filter.truth, ihl hl, ihr hr, Value.readAll_append]
      cases Value.readAll (leafTruth config db row) ls with
      | error cause => rfl
      | ok ts =>
        cases Value.readAll (leafTruth config db row) rs with
        | error cause => rfl
        | ok us => exact congrArg Except.ok (Truth.any_append ts us).symm
  | negation e span ih => cases h
  | predicate kind text span =>
    cases h
    rw [Filter.truth, Value.readAll]
    cases leafTruth config db row (kind, text) with
    | error cause => rfl
    | ok t => exact congrArg Except.ok (Truth.or_no t).symm

/-! ## Lists -/

theorem kind_of_ofKind? {kind : PredicateKind} {column : Listable}
    (h : Listable.ofKind? kind = some column) : column.kind = kind := by
  cases kind <;> cases h <;> rfl

/-- What folds is a list of values of one kind, none of them the wildcard. -/
theorem leaves_of_values? {least : Nat} {leaves : List (PredicateKind × Text)} {column : Listable}
    {values : List Text} (h : Filter.values? least leaves = some (column, values)) :
    leaves = values.map (fun v => (column.kind, v)) ∧ ∀ v ∈ values, v ≠ wildcard := by
  cases leaves with
  | nil => cases h
  | cons leaf rest =>
    obtain ⟨kind, text⟩ := leaf
    rw [Filter.values?] at h
    split at h
    · next hsame =>
      obtain ⟨column', hcolumn, he⟩ := Option.map_eq_some_iff.1 h
      cases he
      have hall : ∀ leaf ∈ (kind, text) :: rest, leaf.1 = kind ∧ leaf.2 ≠ wildcard := by
        simpa only [List.all_eq_true, decide_eq_true_eq] using hsame.2
      refine ⟨?_, fun v hv => ?_⟩
      · rw [List.map_map, kind_of_ofKind? hcolumn]
        refine (List.map_id _).symm.trans (List.map_congr_left fun leaf hleaf => ?_)
        rw [← (hall leaf hleaf).1]
        rfl
      · obtain ⟨leaf, hleaf, rfl⟩ := List.mem_map.1 hv
        exact (hall leaf hleaf).2
    · cases h

/-- A list of numbers says that the row has one of them, if all of them can be read. -/
theorem truth_readIds (values : List Text) :
    (Condition.readIds values).map (fun ns =>
        (Condition.among .id (ns.map .number)).truth config db row)
      = (Value.readAll (leafTruth config db row) (values.map fun v => (.id, v))).map Truth.any := by
  have hleaf (v : Text) : leafTruth config db row (.id, v)
      = (readId v).map fun n => (Condition.equal .id (.number n)).truth config db row := by
    rw [leafTruth, Condition.ofPredicate]
    cases readId v <;> rfl
  rw [readIds_eq_readAll, Value.readAll_map hleaf, Value.readAll_map_right]
  cases Value.readAll readId values with
  | error cause => rfl
  | ok ns =>
    simp only [Except.map, Condition.truth, List.map_map]
    rfl

/-- A list of values says that one of the predicates is true that it stands for. -/
theorem truth_ofValues (column : Listable) {values : List Text} (h : ∀ v ∈ values, v ≠ wildcard) :
    (Condition.ofValues values column).map (Condition.truth config db row)
      = (Value.readAll (leafTruth config db row) (values.map fun v => (column.kind, v))).map
          Truth.any := by
  cases column with
  | state =>
    have hleaf : ∀ v ∈ values, leafTruth config db row (Listable.state.kind, v)
        = .ok ((Condition.equal .state (.text v)).truth config db row) := fun v _ => rfl
    rw [Value.readAll_map_ok hleaf]
    simp only [Condition.ofValues, Except.map, Condition.truth, List.map_map]
    rfl
  | id =>
    refine Eq.trans ?_ (truth_readIds values)
    simp only [Condition.ofValues]
    cases Condition.readIds values <;> rfl
  | tag kind =>
    have hleaf : ∀ v ∈ values, leafTruth config db row ((Listable.tag kind).kind, v)
        = .ok ((Condition.tagged kind (.named v)).truth config db row) := by
      intro v hv
      rw [leafTruth_tag, Criterion.tagMatch, if_neg (h v hv)]
    rw [Value.readAll_map_ok hleaf]
    exact congrArg Except.ok (hasLink_any config db row kind values)

/-! ## Conditions -/

/-- The condition of both parts, with the lists of both. -/
theorem condition_and (least : Nat) (l r : Filter) (span : Span) :
    (Filter.binary .and l r span).condition least
      = (l.condition least).bind fun p =>
          (r.condition least).map fun q => (.both p.1 q.1, p.2 ++ q.2) := by
  rw [Filter.condition]
  cases l.condition least <;> rfl

/-- What does not fold has the condition of either part, with the lists of both. -/
theorem condition_or {least : Nat} {l r : Filter} {span : Span}
    (h : Filter.folded? least (.binary .or l r span) = none) :
    (Filter.binary .or l r span).condition least
      = (l.condition least).bind fun p =>
          (r.condition least).map fun q => (.either p.1 q.1, p.2 ++ q.2) := by
  rw [Filter.condition, h]
  cases l.condition least <;> rfl

/-- What folds has the condition of its list. -/
theorem condition_folded {least : Nat} {l r : Filter} {span : Span} {column : Listable}
    {values : List Text} (h : Filter.folded? least (.binary .or l r span) = some (column, values)) :
    (Filter.binary .or l r span).condition least
      = (Condition.ofValues values column).map fun c => (c, [⟨column.kind, values.length⟩]) := by
  rw [Filter.condition, h]

/-- The condition of a filter means what the filter does, however many values make a list. -/
theorem truth_condition (least : Nat) (e : Filter) :
    (e.condition least).map (fun p => p.1.truth config db row) = e.truth config db row := by
  induction e with
  | binary op l r span ihl ihr =>
    have hjoined (join : Condition → Condition → Condition) (joined : Truth → Truth → Truth)
        (hjoin : ∀ c d, (join c d).truth config db row
          = joined (c.truth config db row) (d.truth config db row)) :
        ((l.condition least).bind fun p =>
            (r.condition least).map fun q => (join p.1 q.1, p.2 ++ q.2)).map
              (fun p => p.1.truth config db row)
          = (l.truth config db row).bind fun a => (r.truth config db row).map (joined a) := by
      rw [← ihl, ← ihr]
      cases l.condition least with
      | error cause => rfl
      | ok p =>
        cases r.condition least with
        | error cause => rfl
        | ok q => exact congrArg Except.ok (hjoin p.1 q.1)
    cases op with
    | and =>
      rw [condition_and]
      exact hjoined .both Truth.and fun _ _ => rfl
    | or =>
      cases hfold : Filter.folded? least (.binary .or l r span) with
      | none =>
        rw [condition_or hfold]
        exact hjoined .either Truth.or fun _ _ => rfl
      | some list =>
        obtain ⟨column, values⟩ := list
        obtain ⟨leaves, halt, hvalues⟩ := Option.bind_eq_some_iff.1 hfold
        obtain ⟨rfl, hwild⟩ := leaves_of_values? hvalues
        rw [condition_folded hfold, truth_alternatives halt, ← truth_ofValues column hwild]
        cases Condition.ofValues values column <;> rfl
  | negation e span ih =>
    rw [Filter.condition, Filter.truth, ← ih]
    cases e.condition least <;> rfl
  | predicate kind text span =>
    rw [Filter.condition, Filter.truth, leafTruth]
    cases Condition.ofPredicate text kind <;> rfl

end

/-! ## Queries -/

namespace Sql

/-- Two attempts at a query fail for the same error, or both succeed and select the same rows of every
database. -/
def SelectsAlike (config : Config) : Except CompileError Query → Except CompileError Query → Prop
  | .ok p, .ok q => ∀ db, p.rows config db = q.rows config db
  | .error e, .error e' => e = e'
  | _, _ => False

/-- Folding preserves meaning: how many values make a list changes neither whether a request can be
asked, nor the error, nor the rows that are selected. -/
theorem ofRequest_selectsAlike (config : Config) (m n : Nat) (r : ListRequest) :
    SelectsAlike config (Query.ofRequest m r) (Query.ofRequest n r) := by
  cases hexpr : r.expr with
  | none =>
    simp only [Query.ofRequest, hexpr]
    exact fun db => rfl
  | some e =>
    have htruth (db : Database) (row : Row) :
        (e.condition m).map (fun p => p.1.truth config db row)
          = (e.condition n).map (fun p => p.1.truth config db row) := by
      rw [truth_condition, truth_condition]
    simp only [Query.ofRequest, hexpr]
    cases hm : e.condition m with
    | error cause =>
      cases hn : e.condition n with
      | error cause' =>
        have hcause := htruth (fun _ => []) fun _ => .null
        rw [hm, hn] at hcause
        exact congrArg (fun c => CompileError.mk c none) (Except.error.inj hcause)
      | ok q =>
        have hcause := htruth (fun _ => []) fun _ => .null
        rw [hm, hn] at hcause
        cases hcause
    | ok p =>
      cases hn : e.condition n with
      | error cause' =>
        have hcause := htruth (fun _ => []) fun _ => .null
        rw [hm, hn] at hcause
        cases hcause
      | ok q =>
        intro db
        have hselects : (fun row => Query.selects config db ⟨some p.1, p.2⟩ row)
            = fun row => Query.selects config db ⟨some q.1, q.2⟩ row := by
          funext row
          have hrow := htruth db row
          rw [hm, hn] at hrow
          simp only [Query.selects, Option.all_some, Except.ok.inj hrow]
        exact congrArg (List.filter · (db config.table)) hselects

end Sql

end Agenda
