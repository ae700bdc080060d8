import Agenda.Proofs.Listing.Columns
import Agenda.Proofs.Sql.Complement
import Mathlib.Data.List.Perm.Basic
/-!
# Conjunctions

A flattened query can be asked in two ways: by its filter, whose predicates are texts, and by its
columns, which hold states, days, numbers and tags. Both make a condition that joins others by and
(`Condition.conjuncts`), and these are the conditions of the criteria that the columns hold
(`Criterion.condition`): in the order of the line for the filter, in the order of the columns otherwise.

Results: `truth_conjuncts`, by which order and grouping do not matter; `ofPredicate_render`;
`columnConditions_eq`; `columns_rearrange_filter`.
-/
namespace Agenda

open Sql

namespace Sql

/-! ## All of several -/

namespace Truth

def all (ts : List Truth) : Truth := ts.foldr and yes

theorem and_assoc (a b c : Truth) : (a.and b).and c = a.and (b.and c) := by
  cases a <;> cases b <;> cases c <;> rfl

theorem and_left_comm (a b c : Truth) : a.and (b.and c) = b.and (a.and c) := by
  cases a <;> cases b <;> cases c <;> rfl

theorem yes_and (a : Truth) : yes.and a = a := by cases a <;> rfl

theorem and_yes (a : Truth) : a.and yes = a := by cases a <;> rfl

theorem all_append (ts us : List Truth) : all (ts ++ us) = (all ts).and (all us) := by
  induction ts with
  | nil => exact (yes_and _).symm
  | cons t ts ih => rw [List.cons_append, all, List.foldr_cons, ← all, ih, ← and_assoc]; rfl

theorem all_perm {ts us : List Truth} (h : ts.Perm us) : all ts = all us := by
  have : LeftCommutative and := ⟨and_left_comm⟩
  exact h.foldr_eq yes

end Truth

namespace Condition

/-- The conditions that a condition joins by and. -/
def conjuncts : Condition → List Condition
  | both l r => l.conjuncts ++ r.conjuncts
  | c => [c]

/-- None of them is such a conjunction itself. -/
theorem isBoth_of_mem_conjuncts {a c : Condition} (h : a ∈ c.conjuncts) : a.isBoth = false := by
  induction c with
  | both l r ihl ihr =>
    rw [conjuncts, List.mem_append] at h
    exact h.elim ihl ihr
  | _ => rw [List.mem_singleton.1 h]; rfl

/-- A condition is true when all that it joins are true, so their order and grouping do not matter. -/
theorem truth_conjuncts (config : Config) (db : Database) (row : Row) (c : Condition) :
    Truth.all (c.conjuncts.map (truth config db row)) = c.truth config db row := by
  induction c with
  | both l r ihl ihr => rw [conjuncts, List.map_append, Truth.all_append, ihl, ihr, truth]
  | _ => exact Truth.and_yes _

theorem conjuncts_foldl (c : Condition) (cs : List Condition) :
    (cs.foldl both c).conjuncts = c.conjuncts ++ cs.flatMap conjuncts := by
  induction cs generalizing c with
  | nil => simp
  | cons d cs ih => rw [List.foldl_cons, ih, conjuncts, List.flatMap_cons, List.append_assoc]

end Condition

end Sql

/-! ## The condition of a criterion -/

namespace Criterion

def condition : Criterion → Condition
  | state s => .equal .state (.text s.name)
  | due none => .present .due
  | due (some d) => .equal .due (.text d.render)
  | tag kind m => .tagged kind m
  | text s => .contains s
  | id n => .equal .id (.number n)

theorem conjuncts_condition (c : Criterion) : c.condition.conjuncts = [c.condition] := by
  rcases c with _ | (_ | _) | _ | _ | _ <;> rfl

theorem flatMap_conjuncts (cs : List Criterion) :
    (cs.map condition).flatMap Condition.conjuncts = cs.map condition := by
  rw [List.flatMap_map, List.map_eq_flatMap]
  simp only [conjuncts_condition]

/-- The text of a criterion in a compiled filter is asked for as the criterion itself is, although the
one is read again and the other is not. -/
theorem ofPredicate_render {c : Criterion} (h : ofWritten c.render c.kind = .ok c) :
    Condition.ofPredicate c.render c.kind = .ok c.condition := by
  cases c with
  | state s => rfl
  | due d =>
    cases d with
    | none => rfl
    | some d =>
      have hwild : d.render ≠ wildcard := d.render_ne_wildcard
      show Except.ok (if d.render = wildcard then _ else _) = _
      rw [if_neg hwild]
      rfl
  | tag kind m =>
    have hm : tagMatch (tag kind m).render = m := by
      cases kind with
      | project => exact (Criterion.tag.inj (Except.ok.inj h)).2
      | context => exact (Criterion.tag.inj (Except.ok.inj h)).2
    cases kind with
    | project => exact congrArg (fun m => Except.ok (Condition.tagged .project m)) hm
    | context => exact congrArg (fun m => Except.ok (Condition.tagged .context m)) hm
  | text s => rfl
  | id n =>
    have hn : n < Text.wordBound := (bounds_of_ofWritten h).2
    show (readId (Text.ofNat n)).map _ = _
    rw [readId, Text.readHashed?_ofNat hn]
    rfl

end Criterion

/-! ## The columns as criteria -/

namespace ListRequest

/-- What the columns hold, in the order in which a query asks for it. -/
def criteria (r : ListRequest) : List Criterion :=
  [r.state.map .state, r.project.map (.tag .project), r.context.map (.tag .context),
    r.search.map .text, r.id.map .id, r.due.map fun d => .due (some d),
    if r.dueOnly then some (.due none) else none].flatMap Option.toList

theorem mem_criteria {r : ListRequest} {c : Criterion} : c ∈ r.criteria ↔ c.IsHeldBy r := by
  rcases c with _ | (_ | _) | ⟨_ | _, _⟩ | _ | _ <;> simp [criteria, Criterion.IsHeldBy]

theorem nodup_criteria (r : ListRequest) : r.criteria.Nodup := by
  rw [criteria, List.nodup_flatMap]
  constructor
  · intro o _
    cases o <;> simp
  · simp [Function.onFun, List.disjoint_left]

theorem columnConditions_eq (r : ListRequest) :
    columnConditions r = r.criteria.map Criterion.condition := by
  simp only [columnConditions, criteria, List.flatMap_cons, List.flatMap_nil, List.map_append,
    ← Option.toList_map, Option.map_map, List.append_assoc, List.append_nil]
  cases r.dueOnly <;> rfl

end ListRequest

/-! ## Both conditions of a query -/

theorem Filter.predicates_ne_nil (e : Filter) : e.predicates ≠ [] := by
  induction e with
  | binary op l r span ihl ihr => simp [predicates, ihl]
  | negation e span ih => exact ih
  | predicate kind text span => simp [predicates]

/-- The condition of a conjunction joins the conditions of its criteria, in the order of the line. -/
theorem Filter.condition_conjunction (least : Nat) {e : Filter} (hor : e.hasOr = false)
    (hnot : e.hasNot = false) {cs : List Criterion}
    (hcs : cs.map (fun c => (c.kind, c.render)) = e.predicates)
    (hwritten : ∀ c ∈ cs, Criterion.ofWritten c.render c.kind = .ok c) :
    ∃ c, e.condition least = .ok (c, []) ∧ c.conjuncts = cs.map Criterion.condition := by
  induction e generalizing cs with
  | binary op l r span ihl ihr =>
    cases op with
    | and =>
      simp only [hasOr, hasNot, Bool.or_eq_false_iff] at hor hnot
      obtain ⟨ls, rs, rfl, hls, hrs⟩ := List.map_eq_append_iff.1 hcs
      obtain ⟨c, hc, hcconj⟩ :=
        ihl hor.1 hnot.1 hls fun d hd => hwritten d (List.mem_append_left _ hd)
      obtain ⟨d, hd, hdconj⟩ :=
        ihr hor.2 hnot.2 hrs fun d hd => hwritten d (List.mem_append_right _ hd)
      refine ⟨.both c d, by rw [condition_and, hc, hd]; rfl, ?_⟩
      rw [Condition.conjuncts, hcconj, hdconj, List.map_append]
    | or => cases hor
  | negation e span ih => cases hnot
  | predicate kind text span =>
    obtain ⟨c, rfl, hc⟩ := List.map_eq_singleton_iff.1 hcs
    cases hc
    refine ⟨c.condition, ?_, c.conjuncts_condition⟩
    rw [condition, Criterion.ofPredicate_render (hwritten c (List.mem_singleton.2 rfl))]
    rfl

namespace Sql

/-- What a condition made of criteria joins. -/
theorem exists_all?_criteria {cs : List Criterion} (h : cs ≠ []) :
    ∃ c, Condition.all? (cs.map Criterion.condition) = some c ∧
      c.conjuncts = cs.map Criterion.condition := by
  cases cs with
  | nil => exact absurd rfl h
  | cons c cs =>
    refine ⟨_, rfl, ?_⟩
    rw [Condition.conjuncts_foldl, c.conjuncts_condition, Criterion.flatMap_conjuncts]
    rfl

/-- A flattened query asks for the same by its filter and by its columns: both conditions join the same
conditions by and, none of them a conjunction, each as often in the one as in the other, and so they
differ in order and grouping only and say the same of every row. -/
theorem columns_rearrange_filter (config : Config) {today : Date} {e : Filter} {r : ListRequest}
    (h : ListRequest.compile today e = .ok r) (hflat : r.flattened = true) :
    ∃ c d, Query.ofRequest config.leastFold r = .ok ⟨some c, []⟩ ∧
      Query.ofRequest config.leastFold { r with expr := none } = .ok ⟨some d, []⟩ ∧
      c.conjuncts.Perm d.conjuncts ∧ (∀ a ∈ c.conjuncts, a.isBoth = false) ∧
      ∀ db row, c.truth config db row = d.truth config db row := by
  cases he : e.normalize today with
  | error err => simp [ListRequest.compile, he] at h
  | ok e' =>
    have hnormal := Filter.isNormal_of_normalize he
    simp only [ListRequest.compile, he] at h
    cases hcolumns : e'.columns? with
    | none =>
      rw [ListRequest.ofNormalized, hcolumns] at h
      cases h
      cases hflat
    | some ps =>
      obtain ⟨cs, r', hr, ⟨hexpr, -⟩, hcs, hkinds, hwritten, hheld⟩ :=
        ListRequest.exists_criteria hnormal hcolumns
      cases Except.ok.inj (h.symm.trans hr)
      obtain ⟨⟨hor, hnot, -⟩, -⟩ := Filter.columns?_eq_some_iff.1 hcolumns
      obtain ⟨c, hc, hcconj⟩ :=
        Filter.condition_conjunction config.leastFold hor hnot hcs hwritten
      -- no kind comes twice in either list, so it is enough that they have the same members
      have hperm : cs.Perm r.criteria := by
        rw [List.perm_ext_iff_of_nodup hkinds.of_map r.nodup_criteria]
        exact fun a => ((hheld a).symm).trans ListRequest.mem_criteria.symm
      have hne : r.criteria ≠ [] := by
        intro hnil
        rw [hnil, List.perm_nil] at hperm
        rw [hperm] at hcs
        exact e'.predicates_ne_nil hcs.symm
      obtain ⟨d, hd, hdconj⟩ := exists_all?_criteria hne
      have hconj : c.conjuncts.Perm d.conjuncts := by
        rw [hcconj, hdconj]
        exact hperm.map _
      refine ⟨c, d, ?_, ?_, hconj, fun a => Condition.isBoth_of_mem_conjuncts, fun db row => ?_⟩
      · simp only [Query.ofRequest, hexpr, hc]
      · rw [Query.ofRequest, ← hd, ← ListRequest.columnConditions_eq]
        rfl
      · rw [← Condition.truth_conjuncts, ← Condition.truth_conjuncts,
          Truth.all_perm (hconj.map _)]

/-- The filter `due:tomorrow (id:#007 state:todo)`, whose columns are asked for in another order. -/
theorem columns_rearrange_filter_of_three :
    let today : Date := ⟨2026, 2, 8, by decide, by decide, by decide, by decide⟩
    let e := Filter.binary .and (.predicate .due "tomorrow".toList .zero)
      (.binary .and (.predicate .id "#007".toList .zero) (.predicate .state "todo".toList .zero)
        .zero) .zero
    let r := { ListRequest.all with
      state := some .inbox
      id := some 7
      due := some ⟨2026, 2, 9, by decide, by decide, by decide, by decide⟩
      expr := some (.binary .and (.predicate .due "2026-02-09".toList .zero)
        (.binary .and (.predicate .id "7".toList .zero) (.predicate .state "inbox".toList .zero)
          .zero) .zero)
      flattened := true }
    ListRequest.compile today e = .ok r ∧ r.flattened = true ∧
      ∃ c d, Query.ofRequest Config.standard.leastFold r = .ok ⟨some c, []⟩ ∧
        Query.ofRequest Config.standard.leastFold { r with expr := none } = .ok ⟨some d, []⟩ ∧
        c.conjuncts.Perm d.conjuncts ∧ (∀ a ∈ c.conjuncts, a.isBoth = false) ∧
        ∀ db row, c.truth .standard db row = d.truth .standard db row := by
  intro today e r
  have h : ListRequest.compile today e = .ok r := by decide +kernel
  exact ⟨h, rfl, columns_rearrange_filter .standard h rfl⟩

end Sql

end Agenda
