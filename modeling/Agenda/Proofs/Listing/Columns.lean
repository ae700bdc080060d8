import Agenda.Proofs.Listing.Normal
import Mathlib.Data.List.Infix
import Mathlib.Data.List.Nodup
/-!
# Columns of a query

A compiled filter and the columns of its query say the same in two ways: the filter compares texts, the
columns hold states, days, numbers and tags. `Filter.accepts` and `ListRequest.accepts` say of a task
what either asks for.

A criterion fills one column and leaves the others alone (`isHeldBy_fill_of_ne`), so criteria of different kinds
fill the columns that are theirs and no more (`isHeldBy_foldl_fill`). A column accepts the tasks that its
predicate accepts (`satisfies_render`), and a conjunction accepts what all of its predicates do
(`accepts_conjunction`).

Results: `fillAll_eq`; `compile_flattens`.
-/
namespace Agenda

structure Task where
  id : Nat
  state : TaskState
  due : Option Date
  projects : List Text
  contexts : List Text
  title : Text
  notes : Text
deriving DecidableEq, Repr

namespace Task

def tags (t : Task) : TagKind → List Text
  | .project => t.projects
  | .context => t.contexts

def mentions (t : Task) (s : Text) : Bool := decide (s <:+: t.title) || decide (s <:+: t.notes)

/-- What a predicate with a normalized text says of the task. -/
def satisfies (t : Task) (s : Text) : PredicateKind → Bool
  | .state => t.state.name == s
  | .due => if s = wildcard then t.due.isSome else t.due.any fun d => d.render == s
  | .project => if s = wildcard then !t.projects.isEmpty else t.projects.contains s
  | .context => if s = wildcard then !t.contexts.isEmpty else t.contexts.contains s
  | .text => t.mentions s
  | .id => Text.ofNat t.id == s

end Task

namespace Filter

/-- What a filter with normalized texts says of a task. -/
def accepts (t : Task) : Filter → Bool
  | binary .and l r _ => l.accepts t && r.accepts t
  | binary .or l r _ => l.accepts t || r.accepts t
  | negation e _ => !e.accepts t
  | predicate kind text _ => t.satisfies text kind

def hasOr : Filter → Bool
  | binary .or _ _ _ => true
  | binary .and l r _ => l.hasOr || r.hasOr
  | negation e _ => e.hasOr
  | predicate .. => false

def hasNot : Filter → Bool
  | binary _ l r _ => l.hasNot || r.hasNot
  | negation .. => true
  | predicate .. => false

end Filter

def TagMatch.accepts (names : List Text) : TagMatch → Bool
  | any => !names.isEmpty
  | named n => names.contains n

/-- What the columns of a query, taken together, say of a task. -/
def ListRequest.accepts (r : ListRequest) (t : Task) : Bool :=
  r.state.all (· == t.state) && r.project.all (·.accepts t.projects)
    && r.context.all (·.accepts t.contexts) && r.search.all t.mentions && r.id.all (· == t.id)
    && r.due.all (t.due == some ·) && (!r.dueOnly || t.due.isSome)

/-! ## Criteria in columns -/

namespace Criterion

/-- What a criterion says of a task. -/
def accepts (t : Task) : Criterion → Bool
  | state s => s == t.state
  | due none => t.due.isSome
  | due (some d) => t.due == some d
  | tag kind m => m.accepts (t.tags kind)
  | text s => t.mentions s
  | id n => n == t.id

/-- The column of the criterion holds it. -/
def IsHeldBy (r : ListRequest) : Criterion → Prop
  | state s => r.state = some s
  | due none => r.dueOnly = true
  | due (some d) => r.due = some d
  | tag .project m => r.project = some m
  | tag .context m => r.context = some m
  | text s => r.search = some s
  | id n => r.id = some n

theorem not_isHeldBy_all (c : Criterion) : ¬ c.IsHeldBy .all := by
  intro h
  rcases c with _ | (_ | _) | ⟨_ | _, _⟩ | _ | _ <;> cases h

/-- Filling a column leaves the columns of other kinds alone. -/
theorem isHeldBy_fill_of_ne {r : ListRequest} {c c' : Criterion} (h : c'.kind ≠ c.kind) :
    c'.IsHeldBy (c.fill r) ↔ c'.IsHeldBy r := by
  rcases c with _ | (_ | _) | ⟨_ | _, _⟩ | _ | _ <;>
    rcases c' with _ | (_ | _) | ⟨_ | _, _⟩ | _ | _ <;>
    first | exact Iff.rfl | exact absurd rfl h

/-- Where nothing of its kind is held yet, a criterion becomes the only one of its kind. -/
theorem isHeldBy_fill_of_eq {r : ListRequest} {c c' : Criterion} (h : c'.kind = c.kind)
    (hfree : ¬ c'.IsHeldBy r) : c'.IsHeldBy (c.fill r) ↔ c' = c := by
  rcases c with _ | (_ | _) | ⟨_ | _, _⟩ | _ | _ <;>
    rcases c' with _ | (_ | _) | ⟨_ | _, _⟩ | _ | _ <;>
    first
    | (cases h; done)
    | (simp [fill, IsHeldBy]; done)
    | (simp [fill, IsHeldBy]; exact eq_comm)
    | simpa [fill, IsHeldBy] using hfree

/-- Criteria of different kinds are held after they were filled in, and nothing else is. -/
theorem isHeldBy_foldl_fill {cs : List Criterion} {r : ListRequest} (hkinds : (cs.map kind).Nodup)
    (hfree : ∀ c ∈ cs, ∀ c' : Criterion, c'.kind = c.kind → ¬ c'.IsHeldBy r) (c' : Criterion) :
    c'.IsHeldBy (cs.foldl fill r) ↔ c' ∈ cs ∨ c'.IsHeldBy r := by
  induction cs generalizing r with
  | nil => simp
  | cons c cs ih =>
    rw [List.map_cons, List.nodup_cons] at hkinds
    have hne : ∀ d ∈ cs, d.kind ≠ c.kind := fun d hd hk =>
      hkinds.1 (hk ▸ List.mem_map_of_mem hd)
    have hfree' : ∀ d ∈ cs, ∀ c' : Criterion, c'.kind = d.kind → ¬ c'.IsHeldBy (c.fill r) := by
      intro d hd c' hk
      rw [isHeldBy_fill_of_ne (hk ▸ hne d hd)]
      exact hfree d (List.mem_cons_of_mem _ hd) c' hk
    rw [List.foldl_cons, ih hkinds.2 hfree', List.mem_cons]
    by_cases hk : c'.kind = c.kind
    · have hno : ¬ c'.IsHeldBy r := hfree c (List.mem_cons_self ..) c' hk
      rw [isHeldBy_fill_of_eq hk hno]
      tauto
    · have hc : c' ≠ c := fun h => hk (by rw [h])
      rw [isHeldBy_fill_of_ne hk]
      tauto

theorem isHeldBy_withFilter {r : ListRequest} {e : Option Filter} {b : Bool} (c : Criterion) :
    c.IsHeldBy { r with expr := e, flattened := b } ↔ c.IsHeldBy r := by
  rcases c with _ | (_ | _) | ⟨_ | _, _⟩ | _ | _ <;> exact Iff.rfl

/-- The columns accept a task when every criterion in them does. -/
theorem accepts_columns_iff {r : ListRequest} {t : Task} :
    r.accepts t = true ↔ ∀ c : Criterion, c.IsHeldBy r → c.accepts t = true := by
  simp only [ListRequest.accepts, Bool.and_eq_true, Option.all_eq_true]
  constructor
  · rintro ⟨⟨⟨⟨⟨⟨hstate, hproject⟩, hcontext⟩, hsearch⟩, hid⟩, hdue⟩, hdueOnly⟩ c hc
    rcases c with s | (_ | d) | ⟨_ | _, m⟩ | s | n
    · exact hstate s hc
    · rw [show r.dueOnly = true from hc] at hdueOnly
      exact hdueOnly
    · exact hdue d hc
    · exact hproject m hc
    · exact hcontext m hc
    · exact hsearch s hc
    · exact hid n hc
  · intro h
    refine ⟨⟨⟨⟨⟨⟨fun s hs => h (.state s) hs, fun m hm => h (.tag .project m) hm⟩,
      fun m hm => h (.tag .context m) hm⟩, fun s hs => h (.text s) hs⟩, fun n hn => h (.id n) hn⟩,
      fun d hd => h (.due (some d)) hd⟩, ?_⟩
    cases hd : r.dueOnly with
    | false => rfl
    | true => exact h (.due none) hd

/-! ## Criteria and texts -/

theorem name_injective {s s' : TaskState} (h : s.name = s'.name) : s = s' :=
  Option.some.inj (by rw [← TaskState.read?_name s, h, TaskState.read?_name])

theorem satisfies_tag (t : Task) (kind : TagKind) (s : Text) :
    (if s = wildcard then !(t.tags kind).isEmpty else (t.tags kind).contains s)
      = (tagMatch s).accepts (t.tags kind) := by
  unfold tagMatch
  split <;> rfl

/-- A predicate says of a task what the criterion says that its text spells. -/
theorem satisfies_render {c : Criterion} (h : ofWritten c.render c.kind = .ok c) (t : Task) :
    t.satisfies c.render c.kind = c.accepts t := by
  cases c with
  | state s =>
    show (t.state.name == s.name) = (s == t.state)
    rw [Bool.eq_iff_iff, beq_iff_eq, beq_iff_eq]
    exact ⟨fun hn => (name_injective hn).symm, fun hn => by rw [hn]⟩
  | due d =>
    cases d with
    | none => rfl
    | some d =>
      have hne : d.render ≠ wildcard := d.render_ne_wildcard
      show (if d.render = wildcard then _ else _) = (t.due == some d)
      rw [if_neg hne]
      cases t.due with
      | none => rfl
      | some d' =>
        rw [Option.any_some, Bool.eq_iff_iff, beq_iff_eq, beq_iff_eq, Option.some_inj]
        exact ⟨fun hd => Date.render_injective hd, fun hd => congrArg Date.render hd⟩
  | tag kind m =>
    have hm : m = tagMatch (tag kind m).render := by
      cases kind with
      | project => exact (Criterion.tag.inj (Except.ok.inj h)).2.symm
      | context => exact (Criterion.tag.inj (Except.ok.inj h)).2.symm
    cases kind with
    | project => exact (satisfies_tag t .project _).trans (by rw [← hm]; rfl)
    | context => exact (satisfies_tag t .context _).trans (by rw [← hm]; rfl)
  | text s => rfl
  | id n =>
    show (Text.ofNat t.id == Text.ofNat n) = (n == t.id)
    rw [Bool.eq_iff_iff, beq_iff_eq, beq_iff_eq]
    exact ⟨fun hn => (Text.ofNat_injective hn).symm, fun hn => by rw [hn]⟩

end Criterion

/-! ## Conjunctions -/

namespace Filter

theorem conjuncts?_eq_some_iff {e : Filter} {ps : List (PredicateKind × Text)} :
    e.conjuncts? = some ps ↔ e.hasOr = false ∧ e.hasNot = false ∧ e.predicates = ps := by
  induction e generalizing ps with
  | binary op l r span ihl ihr =>
    cases op with
    | and =>
      simp only [conjuncts?, hasOr, hasNot, predicates, Bool.or_eq_false_iff, Option.bind_eq_bind,
        Option.bind_eq_some_iff, ihl, ihr]
      constructor
      · rintro ⟨ls, ⟨hlo, hln, rfl⟩, rs, ⟨hro, hrn, rfl⟩, h⟩
        cases h
        exact ⟨⟨hlo, hro⟩, ⟨hln, hrn⟩, rfl⟩
      · rintro ⟨⟨hlo, hro⟩, ⟨hln, hrn⟩, rfl⟩
        exact ⟨_, ⟨hlo, hln, rfl⟩, _, ⟨hro, hrn, rfl⟩, rfl⟩
    | or => simp [conjuncts?, hasOr]
  | negation e span ih => simp [conjuncts?, hasNot]
  | predicate kind text span => simp [conjuncts?, hasOr, hasNot, predicates]

theorem columns?_eq_some_iff {e : Filter} {ps : List (PredicateKind × Text)} :
    e.columns? = some ps ↔ (e.hasOr = false ∧ e.hasNot = false ∧
      (e.predicates.map Prod.fst).Nodup) ∧ e.predicates = ps := by
  rw [columns?, Option.filter_eq_some_iff, conjuncts?_eq_some_iff, decide_eq_true_eq]
  constructor
  · rintro ⟨⟨ho, hn, rfl⟩, hkinds⟩
    exact ⟨⟨ho, hn, hkinds⟩, rfl⟩
  · rintro ⟨⟨ho, hn, hkinds⟩, rfl⟩
    exact ⟨⟨ho, hn, rfl⟩, hkinds⟩

/-- A conjunction accepts what all of its predicates accept. -/
theorem accepts_conjunction {e : Filter} (ho : e.hasOr = false) (hn : e.hasNot = false) (t : Task) :
    e.accepts t = e.predicates.all fun p => t.satisfies p.2 p.1 := by
  induction e with
  | binary op l r span ihl ihr =>
    cases op with
    | and =>
      simp only [hasOr, hasNot, Bool.or_eq_false_iff] at ho hn
      rw [accepts, predicates, List.all_append, ihl ho.1 hn.1, ihr ho.2 hn.2]
    | or => cases ho
  | negation e span ih => cases hn
  | predicate kind text span => simp [accepts, predicates]

end Filter

namespace ListRequest

/-- Texts that spell criteria fill their columns without an error. -/
theorem fillAll_eq {ps : List (PredicateKind × Text)}
    (h : ∀ kind text, (kind, text) ∈ ps →
      ∃ c : Criterion, c.kind = kind ∧ c.render = text ∧ Criterion.ofWritten text kind = .ok c)
    (r : ListRequest) :
    ∃ cs : List Criterion, cs.map (fun c => (c.kind, c.render)) = ps ∧
      (∀ c ∈ cs, Criterion.ofWritten c.render c.kind = .ok c) ∧
      fillAll r ps = .ok (cs.foldl Criterion.fill r) := by
  induction ps generalizing r with
  | nil => exact ⟨[], rfl, by simp, rfl⟩
  | cons p ps ih =>
    obtain ⟨kind, text⟩ := p
    obtain ⟨c, rfl, rfl, hc⟩ := h kind text (List.mem_cons_self ..)
    obtain ⟨cs, hcs, hwritten, hfill⟩ :=
      ih (fun kind text hmem => h kind text (List.mem_cons_of_mem _ hmem)) (c.fill r)
    refine ⟨c :: cs, by rw [List.map_cons, hcs], ?_, ?_⟩
    · intro d hd
      rcases List.mem_cons.1 hd with rfl | hd
      · exact hc
      · exact hwritten d hd
    · rw [fillAll, hc]; exact hfill

/-! ## Queries of filters -/

/-- What a query says in its columns of the normalized filter `e` that it asks for. -/
structure Flattens (e : Filter) (r : ListRequest) : Prop where
  expr : r.expr = some e
  /-- It is flattened when the filter has neither or nor not, and no kind of predicate twice. -/
  flattened_iff : r.flattened = true ↔
    e.hasOr = false ∧ e.hasNot = false ∧ (e.predicates.map Prod.fst).Nodup
  /-- Then the column of every predicate holds what its text spells. -/
  isHeldBy_of_mem : r.flattened = true → ∀ kind text, (kind, text) ∈ e.predicates →
    ∃ c : Criterion, c.kind = kind ∧ c.render = text ∧ c.IsHeldBy r
  /-- What a column holds is what a predicate of its kind spells. -/
  mem_of_isHeldBy : r.flattened = true → ∀ c : Criterion, c.IsHeldBy r →
    (c.kind, c.render) ∈ e.predicates
  /-- The columns and the filter accept the same tasks. -/
  accepts_eq : r.flattened = true → ∀ t, r.accepts t = e.accepts t
  /-- If it is not flattened, no column says anything. -/
  default : r.flattened = false → r = { all with expr := some e }

/-- The columns of a conjunction of different kinds hold one criterion for each predicate, and no more. -/
theorem exists_criteria {e : Filter} {ps : List (PredicateKind × Text)} (h : e.IsNormal)
    (hcolumns : e.columns? = some ps) :
    ∃ (cs : List Criterion) (r : ListRequest), ofNormalized e = .ok r ∧
      (r.expr = some e ∧ r.flattened = true) ∧
      cs.map (fun c => (c.kind, c.render)) = e.predicates ∧ (cs.map Criterion.kind).Nodup ∧
      (∀ c ∈ cs, Criterion.ofWritten c.render c.kind = .ok c) ∧
      ∀ c : Criterion, c.IsHeldBy r ↔ c ∈ cs := by
  obtain ⟨⟨-, -, hkinds⟩, rfl⟩ := Filter.columns?_eq_some_iff.1 hcolumns
  obtain ⟨cs, hcs, hwritten, hfill⟩ := fillAll_eq h all
  have hkinds' : (cs.map Criterion.kind).Nodup := by
    rw [← hcs, List.map_map] at hkinds
    exact hkinds
  refine ⟨cs, { cs.foldl Criterion.fill all with expr := some e, flattened := true },
    by rw [ofNormalized, hcolumns]; simp only [hfill, Except.map], ⟨rfl, rfl⟩, hcs, hkinds', hwritten,
    fun c => ?_⟩
  rw [Criterion.isHeldBy_withFilter,
    Criterion.isHeldBy_foldl_fill hkinds' fun _ _ c' _ => c'.not_isHeldBy_all]
  exact or_iff_left c.not_isHeldBy_all

theorem exists_flattens {e : Filter} (h : e.IsNormal) :
    ∃ r, ofNormalized e = .ok r ∧ r.Flattens e := by
  cases hcolumns : e.columns? with
  | none =>
    refine ⟨{ all with expr := some e }, by rw [ofNormalized, hcolumns], rfl, ?_,
      fun hf => (by cases hf), fun hf => (by cases hf), fun hf => (by cases hf), fun _ => rfl⟩
    have hno : ∀ ps, e.columns? ≠ some ps := by rw [hcolumns]; simp
    refine ⟨fun hf => (by cases hf), fun hflat => ?_⟩
    exact absurd (Filter.columns?_eq_some_iff.2 ⟨hflat, rfl⟩) (hno _)
  | some ps =>
    obtain ⟨⟨hor, hnot, hkinds⟩, -⟩ := Filter.columns?_eq_some_iff.1 hcolumns
    obtain ⟨cs, r, hr, ⟨hexpr, hflat⟩, hcs, -, hwritten, hheld⟩ := exists_criteria h hcolumns
    refine ⟨r, hr, hexpr, ⟨fun _ => ⟨hor, hnot, hkinds⟩, fun _ => hflat⟩,
      fun _ kind text hmem => ?_, fun _ c hc => ?_, fun _ t => ?_,
      fun hf => by rw [hflat] at hf; cases hf⟩
    · rw [← hcs] at hmem
      obtain ⟨c, hc, he⟩ := List.mem_map.1 hmem
      cases he
      exact ⟨c, rfl, rfl, (hheld c).2 hc⟩
    · rw [← hcs]
      exact List.mem_map_of_mem ((hheld c).1 hc)
    · rw [Bool.eq_iff_iff, Criterion.accepts_columns_iff, Filter.accepts_conjunction hor hnot, ← hcs,
        List.all_map, List.all_eq_true]
      refine forall_congr' fun c => ?_
      rw [hheld]
      refine imp_congr_right fun hc => ?_
      rw [Function.comp, Criterion.satisfies_render (hwritten c hc)]

/-- Filling the columns loses nothing of a filter and adds no error to it: whatever the filter and the
day, a query fails just as the normalization of its filter does, and otherwise its columns say what the
normalized filter says, or nothing. -/
theorem compile_flattens (today : Date) (e : Filter) :
    match e.normalize today with
    | .error err => compile today e = .error err
    | .ok e' => ∃ r, compile today e = .ok r ∧ r.Flattens e' := by
  cases he : e.normalize today with
  | error err => simp only [compile, he]
  | ok e' =>
    simp only [compile, he]
    exact exists_flattens (Filter.isNormal_of_normalize he)

/-- A day beyond the year 9999 is read back from the filter into its column. -/
example :
    let today : Date := ⟨2026, 2, 8, by decide, by decide, by decide, by decide⟩
    compile today (.predicate .due "in 3000000 days".toList .zero)
      = .ok { all with
          expr := some (.predicate .due "+10239-10-30".toList .zero)
          due := some ⟨10239, 10, 30, by decide, by decide, by decide, by decide⟩
          flattened := true } := by
  decide +kernel

end ListRequest

end Agenda
