import Agenda.Proofs.Plan.Item
import Agenda.Proofs.Sql.Folding
import Mathlib.Data.List.Forall2
/-!
# Reported lists

A part of a filter can be listed when it has nothing but or, offers values of one column with no wildcard
among them, and offers enough of them (`Spot.CanBeListedIn`). Of such parts, which may lie within each
other, the largest are listed: a query reports them from left to right, each with its column and the
number of its values, and its condition holds one list for each, with the values in their order.

A place in a filter is the way to it from the root. A part lies within another when the way to it goes on
from the way to the other.

Results: what folds is what can be listed (`Filter.folded?_eq_some_iff`); the spots that a query lists are
the largest (`Filter.mem_spots_iff`), from left to right (`Filter.pairwise_spots`), and its condition
reports them (`Filter.areReportedBy_of_condition`); and `reports_are_the_largest_lists`.
-/
namespace Agenda

open Sql

/-! ## Places in a filter -/

/-- Where to go from a filter to a part of it. -/
inductive Turn where
  | left
  | right
  | inner
deriving DecidableEq, Repr

def Filter.child? : Filter → Turn → Option Filter
  | .binary _ l _ _, .left => some l
  | .binary _ _ r _, .right => some r
  | .negation e _, .inner => some e
  | _, _ => none

/-- The part of a filter at the end of a way. -/
def Filter.at? (e : Filter) : List Turn → Option Filter
  | [] => some e
  | turn :: way => (e.child? turn).bind fun e' => e'.at? way

/-- One way leads to the left of another. -/
def LeftOf (p q : List Turn) : Prop :=
  ∃ way p' q', p = way ++ .left :: p' ∧ q = way ++ .right :: q'

theorem LeftOf.cons {p q : List Turn} (h : LeftOf p q) (turn : Turn) :
    LeftOf (turn :: p) (turn :: q) := by
  obtain ⟨way, p', q', rfl, rfl⟩ := h
  exact ⟨turn :: way, p', q', rfl, rfl⟩

theorem leftOf_cons_cons (p q : List Turn) : LeftOf (.left :: p) (.right :: q) := ⟨[], p, q, rfl, rfl⟩

/-- Of two ways, one to the left of the other, neither goes on from the other. -/
theorem LeftOf.not_isPrefix {p q : List Turn} (h : LeftOf p q) : ¬ p <+: q ∧ ¬ q <+: p := by
  obtain ⟨way, p', q', rfl, rfl⟩ := h
  simp [List.prefix_append_right_inj]

/-! ## What can be listed -/

/-- A filter has nothing but or and offers these values of a column, none of them the wildcard. -/
inductive Filter.Offers (column : Listable) : Filter → List Text → Prop
  | value {text : Text} {span : Span} (h : text ≠ wildcard) :
      Offers column (.predicate column.kind text span) [text]
  | or {l r : Filter} {span : Span} {vs ws : List Text} (hl : Offers column l vs)
      (hr : Offers column r ws) : Offers column (.binary .or l r span) (vs ++ ws)

structure Spot where
  way : List Turn
  column : Listable
  values : List Text
deriving DecidableEq, Repr

namespace Spot

/-- The part of a filter is an or of at least `least` values of the column. -/
def CanBeListedIn (s : Spot) (least : Nat) (e : Filter) : Prop :=
  ∃ l r span, e.at? s.way = some (.binary .or l r span) ∧
    (Filter.binary .or l r span).Offers s.column s.values ∧ least ≤ s.values.length

/-- The part can be listed and lies within no other that can. -/
structure IsLargestIn (s : Spot) (least : Nat) (e : Filter) : Prop where
  listed : s.CanBeListedIn least e
  largest : ∀ t : Spot, t.CanBeListedIn least e → t.way <+: s.way → t.way = s.way

def report (s : Spot) : Fold := ⟨s.column.kind, s.values.length⟩

end Spot

namespace Sql.Condition

/-- The condition is a list of the values of a column, in order. -/
inductive IsListOf : Condition → Listable → List Text → Prop
  | state {values : List Text} : IsListOf (.among .state (values.map .text)) .state values
  | id {values : List Text} {ns : List Nat} (h : List.Forall₂ (fun v n => readId v = .ok n) values ns) :
      IsListOf (.among .id (ns.map .number)) .id values
  | tag (kind : TagKind) {values : List Text} : IsListOf (.taggedAmong kind values) (.tag kind) values

def lists : Condition → List Condition
  | among column values => [among column values]
  | taggedAmong kind names => [taggedAmong kind names]
  | both c d | either c d => c.lists ++ d.lists
  | not c => c.lists
  | _ => []

end Sql.Condition

/-! ## What folds -/

namespace Filter

theorem offers_of_alternatives? {e : Filter} {column : Listable} {values : List Text}
    (h : e.alternatives? = some (values.map fun v => (column.kind, v)))
    (hwild : ∀ v ∈ values, v ≠ wildcard) : e.Offers column values := by
  induction e generalizing values with
  | binary op l r span ihl ihr =>
    cases op with
    | and => cases h
    | or =>
      simp only [alternatives?, Option.bind_eq_bind, Option.bind_eq_some_iff] at h
      obtain ⟨ls, hl, rs, hr, he⟩ := h
      obtain ⟨vs, ws, rfl, rfl, rfl⟩ := List.map_eq_append_iff.1 (Option.some.inj he).symm
      obtain ⟨hvs, hws⟩ := List.forall_mem_append.1 hwild
      exact .or (ihl hl hvs) (ihr hr hws)
  | negation e span ih => cases h
  | predicate kind text span =>
    obtain ⟨v, rfl, hv⟩ := List.map_eq_singleton_iff.1 (Option.some.inj h).symm
    cases hv
    exact .value (hwild text List.mem_cons_self)

theorem Offers.alternatives? {e : Filter} {column : Listable} {values : List Text}
    (h : e.Offers column values) :
    e.alternatives? = some (values.map fun v => (column.kind, v)) ∧ (∀ v ∈ values, v ≠ wildcard)
      ∧ values ≠ [] := by
  induction h with
  | value hv => exact ⟨rfl, List.forall_mem_singleton.2 hv, List.cons_ne_nil _ _⟩
  | or _ _ ihl ihr =>
    obtain ⟨hl, hwildl, hne⟩ := ihl
    obtain ⟨hr, hwildr, -⟩ := ihr
    refine ⟨?_, List.forall_mem_append.2 ⟨hwildl, hwildr⟩, List.append_ne_nil_of_left_ne_nil hne _⟩
    rw [Filter.alternatives?, hl, hr, List.map_append]
    rfl

theorem values?_map {least : Nat} {column : Listable} {values : List Text} (hne : values ≠ [])
    (hwild : ∀ v ∈ values, v ≠ wildcard) :
    values? least (values.map fun v => (column.kind, v))
      = if least ≤ values.length then some (column, values) else none := by
  obtain ⟨v, vs, rfl⟩ := List.exists_cons_of_ne_nil hne
  have hkind : Listable.ofKind? column.kind = some column := by
    cases column with
    | tag kind => cases kind <;> rfl
    | _ => rfl
  have hall : ((v :: vs).map fun v => (column.kind, v)).all
      (fun leaf => leaf.1 = column.kind ∧ leaf.2 ≠ wildcard) = true := by
    refine List.all_eq_true.2 fun leaf hleaf => ?_
    obtain ⟨v, hv, rfl⟩ := List.mem_map.1 hleaf
    exact decide_eq_true ⟨rfl, hwild v hv⟩
  simp only [List.map_cons] at hall
  simp only [List.map_cons, values?, hall, and_true, List.length_cons, List.length_map, hkind,
    Option.map_some, List.map_map]
  simp [Function.comp_def]

/-- What folds is what offers enough values of one column. -/
theorem folded?_eq_some_iff {least : Nat} {e : Filter} {column : Listable} {values : List Text} :
    e.folded? least = some (column, values) ↔ e.Offers column values ∧ least ≤ values.length := by
  constructor
  · intro h
    obtain ⟨leaves, halt, hvalues⟩ := Option.bind_eq_some_iff.1 h
    obtain ⟨rfl, hwild⟩ := leaves_of_values? hvalues
    have hoffers := offers_of_alternatives? halt hwild
    rw [values?_map hoffers.alternatives?.2.2 hwild] at hvalues
    exact ⟨hoffers, (Option.ite_none_right_eq_some.1 hvalues).1⟩
  · rintro ⟨hoffers, hleast⟩
    obtain ⟨halt, hwild, hne⟩ := hoffers.alternatives?
    rw [folded?, halt, Option.bind_some, values?_map hne hwild, if_pos hleast]

end Filter

/-! ## Largest parts that can be listed -/

namespace Spot

/-- The part of a filter that is found in the same way behind one more turn. -/
def under (turn : Turn) (s : Spot) : Spot := { s with way := turn :: s.way }

variable {least : Nat} {e e' : Filter} {s : Spot}

/-- The whole of an or can be listed exactly if it folds. -/
theorem canBeListedIn_root {l r : Filter} {span : Span} (h : s.way = []) :
    s.CanBeListedIn least (.binary .or l r span)
      ↔ Filter.folded? least (.binary .or l r span) = some (s.column, s.values) := by
  rw [Filter.folded?_eq_some_iff, CanBeListedIn, h]
  constructor
  · rintro ⟨l', r', span', he, hoffers⟩
    cases he
    exact hoffers
  · exact fun hoffers => ⟨l, r, span, rfl, hoffers⟩

/-- What can be listed in a part can be listed in the whole, behind the turn to the part. -/
theorem canBeListedIn_under {turn : Turn} (h : e.child? turn = some e') :
    (s.under turn).CanBeListedIn least e ↔ s.CanBeListedIn least e' := by
  simp only [CanBeListedIn, under, Filter.at?, h, Option.bind_some]

theorem exists_child_of_canBeListedIn {turn : Turn} {way : List Turn} (hway : s.way = turn :: way)
    (h : s.CanBeListedIn least e) : ∃ e', e.child? turn = some e' := by
  obtain ⟨_, _, _, hat, -⟩ := h
  rw [hway, Filter.at?] at hat
  obtain ⟨e', hchild, -⟩ := Option.bind_eq_some_iff.1 hat
  exact ⟨e', hchild⟩

/-- Where the whole cannot be listed, the largest parts that can are those of its parts. -/
theorem isLargestIn_iff (hroot : ∀ t : Spot, t.way = [] → ¬ t.CanBeListedIn least e) :
    s.IsLargestIn least e
      ↔ ∃ turn e' t, e.child? turn = some e' ∧ t.IsLargestIn least e' ∧ under turn t = s := by
  constructor
  · rintro ⟨hlisted, hlargest⟩
    obtain ⟨way, column, values⟩ := s
    cases way with
    | nil => exact absurd hlisted (hroot _ rfl)
    | cons turn way =>
      obtain ⟨e', hchild⟩ := exists_child_of_canBeListedIn rfl hlisted
      refine ⟨turn, e', ⟨way, column, values⟩, hchild, ⟨(canBeListedIn_under hchild).1 hlisted, ?_⟩, rfl⟩
      intro t ht hprefix
      have hunder := hlargest (t.under turn) ((canBeListedIn_under hchild).2 ht)
        (List.cons_prefix_cons.2 ⟨rfl, hprefix⟩)
      exact (List.cons.inj hunder).2
  · rintro ⟨turn, e', s, hchild, ⟨hlisted, hlargest⟩, rfl⟩
    refine ⟨(canBeListedIn_under hchild).2 hlisted, fun t ht hprefix => ?_⟩
    obtain ⟨way, column, values⟩ := t
    cases way with
    | nil => exact absurd ht (hroot _ rfl)
    | cons turn' way =>
      obtain ⟨rfl, hway⟩ := List.cons_prefix_cons.1 hprefix
      exact congrArg (turn' :: ·)
        (hlargest ⟨way, column, values⟩ ((canBeListedIn_under hchild).1 ht) hway)

/-- Nothing but an or can be listed as a whole. -/
theorem not_canBeListedIn_root (h : ∀ l r span, e ≠ .binary .or l r span) (hway : s.way = []) :
    ¬ s.CanBeListedIn least e := by
  rintro ⟨l, r, span, hat, -⟩
  rw [hway] at hat
  exact h l r span (Option.some.inj hat)

/-- An or that folds is itself the largest part that can be listed, and the only one. -/
theorem isLargestIn_iff_of_folded {l r : Filter} {span : Span} {column : Listable} {values : List Text}
    (hfold : Filter.folded? least (.binary .or l r span) = some (column, values)) :
    s.IsLargestIn least (.binary .or l r span) ↔ s = ⟨[], column, values⟩ := by
  constructor
  · intro hs
    have hway : [] = s.way :=
      hs.largest ⟨[], column, values⟩ ((canBeListedIn_root rfl).2 hfold) List.nil_prefix
    have hvalues := (canBeListedIn_root hway.symm).1 hs.listed
    rw [hfold] at hvalues
    obtain ⟨way, column', values'⟩ := s
    cases hway
    cases hvalues
    rfl
  · rintro rfl
    exact ⟨(canBeListedIn_root rfl).2 hfold, fun t _ hprefix => List.prefix_nil.1 hprefix⟩

end Spot

namespace Filter

/-- The spots that a query lists, from left to right. -/
def spots (least : Nat) : Filter → List Spot
  | binary .or l r span =>
    match folded? least (binary .or l r span) with
    | some (column, values) => [⟨[], column, values⟩]
    | none => (l.spots least).map (.under .left) ++ (r.spots least).map (.under .right)
  | binary .and l r _ => (l.spots least).map (.under .left) ++ (r.spots least).map (.under .right)
  | negation e _ => (e.spots least).map (.under .inner)
  | predicate .. => []

variable {least : Nat}

/-- Where the whole is not listed, the spots of the two parts are found behind a turn. -/
theorem mem_spots_binary_iff {op : BoolOp} {l r : Filter} {span : Span} {s : Spot}
    (hl : ∀ t, t ∈ l.spots least ↔ t.IsLargestIn least l)
    (hr : ∀ t, t ∈ r.spots least ↔ t.IsLargestIn least r)
    (hroot : ∀ t : Spot, t.way = [] → ¬ t.CanBeListedIn least (.binary op l r span)) :
    s ∈ (l.spots least).map (Spot.under .left) ++ (r.spots least).map (Spot.under .right)
      ↔ s.IsLargestIn least (.binary op l r span) := by
  rw [Spot.isLargestIn_iff hroot, List.mem_append, List.mem_map, List.mem_map]
  simp only [hl, hr]
  constructor
  · rintro (⟨t, ht⟩ | ⟨t, ht⟩)
    · exact ⟨.left, l, t, rfl, ht⟩
    · exact ⟨.right, r, t, rfl, ht⟩
  · rintro ⟨turn, e', t, hchild, ht⟩
    cases turn with
    | left => cases hchild; exact Or.inl ⟨t, ht⟩
    | right => cases hchild; exact Or.inr ⟨t, ht⟩
    | inner => cases hchild

/-- The spots that a query lists are the largest parts that can be listed. -/
theorem mem_spots_iff {e : Filter} {s : Spot} : s ∈ e.spots least ↔ s.IsLargestIn least e := by
  induction e generalizing s with
  | binary op l r span ihl ihr =>
    cases op with
    | and =>
      exact mem_spots_binary_iff (fun _ => ihl) (fun _ => ihr)
        fun t => Spot.not_canBeListedIn_root nofun
    | or =>
      rw [spots]
      split
      · next column values hfold => rw [List.mem_singleton, Spot.isLargestIn_iff_of_folded hfold]
      · next hfold =>
        refine mem_spots_binary_iff (fun _ => ihl) (fun _ => ihr) fun t ht hlisted => ?_
        cases hfold.symm.trans ((Spot.canBeListedIn_root ht).1 hlisted)
  | negation e span ih =>
    have hroot (t : Spot) : t.way = [] → ¬ t.CanBeListedIn least (.negation e span) :=
      Spot.not_canBeListedIn_root nofun
    rw [Spot.isLargestIn_iff hroot, spots, List.mem_map]
    simp only [ih]
    constructor
    · rintro ⟨t, ht⟩
      exact ⟨.inner, e, t, rfl, ht⟩
    · rintro ⟨turn, e', t, hchild, ht⟩
      cases turn with
      | inner => cases hchild; exact ⟨t, ht⟩
      | _ => cases hchild
  | predicate kind text span =>
    have hroot (t : Spot) : t.way = [] → ¬ t.CanBeListedIn least (.predicate kind text span) :=
      Spot.not_canBeListedIn_root nofun
    rw [Spot.isLargestIn_iff hroot]
    exact iff_of_false List.not_mem_nil nofun

/-- The spots of a filter stand from left to right. -/
theorem pairwise_spots (e : Filter) : (e.spots least).Pairwise fun s t => LeftOf s.way t.way := by
  have hjoined {l r : Filter} (hl : (l.spots least).Pairwise fun s t => LeftOf s.way t.way)
      (hr : (r.spots least).Pairwise fun s t => LeftOf s.way t.way) :
      ((l.spots least).map (Spot.under .left) ++ (r.spots least).map (Spot.under .right)).Pairwise
        fun s t => LeftOf s.way t.way := by
    refine List.pairwise_append.2 ⟨?_, ?_, ?_⟩
    · exact List.pairwise_map.2 (hl.imp fun h => h.cons .left)
    · exact List.pairwise_map.2 (hr.imp fun h => h.cons .right)
    · intro s hs t ht
      obtain ⟨s, -, rfl⟩ := List.mem_map.1 hs
      obtain ⟨t, -, rfl⟩ := List.mem_map.1 ht
      exact leftOf_cons_cons s.way t.way
  induction e with
  | binary op l r span ihl ihr =>
    cases op with
    | and => exact hjoined ihl ihr
    | or =>
      rw [spots]
      split
      · exact List.pairwise_singleton _ _
      · exact hjoined ihl ihr
  | negation e span ih => exact List.pairwise_map.2 (ih.imp fun h => h.cons .inner)
  | predicate => exact List.Pairwise.nil

/-- No spot lies within another. -/
theorem eq_of_isPrefix {e : Filter} {s t : Spot} (hs : s ∈ e.spots least) (ht : t ∈ e.spots least)
    (h : s.way <+: t.way) : s = t := by
  by_contra hne
  have hapart : (e.spots least).Pairwise fun s t => LeftOf s.way t.way ∨ LeftOf t.way s.way :=
    (pairwise_spots e).imp Or.inl
  have hsymm : Std.Symm fun s t : Spot => LeftOf s.way t.way ∨ LeftOf t.way s.way :=
    ⟨fun _ _ => Or.symm⟩
  rcases hapart.forall hs ht hne with hleft | hright
  · exact hleft.not_isPrefix.1 h
  · exact hright.not_isPrefix.2 h

end Filter

/-! ## Conditions and reports -/

namespace Sql.Condition

/-- The condition of a single predicate has no list. -/
theorem lists_ofPredicate {text : Text} {kind : PredicateKind} {c : Condition}
    (h : ofPredicate text kind = .ok c) : c.lists = [] := by
  cases kind with
  | due =>
    cases h
    split <;> rfl
  | id =>
    obtain ⟨n, -, rfl⟩ := exists_of_map_eq_ok h
    rfl
  | _ => cases h; rfl

/-- The condition of what folds is one list of its values. -/
theorem isListOf_ofValues {values : List Text} {column : Listable} {c : Condition}
    (h : ofValues values column = .ok c) : c.lists = [c] ∧ c.IsListOf column values := by
  cases column with
  | state => cases h; exact ⟨rfl, .state⟩
  | id =>
    obtain ⟨ns, hns, rfl⟩ := exists_of_map_eq_ok h
    rw [readIds_eq_readAll] at hns
    exact ⟨rfl, .id (Value.forall₂_of_readAll hns)⟩
  | tag kind => cases h; exact ⟨rfl, .tag kind⟩

end Sql.Condition

namespace Sql

/-- Each spot is reported, and a condition has one list for each, of its values. -/
structure AreReportedBy (spots : List Spot) (folds : List Fold) (c : Condition) : Prop where
  folds_eq : folds = spots.map Spot.report
  lists : List.Forall₂ (fun s list => list.IsListOf s.column s.values) spots c.lists

namespace AreReportedBy

variable {ss ts : List Spot} {fs gs : List Fold} {c d joined : Condition}

theorem under (h : AreReportedBy ss fs c) (turn : Turn) : AreReportedBy (ss.map (.under turn)) fs c where
  folds_eq := by rw [h.folds_eq, List.map_map]; rfl
  lists := List.forall₂_map_left_iff.2 h.lists

theorem append (hc : AreReportedBy ss fs c) (hd : AreReportedBy ts gs d)
    (h : joined.lists = c.lists ++ d.lists) : AreReportedBy (ss ++ ts) (fs ++ gs) joined where
  folds_eq := by rw [hc.folds_eq, hd.folds_eq, List.map_append]
  lists := by rw [h]; exact List.rel_append hc.lists hd.lists

end AreReportedBy

end Sql

/-- The condition of a filter reports its spots. -/
theorem Filter.areReportedBy_of_condition {least : Nat} {e : Filter} {c : Condition} {folds : List Fold}
    (h : e.condition least = .ok (c, folds)) : AreReportedBy (e.spots least) folds c := by
  induction e generalizing c folds with
  | binary op l r span ihl ihr =>
    have hjoined {join : Condition → Condition → Condition}
        (hjoin : ∀ c d, (join c d).lists = c.lists ++ d.lists)
        (h : ((l.condition least).bind fun p =>
          (r.condition least).map fun q => (join p.1 q.1, p.2 ++ q.2)) = .ok (c, folds)) :
        AreReportedBy ((l.spots least).map (Spot.under .left) ++ (r.spots least).map (Spot.under .right))
          folds c := by
      cases hl : l.condition least with
      | error cause => rw [hl] at h; cases h
      | ok p =>
        rw [hl] at h
        obtain ⟨q, hr, hq⟩ := exists_of_map_eq_ok h
        cases hq
        exact ((ihl hl).under .left).append ((ihr hr).under .right) (hjoin p.1 q.1)
    cases op with
    | and =>
      rw [condition_and] at h
      exact hjoined (fun _ _ => rfl) h
    | or =>
      rw [spots]
      split
      · next column values hfold =>
        rw [condition_folded hfold] at h
        obtain ⟨c, hc, heq⟩ := exists_of_map_eq_ok h
        cases heq
        obtain ⟨hlists, hlist⟩ := Condition.isListOf_ofValues hc
        exact ⟨rfl, hlists ▸ .cons hlist .nil⟩
      · next hfold =>
        rw [condition_or hfold] at h
        exact hjoined (fun _ _ => rfl) h
  | negation e span ih =>
    rw [condition] at h
    obtain ⟨⟨c, fs⟩, hc, heq⟩ := exists_of_map_eq_ok h
    cases heq
    obtain ⟨hfolds, hlists⟩ := (ih hc).under .inner
    exact ⟨hfolds, hlists⟩
  | predicate kind text span =>
    rw [condition] at h
    obtain ⟨c, hc, heq⟩ := exists_of_map_eq_ok h
    cases heq
    refine ⟨rfl, ?_⟩
    rw [Condition.lists_ofPredicate hc]
    exact .nil

/-- A query lists these parts of its filter: the largest that can be listed, from left to right, and
none within another. It reports each, and its condition has one list for each, of the values in order. -/
structure Sql.Query.ListsSpots (q : Query) (least : Nat) (e : Filter) (spots : List Spot) : Prop where
  mem_iff : ∀ s, s ∈ spots ↔ s.IsLargestIn least e
  ordered : spots.Pairwise fun s t => LeftOf s.way t.way
  apart : ∀ s ∈ spots, ∀ t ∈ spots, s.way <+: t.way → s = t
  folds_eq : q.folds = spots.map fun s => ⟨s.column.kind, s.values.length⟩
  lists : ∃ c, q.condition = some c ∧
    List.Forall₂ (fun s list => list.IsListOf s.column s.values) spots c.lists

/-- Every query reports the largest parts of its filter that can be listed. -/
theorem reports_are_the_largest_lists {least : Nat} {r : ListRequest} {e : Filter} {q : Query}
    (he : r.expr = some e) (h : Query.ofRequest least r = .ok q) :
    ∃ spots, q.ListsSpots least e spots := by
  unfold Query.ofRequest at h
  rw [he] at h
  split at h
  · next heq => cases heq
  · next e' heq =>
    cases heq
    split at h
    · cases h
    · next c folds hc =>
      cases h
      obtain ⟨hfolds, hlists⟩ := Filter.areReportedBy_of_condition hc
      exact ⟨e.spots least, fun s => Filter.mem_spots_iff, Filter.pairwise_spots e,
        fun s hs t ht => Filter.eq_of_isPrefix hs ht, hfolds, c, rfl, hlists⟩

/-- Two states are listed although a project stands beside them, and three numbers as one list. -/
theorem reports_are_the_largest_lists_here :
    let predicate (kind : PredicateKind) (text : String) : Filter := .predicate kind text.toList .zero
    let states : Filter := .binary .or (predicate .state "inbox") (predicate .state "now") .zero
    let numbers : Filter :=
      .binary .or (predicate .id "3") (.binary .or (predicate .id "7") (predicate .id "4") .zero) .zero
    let e : Filter :=
      .binary .and (.binary .or states (predicate .project "home") .zero) (.negation numbers .zero) .zero
    ∃ q spots, Query.ofRequest 2 { ListRequest.all with expr := some e } = .ok q ∧
      q.ListsSpots 2 e spots ∧ q.folds = [⟨.state, 2⟩, ⟨.id, 3⟩] := by
  intro predicate states numbers e
  have hfolds : (Query.ofRequest 2 { ListRequest.all with expr := some e }).map Query.folds
      = .ok [⟨.state, 2⟩, ⟨.id, 3⟩] := by decide +kernel
  obtain ⟨q, hq, hqfolds⟩ := exists_of_map_eq_ok hfolds
  obtain ⟨spots, hspots⟩ := reports_are_the_largest_lists rfl hq
  exact ⟨q, spots, hq, hspots, hqfolds⟩

end Agenda
