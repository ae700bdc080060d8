import Agenda.Proofs.Reading
import Agenda.Proofs.Sql.Conjunction
/-!
# Numbers of tasks

Two readers meet at the number of a task. Compiling a filter takes one hash, digits and a number from one
up; asking its query takes any hashes, a sign and the number 0 as well, and what it reads are the texts
of the compiled filter. So a query that compiles can always be asked, however many values make a list,
and the numbers in it are those that the predicates of the line ask for (`AsksFor`): one literal for
each predicate, in the order of the line, through lists as well (`idLiterals_condition`).

Results: `asksFor_of_readTaskId?`; `exists_condition`; `compiled_request_can_be_asked`.
-/
namespace Agenda

open Sql

/-! ## Numbers in a filter -/

/-- A predicate with the text `s` asks for the task of number `n`: without blanks around it and a hash in
front, the text is digits, and without zeros in front these are the decimal digits of `n`, which is not
zero. -/
structure AsksFor (s : Text) (n : Nat) : Prop where
  pos : 0 < n
  digits : ∃ digits, (Text.trim s = digits ∨ Text.trim s = '#' :: digits) ∧
    (∀ c ∈ digits, c.isDigit = true) ∧ digits.dropWhile (· == '0') = Text.ofNat n

theorem asksFor_of_readTaskId? {s : Text} {n : Nat}
    (h : Criterion.readTaskId? (Text.trim s) = some n) : AsksFor s n := by
  have hpos : 0 < n := (Criterion.bounds_of_readTaskId? h).1
  have hdigits {digits : Text} (h : (Text.readNat? digits).filter
      (fun n => 0 < n && n < Text.wordBound) = some n) :
      (∀ c ∈ digits, c.isDigit = true) ∧ digits.dropWhile (· == '0') = Text.ofNat n := by
    obtain ⟨⟨-, hdigits⟩, rfl⟩ := Text.readNat?_eq_some_iff.1 (Option.mem_filter_iff.1 h).1
    have hall : ∀ c ∈ digits, c.isDigit = true := List.all_eq_true.1 hdigits
    exact ⟨hall, (Text.ofNat_valueFrom_zero hall hpos).symm⟩
  unfold Criterion.readTaskId? at h
  split at h
  · next digits htrim => exact ⟨hpos, digits, Or.inr htrim, hdigits h⟩
  · exact ⟨hpos, _, Or.inl rfl, hdigits h⟩

namespace Filter

def idTexts (e : Filter) : List Text :=
  (e.predicates.filter fun p => p.1 = .id).map Prod.snd

theorem idTexts_binary (op : BoolOp) (l r : Filter) (span : Span) :
    (binary op l r span).idTexts = l.idTexts ++ r.idTexts := by
  simp only [idTexts, predicates, List.filter_append, List.map_append]

theorem idTexts_negation (e : Filter) (span : Span) : (negation e span).idTexts = e.idTexts := rfl

theorem idTexts_predicate_id (text : Text) (span : Span) :
    (predicate .id text span).idTexts = [text] := rfl

theorem idTexts_predicate {kind : PredicateKind} (h : kind ≠ .id) (text : Text) (span : Span) :
    (predicate kind text span).idTexts = [] := by
  simp [idTexts, predicates, h]

/-- A compiled filter has the digits of the numbers that the filter asks for. -/
theorem exists_numbers_of_normalize {today : Date} {e e' : Filter}
    (h : e.normalize today = .ok e') :
    ∃ ns : List Nat, List.Forall₂ AsksFor e.idTexts ns ∧ e'.idTexts = ns.map Text.ofNat ∧
      ∀ n ∈ ns, n < Text.wordBound := by
  induction e generalizing e' with
  | binary op l r span ihl ihr =>
    rw [normalize] at h
    split at h
    · cases h
    · next l' hl =>
      obtain ⟨r', hr, rfl⟩ := exists_of_map_eq_ok h
      obtain ⟨ms, hms, hmtexts, hmbound⟩ := ihl hl
      obtain ⟨ns, hns, hntexts, hnbound⟩ := ihr hr
      refine ⟨ms ++ ns, ?_, ?_, fun n hn => ?_⟩
      · rw [idTexts_binary]
        exact List.rel_append hms hns
      · rw [idTexts_binary, hmtexts, hntexts, List.map_append]
      · exact (List.mem_append.1 hn).elim (hmbound n) (hnbound n)
  | negation e span ih =>
    rw [normalize] at h
    obtain ⟨inner, hinner, rfl⟩ := exists_of_map_eq_ok h
    rw [idTexts_negation, idTexts_negation]
    exact ih hinner
  | predicate kind text span =>
    rw [normalize] at h
    split at h
    · cases h
    · next c hc =>
      cases h
      by_cases hkind : kind = .id
      · subst hkind
        simp only [Criterion.ofPredicate, Criterion.ofTrimmed] at hc
        split at hc
        · next n hn =>
          cases hc
          refine ⟨[n], .cons (asksFor_of_readTaskId? hn) .nil, rfl, fun m hm => ?_⟩
          rw [List.mem_singleton.1 hm]
          exact (Criterion.bounds_of_readTaskId? hn).2
        · cases hc
      · rw [idTexts_predicate hkind, idTexts_predicate hkind]
        exact ⟨[], .nil, rfl, fun n hn => absurd hn List.not_mem_nil⟩

end Filter

/-! ## Numbers in a condition -/

namespace Sql

/-- The constants that the number of a task is compared with, from left to right. -/
def Condition.idLiterals : Condition → List Literal
  | equal .id v => [v]
  | among .id vs => vs
  | both l r | either l r => l.idLiterals ++ r.idLiterals
  | not e => e.idLiterals
  | _ => []

def Query.idLiterals (q : Query) : List Literal := q.condition.elim [] Condition.idLiterals

end Sql

namespace Filter

/-- What has nothing but or has no other predicates than its alternatives. -/
theorem predicates_of_alternatives? {e : Filter} {leaves : List (PredicateKind × Text)}
    (h : e.alternatives? = some leaves) : e.predicates = leaves := by
  induction e generalizing leaves with
  | binary op l r span ihl ihr =>
    cases op with
    | and => cases h
    | or =>
      simp only [alternatives?, Option.bind_eq_bind, Option.bind_eq_some_iff] at h
      obtain ⟨ls, hl, rs, hr, he⟩ := h
      cases he
      rw [predicates, ihl hl, ihr hr]
  | negation e span ih => cases h
  | predicate kind text span => cases h; rfl

/-- Numbers that are read are the constants of what is asked with them. -/
theorem idLiterals_ofPredicate {kind : PredicateKind} {text : Text} {span : Span} {c : Condition}
    (h : Condition.ofPredicate text kind = .ok c) :
    (Value.readAll readId (predicate kind text span).idTexts).map (List.map Literal.number)
      = .ok c.idLiterals := by
  cases kind with
  | id =>
    obtain ⟨n, hn, rfl⟩ := exists_of_map_eq_ok h
    rw [idTexts_predicate_id, Value.readAll, hn]
    rfl
  | due =>
    cases h
    split <;> rfl
  | state | project | context | text => cases h; rfl

theorem idLiterals_ofValues {column : Listable} {values : List Text} {c : Condition}
    (h : Condition.ofValues values column = .ok c) {e : Filter}
    (he : e.predicates = values.map fun v => (column.kind, v)) :
    (Value.readAll readId e.idTexts).map (List.map Literal.number) = .ok c.idLiterals := by
  have hother (hkind : column.kind ≠ .id) : e.idTexts = [] := by
    simp [idTexts, he, hkind]
  cases column with
  | id =>
    obtain ⟨ns, hns, rfl⟩ := exists_of_map_eq_ok h
    have htexts : e.idTexts = values := by
      rw [idTexts, he, List.filter_eq_self.2 (by simp [Listable.kind]), List.map_map]
      exact List.map_id values
    rw [htexts, ← readIds_eq_readAll, hns]
    rfl
  | state =>
    cases h
    rw [hother (by decide)]
    rfl
  | tag kind =>
    cases h
    rw [hother (by cases kind <;> decide)]
    rfl

/-- The condition of a filter compares the number of a task with the number of each predicate, in a list
or not. -/
theorem idLiterals_condition (least : Nat) {e : Filter} {c : Condition} {folds : List Fold}
    (h : e.condition least = .ok (c, folds)) :
    (Value.readAll readId e.idTexts).map (List.map Literal.number) = .ok c.idLiterals := by
  induction e generalizing c folds with
  | binary op l r span ihl ihr =>
    have hjoined {join : Condition → Condition → Condition}
        (hjoin : ∀ c d, (join c d).idLiterals = c.idLiterals ++ d.idLiterals)
        (h : ((l.condition least).bind fun p =>
          (r.condition least).map fun q => (join p.1 q.1, p.2 ++ q.2)) = .ok (c, folds)) :
        (Value.readAll readId (binary op l r span).idTexts).map (List.map Literal.number)
          = .ok c.idLiterals := by
      cases hl : l.condition least with
      | error cause => rw [hl] at h; cases h
      | ok p =>
        rw [hl] at h
        obtain ⟨q, hr, heq⟩ := exists_of_map_eq_ok h
        cases heq
        obtain ⟨ms, hms, hmlits⟩ := exists_of_map_eq_ok (ihl hl)
        obtain ⟨ns, hns, hnlits⟩ := exists_of_map_eq_ok (ihr hr)
        rw [idTexts_binary, Value.readAll_append, hms, hjoin, ← hmlits, ← hnlits]
        simp only [Except.bind, Except.map, hns, List.map_append]
    cases op with
    | and =>
      rw [condition_and] at h
      exact hjoined (fun _ _ => rfl) h
    | or =>
      cases hfold : folded? least (.binary .or l r span) with
      | none =>
        rw [condition_or hfold] at h
        exact hjoined (fun _ _ => rfl) h
      | some list =>
        obtain ⟨column, values⟩ := list
        obtain ⟨leaves, halt, hvalues⟩ := Option.bind_eq_some_iff.1 hfold
        obtain ⟨rfl, -⟩ := leaves_of_values? hvalues
        rw [condition_folded hfold] at h
        obtain ⟨d, hd, heq⟩ := exists_of_map_eq_ok h
        cases heq
        exact idLiterals_ofValues hd (predicates_of_alternatives? halt)
  | negation e span ih =>
    rw [condition] at h
    obtain ⟨⟨d, gs⟩, hd, heq⟩ := exists_of_map_eq_ok h
    cases heq
    have hinner := ih hd
    rw [idTexts_negation, hinner, Condition.idLiterals]
  | predicate kind text span =>
    rw [condition] at h
    obtain ⟨d, hd, heq⟩ := exists_of_map_eq_ok h
    cases heq
    exact idLiterals_ofPredicate hd

/-! ## Queries that can be asked -/

/-- A compiled filter has a condition: its leaves can be read, and where it folds is of no matter. -/
theorem exists_condition (least : Nat) {e : Filter} (h : e.IsNormal) :
    ∃ c folds, e.condition least = .ok (c, folds) := by
  -- what a filter says of a row needs no folding and fails where the condition does: any row will do
  have htruth : ∃ v, e.truth .standard (fun _ => []) (fun _ => .null) = .ok v := by
    induction e with
    | binary op l r span ihl ihr =>
      obtain ⟨u, hu⟩ := ihl h.left
      obtain ⟨v, hv⟩ := ihr h.right
      cases op with
      | and => exact ⟨u.and v, by rw [truth, hu, hv]; rfl⟩
      | or => exact ⟨u.or v, by rw [truth, hu, hv]; rfl⟩
    | negation e span ih =>
      obtain ⟨v, hv⟩ := ih h
      exact ⟨v.not, by rw [truth, hv]; rfl⟩
    | predicate kind text span =>
      obtain ⟨c, rfl, rfl, hc⟩ := h kind text (List.mem_singleton.2 rfl)
      exact ⟨_, by rw [truth, leafTruth, Criterion.ofPredicate_render hc]; rfl⟩
  obtain ⟨v, hv⟩ := htruth
  rw [← truth_condition least] at hv
  obtain ⟨⟨c, folds⟩, hc, -⟩ := exists_of_map_eq_ok hv
  exact ⟨c, folds, hc⟩

end Filter

namespace Sql

/-- A query that compiles can be asked, with one constant for each number that its filter asks for. -/
theorem exists_query_of_compile (config : Config) {today : Date} {e : Filter} {r : ListRequest}
    (h : ListRequest.compile today e = .ok r) :
    ∃ q, Query.ofRequest config.leastFold r = .ok q ∧
      List.Forall₂ (fun s v => ∃ n, AsksFor s n ∧ v = .number n) e.idTexts q.idLiterals := by
  cases he : e.normalize today with
  | error err => simp [ListRequest.compile, he] at h
  | ok e' =>
    have hnormal := Filter.isNormal_of_normalize he
    simp only [ListRequest.compile, he] at h
    obtain ⟨r', hr, hflattens⟩ := ListRequest.exists_flattens hnormal
    cases Except.ok.inj (h.symm.trans hr)
    obtain ⟨c, folds, hc⟩ := Filter.exists_condition config.leastFold hnormal
    obtain ⟨ns, hns, htexts, hbound⟩ := Filter.exists_numbers_of_normalize he
    have hread : Value.readAll readId (ns.map Text.ofNat) = .ok (ns.map id) :=
      Value.readAll_map_ok fun n hn => by rw [readId, Text.readHashed?_ofNat (hbound n hn)]; rfl
    have hliterals := Filter.idLiterals_condition config.leastFold hc
    rw [htexts, hread, List.map_id] at hliterals
    refine ⟨⟨some c, folds⟩, by simp only [Query.ofRequest, hflattens.expr, hc], ?_⟩
    show List.Forall₂ _ e.idTexts c.idLiterals
    rw [← Except.ok.inj hliterals, List.forall₂_map_right_iff]
    exact hns.imp fun s n hn => ⟨n, hn, rfl⟩

end Sql

def Command.idTexts : Command → List Text
  | filter e _ => e.idTexts
  | _ => []

namespace Sql

/-- What compiles can be asked: whenever a line is read and compiled to a plan with a query, in whatever
mode, on whatever day and with whatever task selected, the query can be asked with every configuration,
and the constants that it compares the number of a task with are the numbers that the line asks for. -/
theorem compiled_request_can_be_asked (mode : Mode) (now : Timestamp) (input : Text)
    (buildNow : Option Timestamp) (selected : Option Nat) {plan : Plan} {r : ListRequest}
    (hplan : (Reading.ofLine mode now input).1.compile buildNow selected = .ok plan)
    (hr : plan.listRequest? = some r) :
    ∃ c, (Reading.ofLine mode now input).1.command = some c ∧
      ∀ config : Config, ∃ q, Query.ofRequest config.leastFold r = .ok q ∧
        List.Forall₂ (fun s v => ∃ n, AsksFor s n ∧ v = .number n) c.idTexts q.idLiterals := by
  obtain ⟨c, hc, hcompile⟩ := Reading.exists_command_of_compile hplan
  refine ⟨c, hc, fun config => ?_⟩
  cases c with
  | create t ops span =>
    obtain ⟨request, -, rfl⟩ := exists_of_map_eq_ok hcompile
    cases hr
  | update target ops span =>
    obtain ⟨request, -, rfl⟩ := exists_of_map_eq_ok hcompile
    cases hr
  | filter e span =>
    obtain ⟨request, hrequest, rfl⟩ := exists_of_map_eq_ok hcompile
    cases hr
    exact exists_query_of_compile config hrequest
  | view v span =>
    cases hcompile
    obtain ⟨v, rfl, rfl⟩ := Option.map_eq_some_iff.1 hr
    cases v <;> exact ⟨_, rfl, .nil⟩
  | context a span =>
    cases hcompile
    cases hr

/-- Two numbers that make a list, the one written with a hash and zeros. -/
theorem compiled_request_can_be_asked_list :
    let now : Timestamp := ⟨⟨2026, 2, 8, by decide, by decide, by decide, by decide⟩, 12, 0, 0, 0, 0⟩
    let reading := (Reading.ofLine .auto now "find id:#007 or id:12".toList).1
    ∃ plan r c, reading.compile none none = .ok plan ∧ plan.listRequest? = some r ∧
      reading.command = some c ∧ c.idTexts = ["#007".toList, "12".toList] ∧
      ∀ config : Config, ∃ q, Query.ofRequest config.leastFold r = .ok q ∧
        List.Forall₂ (fun s v => ∃ n, AsksFor s n ∧ v = .number n) c.idTexts q.idLiterals := by
  intro now reading
  have hcommand : reading.command.map Command.idTexts = some ["#007".toList, "12".toList] := by
    decide +kernel
  have hsome : ((reading.compile none none).toOption.bind Plan.listRequest?).isSome = true := by
    decide +kernel
  obtain ⟨r, hr⟩ := Option.isSome_iff_exists.1 hsome
  cases hplan : reading.compile none none with
  | error e => rw [hplan] at hr; cases hr
  | ok plan =>
    rw [hplan] at hr
    obtain ⟨c, hc, hasked⟩ := compiled_request_can_be_asked .auto now _ none none hplan hr
    rw [hc, Option.map_some, Option.some_inj] at hcommand
    exact ⟨plan, r, c, rfl, hr, hc, hcommand, hasked⟩

end Sql

end Agenda
