import Agenda.Proofs.Calendar.Phrase
import Agenda.Proofs.Canonical.Meaning
import Agenda.Proofs.Listing.Normal
/-!
# Compiled filters compiled again

The filter of a compiled query can be written after `find` and compiled once more. States, numbers, tags
and texts mean themselves, and so does a day in ten characters, whatever day the line is given on: what
comes out is the same query. Only ten characters name a day outright, so a day before the year 0 or after the
year 9999, which is reached by counting from today, is written but cannot be asked for by what is written.

What a predicate may mean is one relation with a constructor for each kind of criterion (`MayMean`), and
the lemmas about compiled predicates are by cases on it.

Results: `ofPredicate_again`; `normalize_again` and `exists_error_of_normalize_again`;
`compiled_filter_compiles_again`.
-/
namespace Agenda

namespace Criterion

/-! ## Predicates -/

/-- What predicates with the text `s` may mean. -/
inductive MayMean (s : Text) : PredicateKind → Criterion → Prop where
  | state (st : TaskState) : MayMean s .state (.state st)
  | anyDay : MayMean s .due (.due none)
  | day (d : Date) : MayMean s .due (.due (some d))
  | project : MayMean s .project (.tag .project (tagMatch (Text.trim s)))
  | context : MayMean s .context (.tag .context (tagMatch (Text.trim s)))
  | text : MayMean s .text (.text (Text.trim s))
  | id {n : Nat} (hpos : 0 < n) (hlt : n < Text.wordBound) : MayMean s .id (.id n)

variable {today : Date} {kind : PredicateKind} {s : Text} {c : Criterion}

theorem mayMean_of_ofPredicate (h : ofPredicate today kind s = .ok c) : MayMean s kind c := by
  cases kind <;> simp only [ofPredicate, ofTrimmed] at h
  case state =>
    split at h
    · cases h
    · split at h <;> cases h
      exact .state _
  case due =>
    split at h
    · cases h; exact .anyDay
    · split at h <;> cases h
      exact .day _
  case project => cases h; exact .project
  case context => cases h; exact .context
  case text => cases h; exact .text
  case id =>
    split at h
    · next n hn =>
      cases h
      obtain ⟨hpos, hlt⟩ := bounds_of_readTaskId? hn
      exact .id hpos hlt
    · cases h

theorem trim_name (st : TaskState) : Text.trim st.name = st.name := by cases st <;> decide

theorem trim_ofNat (n : Nat) : Text.trim (Text.ofNat n) = Text.ofNat n := by
  have hblank : ∀ c ∈ Text.ofNat n, Text.isBlank c = false := fun c hc =>
    Date.isBlank_of_isFigure (by rw [Date.isFigure, Text.isDigit_of_mem_ofNat hc]; rfl)
  exact (Text.trimmed_of_not_blank hblank).trim_eq

/-- The text of a criterion has no blanks around it. -/
theorem MayMean.trim_render (h : MayMean s kind c) : Text.trim c.render = c.render := by
  cases h with
  | state st => exact trim_name st
  | anyDay => decide
  | day d => exact d.trim_render
  | project | context => rw [render_tagMatch, Text.trim_trim]
  | text => exact Text.trim_trim s
  | @id n => exact trim_ofNat n

theorem MayMean.hasText (h : MayMean s kind c) (hs : Filter.HasText (kind, s)) :
    Filter.HasText (kind, c.render) := by
  intro hkind
  refine ⟨?_, h.trim_render⟩
  obtain ⟨hne, htrim⟩ := hs hkind
  cases h with
  | state st => cases st <;> decide
  | anyDay => decide
  | day d => exact d.render_ne_nil
  | project | context => rw [render_tagMatch, htrim]; exact hne
  | text => exact absurd rfl hkind
  | @id n => exact Text.ofNat_ne_nil n

end Criterion

namespace Filter

/-- A predicate on the day that asks for any day, or for one in ten characters; another predicate. -/
def isShort (q : PredicateKind × Text) : Bool :=
  q.1 != .due || q.2 == wildcard || Date.isIsoShape q.2

/-- Every day in the filter is written in ten characters. -/
def hasShortDates (e : Filter) : Bool := e.predicates.all isShort

/-- Ten characters are enough from the year 0 up to the year 9999. -/
theorem isShort_day (d : Date) : isShort (.due, d.render) = d.hasShortYear := by
  have hne : d.render ≠ wildcard := d.render_ne_wildcard
  rw [isShort, beq_eq_false_iff_ne.mpr hne, Date.isIsoShape_render]
  rfl

end Filter

namespace Criterion

variable {kind : PredicateKind} {s : Text} {c : Criterion}

/-- The text of a criterion means that criterion on any day, unless it is a day that takes more than ten
characters. -/
theorem MayMean.ofPredicate_again (h : MayMean s kind c) (later : Date) :
    ofPredicate later kind c.render
      = if Filter.isShort (kind, c.render) then .ok c else .error (.invalidDate c.render) := by
  rw [ofPredicate, h.trim_render]
  cases h with
  | state st =>
    have hne : st.name ≠ wildcard := by cases st <;> decide
    simp only [render, ofTrimmed, if_neg hne, TaskState.read?_name]
    rfl
  | anyDay => rfl
  | day d =>
    have hne : d.render ≠ wildcard := d.render_ne_wildcard
    simp only [render, ofTrimmed, if_neg hne, Date.ofPhrase?_render, Filter.isShort_day, Date.trim_render]
    by_cases hd : d.hasShortYear = true <;> simp [hd]
  | project | context => rw [render_tagMatch]; rfl
  | text => rfl
  | id hpos hlt =>
    simp only [render, ofTrimmed, readTaskId?_ofNat hpos hlt]
    rfl

end Criterion

/-! ## Filters -/

namespace Filter

variable {today : Date} {e e' : Filter}

/-- Predicates that have a text are compiled to predicates that have one. -/
theorem hasText_normalize (h : e.normalize today = .ok e') (he : ∀ q ∈ e.predicates, HasText q) :
    ∀ q ∈ e'.predicates, HasText q := by
  induction e generalizing e' with
  | binary op l r span ihl ihr =>
    rw [normalize] at h
    split at h
    · cases h
    · next l' hl =>
      obtain ⟨r', hr, rfl⟩ := exists_of_map_eq_ok h
      obtain ⟨hel, her⟩ := List.forall_mem_append.1 he
      exact List.forall_mem_append.2 ⟨ihl hl hel, ihr hr her⟩
  | negation e span ih =>
    rw [normalize] at h
    obtain ⟨inner, hinner, rfl⟩ := exists_of_map_eq_ok h
    have hinner' := ih hinner he
    exact hinner'
  | predicate kind text span =>
    rw [normalize] at h
    split at h
    · cases h
    · next c hc =>
      cases h
      exact hasText_predicate ((Criterion.mayMean_of_ofPredicate hc).hasText
        (he _ (List.mem_singleton_self _)))

/-- A compiled filter is compiled to itself on any day, if ten characters are enough for its days. -/
theorem normalize_again (h : e.normalize today = .ok e') (hshort : e'.hasShortDates = true)
    (later : Date) : e'.normalize later = .ok e' := by
  induction e generalizing e' with
  | binary op l r span ihl ihr =>
    rw [normalize] at h
    split at h
    · cases h
    · next l' hl =>
      obtain ⟨r', hr, rfl⟩ := exists_of_map_eq_ok h
      rw [hasShortDates, predicates, List.all_append, Bool.and_eq_true] at hshort
      rw [normalize, ihl hl hshort.1, ihr hr hshort.2]
      rfl
  | negation e span ih =>
    rw [normalize] at h
    obtain ⟨inner, hinner, rfl⟩ := exists_of_map_eq_ok h
    rw [normalize, ih hinner hshort]
    rfl
  | predicate kind text span =>
    rw [normalize] at h
    split at h
    · cases h
    · next c hc =>
      cases h
      have hq : isShort (kind, c.render) = true := (Bool.and_eq_true_iff.1 hshort).1
      rw [normalize, (Criterion.mayMean_of_ofPredicate hc).ofPredicate_again, if_pos hq]

/-- The rejection is that of a day in the filter, for which ten characters are not enough. -/
def IsTooFar (e : Filter) (cause : CompileError.Cause) : Prop :=
  ∃ text, (.due, text) ∈ e.predicates ∧ isShort (.due, text) = false ∧ cause = .invalidDate text

/-- With a day that takes more than ten characters it is rejected. -/
theorem exists_error_of_normalize_again (h : e.normalize today = .ok e')
    (hlong : e'.hasShortDates = false) (later : Date) :
    ∃ err, e'.normalize later = .error err ∧ e'.IsTooFar err.cause := by
  induction e generalizing e' with
  | binary op l r span ihl ihr =>
    rw [normalize] at h
    split at h
    · cases h
    · next l' hl =>
      obtain ⟨r', hr, rfl⟩ := exists_of_map_eq_ok h
      rw [hasShortDates, predicates, List.all_append, Bool.and_eq_false_iff] at hlong
      cases hshort : l'.hasShortDates with
      | false =>
        obtain ⟨err, herr, text, hmem, hfar⟩ := ihl hl hshort
        refine ⟨err, by rw [normalize, herr], text, List.mem_append_left _ hmem, hfar⟩
      | true =>
        have hlong' : r'.hasShortDates = false :=
          hlong.resolve_left fun hl' => by rw [hasShortDates, hl'] at hshort; cases hshort
        obtain ⟨err, herr, text, hmem, hfar⟩ := ihr hr hlong'
        refine ⟨err, ?_, text, List.mem_append_right _ hmem, hfar⟩
        rw [normalize, normalize_again hl hshort, herr]
        rfl
  | negation e span ih =>
    rw [normalize] at h
    obtain ⟨inner, hinner, rfl⟩ := exists_of_map_eq_ok h
    obtain ⟨err, herr, hfar⟩ := ih hinner hlong
    exact ⟨err, by rw [normalize, herr]; rfl, hfar⟩
  | predicate kind text span =>
    rw [normalize] at h
    split at h
    · cases h
    · next c hc =>
      cases h
      have hq : isShort (kind, c.render) = false := by
        rw [hasShortDates, predicates, List.all_cons, List.all_nil, Bool.and_true] at hlong
        exact hlong
      have hkind : kind = .due := by
        by_contra hne
        rw [isShort, bne_iff_ne.mpr hne] at hq
        cases hq
      subst hkind
      refine ⟨⟨.invalidDate c.render, some span⟩, ?_, c.render, List.mem_singleton_self _, hq, rfl⟩
      rw [normalize, (Criterion.mayMean_of_ofPredicate hc).ofPredicate_again, hq]
      rfl

end Filter

/-! ## Queries -/

namespace ListRequest

theorem expr_of_ofNormalized {e : Filter} {r : ListRequest} (h : ofNormalized e = .ok r) :
    r.expr = some e := by
  unfold ofNormalized at h
  split at h
  · obtain ⟨r', -, rfl⟩ := exists_of_map_eq_ok h
    rfl
  · cases h
    rfl

theorem exists_normalize_of_compile {today : Date} {e : Filter} {r : ListRequest}
    (h : compile today e = .ok r) : ∃ e', e.normalize today = .ok e' ∧ ofNormalized e' = .ok r := by
  unfold compile at h
  split at h
  · cases h
  · next e' he' => exact ⟨e', he', h⟩

/-- What a filter that differs in its places only is compiled to. -/
theorem compile_of_withoutSpans (today : Date) {e e' : Filter}
    (hspans : e'.withoutSpans = e.withoutSpans) :
    (causes (compile today e')).map withoutSpans = (causes (compile today e)).map withoutSpans := by
  rw [← causes_list_withoutSpans, hspans, causes_list_withoutSpans]

theorem exists_compile_eq_ok {today : Date} {e e' : Filter} {r : ListRequest}
    (hspans : e'.withoutSpans = e.withoutSpans) (h : compile today e = .ok r) :
    ∃ r', compile today e' = .ok r' ∧ r'.withoutSpans = r.withoutSpans := by
  have hsame := compile_of_withoutSpans today hspans
  rw [h] at hsame
  cases he' : compile today e' with
  | error err => rw [he'] at hsame; cases hsame
  | ok r' =>
    rw [he'] at hsame
    exact ⟨r', rfl, Except.ok.inj hsame⟩

theorem exists_compile_eq_error {today : Date} {e e' : Filter} {err : CompileError}
    (hspans : e'.withoutSpans = e.withoutSpans) (h : compile today e = .error err) :
    ∃ err', compile today e' = .error err' ∧ err'.cause = err.cause := by
  have hsame := compile_of_withoutSpans today hspans
  rw [h] at hsame
  cases he' : compile today e' with
  | error err' =>
    rw [he'] at hsame
    exact ⟨err', rfl, Except.error.inj hsame⟩
  | ok r' => rw [he'] at hsame; cases hsame

end ListRequest

/-! ## Lines -/

/-- What becomes of the filter `e` of the query `r` when it is written after `find` and read at `later`. -/
structure ReadsAgain (r : ListRequest) (e : Filter) (later : Timestamp) : Prop where
  reads : ∃ e' span, Reading.ofLine .auto later ("find ".toList ++ e.canonical)
    = (⟨some .filter, some (.filter e' span), [], later⟩, none) ∧ e'.withoutSpans = e.withoutSpans
  /-- If ten characters are enough for its days, it is compiled to the same query, whatever the day. -/
  compiles : e.hasShortDates = true → ∀ buildNow selected, ∃ r',
    (Reading.ofLine .auto later ("find ".toList ++ e.canonical)).1.compile buildNow selected
      = .ok (.list r') ∧ r'.withoutSpans = r.withoutSpans
  /-- Otherwise it is rejected for one of them. -/
  rejects : e.hasShortDates = false → ∀ buildNow selected, ∃ err,
    (Reading.ofLine .auto later ("find ".toList ++ e.canonical)).1.compile buildNow selected
      = .error err ∧ e.IsTooFar err.cause

/-- Only filters are compiled to queries. -/
theorem Command.exists_filter_of_compile {c : Command} {today : Date} {selected : Option Nat}
    {r : ListRequest} (h : c.compile today selected = .ok (.list r)) :
    ∃ e span, c = .filter e span ∧ ListRequest.compile today e = .ok r := by
  cases c with
  | create | update =>
    obtain ⟨request, -, hplan⟩ := exists_of_map_eq_ok h
    cases hplan
  | filter e span =>
    obtain ⟨request, hrequest, hplan⟩ := exists_of_map_eq_ok h
    cases hplan
    exact ⟨e, span, rfl, hrequest⟩
  | view | context => cases h

/-- The filter of every query that a line is compiled to, in any mode and on any day, is read again after
`find`; compiled on whatever day, it gives the same query but for the places in it, or else it has a day
before the year 0 or after the year 9999 and is rejected for that. -/
theorem compiled_filter_compiles_again (mode : Mode) (now : Timestamp) (input : Text)
    (buildNow : Option Timestamp) (selected : Option Nat) (r : ListRequest)
    (h : (Reading.ofLine mode now input).1.compile buildNow selected = .ok (.list r)) :
    ∃ e, r.expr = some e ∧ ∀ later, ReadsAgain r e later := by
  obtain ⟨c, hc, hcompile⟩ := Reading.exists_command_of_compile h
  have hreadable := Command.isReadable_of_commandOf (commandOf_of_ofLine hc)
  obtain ⟨written, span, rfl, hquery⟩ := Command.exists_filter_of_compile hcompile
  obtain ⟨e, hnormal, hcolumns⟩ := ListRequest.exists_normalize_of_compile hquery
  refine ⟨e, ListRequest.expr_of_ofNormalized hcolumns, fun later => ?_⟩
  obtain ⟨e', span', hread, hspans⟩ :=
    Filter.commandOf_canonical e (Filter.hasText_normalize hnormal hreadable)
  have hline : Reading.ofLine .auto later ("find ".toList ++ e.canonical)
      = (⟨some .filter, some (.filter e' span'), [], later⟩, none) :=
    Canonical.ofLine_of_commandOf hread rfl later
  refine ⟨⟨e', span', hline, hspans⟩, fun hshort buildNow' selected' => ?_,
    fun hlong buildNow' selected' => ?_⟩
  · have hsame : ListRequest.compile (buildNow'.getD later).date e = .ok r := by
      rw [ListRequest.compile, Filter.normalize_again hnormal hshort]
      exact hcolumns
    obtain ⟨r', hr', hrequest⟩ := ListRequest.exists_compile_eq_ok hspans hsame
    exact ⟨r', by rw [hline]; exact congrArg (Except.map Plan.list) hr', hrequest⟩
  · obtain ⟨err, herr, hfar⟩ :=
      Filter.exists_error_of_normalize_again hnormal hlong (buildNow'.getD later).date
    have hrejected : ListRequest.compile (buildNow'.getD later).date e = .error err := by
      rw [ListRequest.compile, herr]
    obtain ⟨err', herr', hcause⟩ := ListRequest.exists_compile_eq_error hspans hrejected
    exact ⟨err', by rw [hline]; exact congrArg (Except.map Plan.list) herr', hcause ▸ hfar⟩

/-- A day to be worked out is the same day a year later. -/
theorem compiled_filter_compiles_again_tomorrow :
    let now : Timestamp := ⟨⟨2025, 3, 9, by decide, by decide, by decide, by decide⟩, 12, 0, 0, 0, 0⟩
    let later : Timestamp := ⟨⟨2026, 3, 9, by decide, by decide, by decide, by decide⟩, 12, 0, 0, 0, 0⟩
    ∃ r e, (Reading.ofLine .auto now "find not due:tomorrow or state:todo".toList).1.compile none none
        = .ok (.list r) ∧ r.expr = some e ∧ e.hasShortDates = true ∧ ReadsAgain r e later := by
  intro now later
  let place (start stop : Nat) : Span := ⟨⟨start, 1, start + 1⟩, ⟨stop, 1, stop + 1⟩⟩
  let e : Filter := .binary .or
    (.negation (.predicate .due "2025-03-10".toList (place 9 21)) (place 5 21))
    (.predicate .state "inbox".toList (place 25 35)) (place 5 35)
  have h : (Reading.ofLine .auto now "find not due:tomorrow or state:todo".toList).1.compile none none
      = .ok (.list { ListRequest.all with expr := some e }) := by decide +kernel
  obtain ⟨e', he', hagain⟩ := compiled_filter_compiles_again .auto now _ none none _ h
  cases he'
  exact ⟨_, e, h, rfl, by decide, hagain later⟩

/-- A day after the year 9999 can be reached, and written, but not asked for by what is written. -/
theorem far_day_does_not_compile_again :
    let now : Timestamp := ⟨⟨2026, 2, 8, by decide, by decide, by decide, by decide⟩, 10, 0, 0, 0, 0⟩
    ∃ r e, (Reading.ofLine .auto now "find due:\"in 3000000 days\"".toList).1.compile none none
        = .ok (.list r) ∧ r.expr = some e ∧
      "find ".toList ++ e.canonical = "find due:\"+10239-10-30\"".toList ∧
      (Reading.ofLine .auto now ("find ".toList ++ e.canonical)).1.compile none none
        = .error ⟨.invalidDate "+10239-10-30".toList, some ⟨⟨5, 1, 6⟩, ⟨23, 1, 24⟩⟩⟩ := by
  intro now
  let e : Filter := .predicate .due "+10239-10-30".toList ⟨⟨5, 1, 6⟩, ⟨26, 1, 27⟩⟩
  let day : Date := ⟨10239, 10, 30, by decide, by decide, by decide, by decide⟩
  refine ⟨{ ListRequest.all with due := some day, expr := some e, flattened := true }, e, ?_, rfl, ?_, ?_⟩
  · decide +kernel
  · decide +kernel
  · decide +kernel

end Agenda
