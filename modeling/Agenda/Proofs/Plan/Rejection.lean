import Agenda.Proofs.Listing.Columns
import Agenda.Proofs.Plan.Fault
/-!
# The first fault rejects a command

Operations are carried out one after the other, each on what those before it made, and an operation on
entries one item after the other (`CreateRequest.perform`, `UpdateRequest.perform`). A command is
rejected for a target that means no task, at the place of the command; else for the first of its
operations or predicates that is at fault, at the place of that part; else, if it makes a task, for a
title that is empty after all operations, at the place of the command (`Command.Reports`).

Results: an operation is rejected for its own faults, whatever the operations before it made
(`CreateRequest.perform_eq_error_iff`, `UpdateRequest.perform_eq_error_iff`); compiling is carrying out
the operations in turn (`CreateRequest.compile_eq`, `UpdateRequest.compile_eq`); a filter fails for the
first of its predicates (`Filter.normalize_eq_error_iff`); and
`commands_are_rejected_for_the_first_fault`.
-/
namespace Agenda

open CompileError (Cause)

theorem map_map_eq {α β γ ε : Type} (r : Except ε α) (f : α → β) (g : β → γ) :
    (r.map f).map g = r.map fun a => g (f a) := by cases r <;> rfl

/-- What is read from each and carried out at once may be read from all first. -/
theorem foldlM_map_eq {α β ρ ε : Type} (f : α → Except ε β) (apply : ρ → β → ρ) (as : List α) (r : ρ) :
    as.foldlM (fun r a => (f a).map (apply r)) r = (Value.readAll f as).map (List.foldl apply r) := by
  induction as generalizing r with
  | nil => rfl
  | cons a as ih =>
    rw [List.foldlM_cons, Value.readAll]
    cases f a with
    | error e => rfl
    | ok b =>
      refine (ih (apply r b)).trans ?_
      cases Value.readAll f as <;> rfl

/-! ## Operations in turn -/

/-- Carries out operations in turn, each on what those before it made; the first that is rejected is
reported at its place. -/
def Op.performAll {ρ : Type} (perform : ρ → Op → Except Cause ρ) (r : ρ) (ops : List Op) :
    Except CompileError ρ :=
  ops.foldlM (fun r op => op.located (perform r op)) r

theorem Op.performAll_eq {α ρ : Type} {perform : ρ → Op → Except Cause ρ}
    {meaning : Op → Except Cause α} {apply : ρ → α → ρ}
    (h : ∀ r op, perform r op = (meaning op).map (apply r)) (r : ρ) (ops : List Op) :
    performAll perform r ops = (changes meaning ops).map (List.foldl apply r) := by
  rw [changes, ← foldlM_map_eq, performAll]
  congr 1
  funext r op
  rw [h, located, located]
  cases meaning op <;> rfl

/-- The error of operations is that of the first at fault, at its place. -/
theorem Op.performAll_eq_error_iff {α ρ : Type} {perform : ρ → Op → Except Cause ρ}
    {meaning : Op → Except Cause α} {apply : ρ → α → ρ} {fault : Op → Cause → Prop}
    (hperform : ∀ r op, perform r op = (meaning op).map (apply r))
    (hfault : ∀ op cause, meaning op = .error cause ↔ fault op cause) {r : ρ} {ops : List Op}
    {e : CompileError} :
    performAll perform r ops = .error e
      ↔ ∃ op cause, FirstFault fault ops op cause ∧ ⟨cause, some op.span⟩ = e := by
  rw [performAll_eq hperform, map_eq_error_iff]
  refine Value.readAll_eq_error_iff fun op e => ?_
  simp only [← hfault, located]
  cases meaning op with
  | error cause => simp [Except.mapError]
  | ok a => simp [Except.mapError]

namespace CreateRequest

/-- The task after the items of a value are put in as entries, one after the other. -/
def putItems (v : Value) (r : CreateRequest) : Except Cause CreateRequest :=
  v.items.foldlM (fun r s => (Entry.read s).map fun e => { r with entries := Entry.put e r.entries }) r

/-- The task after an operation. -/
def perform (today : Date) (r : CreateRequest) : Op → Except Cause CreateRequest
  | .edit .set .metadata v _ => putItems v { r with entries := [] }
  | .edit .add .metadata v _ => putItems v r
  | op => (CreateChange.ofOp today op).map (CreateChange.apply r)

theorem foldl_put (es : List Entry) (r : CreateRequest) :
    es.foldl (fun r e => { r with entries := Entry.put e r.entries }) r
      = { r with entries := Entry.putAll es r.entries } := by
  induction es generalizing r with
  | nil => rfl
  | cons e es ih => exact ih _

theorem putItems_eq (v : Value) (r : CreateRequest) :
    putItems v r = v.entries.map fun es => { r with entries := Entry.putAll es r.entries } := by
  rw [putItems, foldlM_map_eq, ← Value.entries]
  exact congrArg v.entries.map (funext fun es => foldl_put es r)

variable {today : Date}

theorem perform_eq (r : CreateRequest) (op : Op) :
    perform today r op = (CreateChange.ofOp today op).map (CreateChange.apply r) := by
  cases op with
  | edit how f v span =>
    cases how with
    | set =>
      cases f with
      | metadata =>
        have hset := map_map_eq v.entries CreateChange.setEntries (CreateChange.apply r)
        exact (putItems_eq v _).trans hset.symm
      | _ => rfl
    | add =>
      cases f with
      | metadata =>
        have hadd := map_map_eq v.entries CreateChange.addEntries (CreateChange.apply r)
        exact (putItems_eq v r).trans hadd.symm
      | _ => rfl
    | remove => cases f <;> rfl
  | clear f span => rfl
  | tag kind name span => rfl

theorem perform_eq_error_iff {r : CreateRequest} {op : Op} {cause : Cause} :
    perform today r op = .error cause ↔ op.CreateFault today cause := by
  rw [perform_eq, map_eq_error_iff, CreateChange.ofOp_eq_error_iff]

theorem performAll_eq_error_iff {r : CreateRequest} {ops : List Op} {e : CompileError} :
    Op.performAll (perform today) r ops = .error e
      ↔ ∃ op cause, FirstFault (Op.CreateFault today) ops op cause ∧ ⟨cause, some op.span⟩ = e :=
  Op.performAll_eq_error_iff perform_eq fun _ _ => CreateChange.ofOp_eq_error_iff

theorem compile_eq (title : Text) (ops : List Op) (span : Span) :
    compile today title ops span
      = (Op.performAll (perform today) (titled (Text.trim title)) ops).bind fun r =>
          if r.title = [] then .error ⟨.missingTitle, some span⟩ else .ok r := by
  rw [compile, Op.performAll_eq perform_eq]
  cases Op.changes (CreateChange.ofOp today) ops <;> rfl

end CreateRequest

namespace UpdateRequest

/-- The request after an operation, done item by item where entries are set or keys removed. -/
def perform (today : Date) (r : UpdateRequest) : Op → Except Cause UpdateRequest
  | .edit .set .metadata v _ | .edit .add .metadata v _ =>
    v.items.foldlM (fun r s => (Entry.read s).map (UpdateChange.setEntry r)) r
  | .edit .remove .metadata v _ =>
    v.items.foldlM (fun r s => (Entry.readKey s).map (UpdateChange.removeKey r)) r
  | op => (UpdateChange.ofOp today op).map (UpdateChange.apply r)

variable {today : Date}

theorem perform_eq (r : UpdateRequest) (op : Op) :
    perform today r op = (UpdateChange.ofOp today op).map (UpdateChange.apply r) := by
  cases op with
  | edit how f v span =>
    cases f with
    | metadata =>
      cases how with
      | set | add =>
        have hset := map_map_eq v.entries UpdateChange.setEntries (UpdateChange.apply r)
        exact (foldlM_map_eq _ _ _ r).trans hset.symm
      | remove =>
        have hremove := map_map_eq v.keys UpdateChange.removeKeys (UpdateChange.apply r)
        exact (foldlM_map_eq _ _ _ r).trans hremove.symm
    | _ => cases how <;> rfl
  | clear f span => rfl
  | tag kind name span => rfl

theorem perform_eq_error_iff {r : UpdateRequest} {op : Op} {cause : Cause} :
    perform today r op = .error cause ↔ op.UpdateFault today cause := by
  rw [perform_eq, map_eq_error_iff, UpdateChange.ofOp_eq_error_iff]

theorem performAll_eq_error_iff {r : UpdateRequest} {ops : List Op} {e : CompileError} :
    Op.performAll (perform today) r ops = .error e
      ↔ ∃ op cause, FirstFault (Op.UpdateFault today) ops op cause ∧ ⟨cause, some op.span⟩ = e :=
  Op.performAll_eq_error_iff perform_eq fun _ _ => UpdateChange.ofOp_eq_error_iff

theorem compile_eq (selected : Option Nat) (target : Target) (ops : List Op) (span : Span) :
    compile today selected target ops span
      = ((target.resolve selected).mapError fun cause => ⟨cause, some span⟩).bind fun id =>
          (Op.performAll (perform today) (blank id) ops).map deduped := by
  rw [compile]
  cases target.resolve selected with
  | error cause => rfl
  | ok id =>
    show _ = (Op.performAll (perform today) (blank id) ops).map deduped
    rw [Op.performAll_eq perform_eq]
    cases Op.changes (UpdateChange.ofOp today) ops <;> rfl

end UpdateRequest

/-! ## Predicates from left to right -/

namespace Filter

structure Leaf where
  kind : PredicateKind
  text : Text
  span : Span
deriving DecidableEq, Repr

def leaves : Filter → List Leaf
  | binary _ l r _ => l.leaves ++ r.leaves
  | negation e _ => e.leaves
  | predicate kind text span => [⟨kind, text, span⟩]

def Leaf.Fault (today : Date) (leaf : Leaf) : Cause → Prop := Criterion.Fault today leaf.text leaf.kind

/-- A filter fails for the first of its predicates that is at fault. -/
theorem normalize_eq_error_iff {today : Date} {e : Filter} {err : CompileError} :
    e.normalize today = .error err
      ↔ ∃ leaf cause, FirstFault (Leaf.Fault today) e.leaves leaf cause
          ∧ ⟨cause, some leaf.span⟩ = err := by
  induction e generalizing err with
  | predicate kind text span =>
    have hfirst (leaf : Leaf) (cause : Cause) :
        FirstFault (Leaf.Fault today) [⟨kind, text, span⟩] leaf cause
          ↔ leaf = ⟨kind, text, span⟩ ∧ Criterion.Fault today text kind cause := by
      constructor
      · rintro (h | ⟨-, ⟨⟩⟩)
        exact ⟨rfl, h⟩
      · rintro ⟨rfl, h⟩
        exact .here h
    rw [normalize]
    simp only [leaves, hfirst, ← Criterion.ofPredicate_eq_error_iff]
    cases Criterion.ofPredicate today kind text with
    | error cause => simp
    | ok c => simp
  | negation e span ih => exact map_eq_error_iff.trans ih
  | binary op l r span ihl ihr =>
    -- the right side is read only where the left has no fault
    have hno : (∀ leaf ∈ l.leaves, ∀ cause, ¬ leaf.Fault today cause)
        ↔ ∀ err, l.normalize today ≠ .error err := by
      simp only [Ne, ihl, not_exists, not_and]
      constructor
      · intro h err leaf cause hfirst _
        obtain ⟨leaf', hmem, cause', hfault⟩ := exists_firstFault_iff.1 ⟨leaf, cause, hfirst⟩
        exact h leaf' hmem cause' hfault
      · intro h leaf hmem cause hfault
        obtain ⟨first, cause', hfirst⟩ := exists_firstFault_iff.2 ⟨leaf, hmem, cause, hfault⟩
        exact h _ first cause' hfirst rfl
    simp only [leaves, firstFault_append_iff, or_and_right, exists_or, and_assoc, exists_and_left]
    rw [← ihl, ← ihr, hno, normalize]
    cases l.normalize today with
    | error err' => simp
    | ok l' => simp [map_eq_error_iff]

end Filter

/-- Once the predicates of a filter are understood, the query is made without fail. -/
theorem ListRequest.compile_eq_error_iff {today : Date} {e : Filter} {err : CompileError} :
    compile today e = .error err ↔ e.normalize today = .error err := by
  rw [compile]
  cases he : e.normalize today with
  | error err' => rw [Except.error.injEq, Except.error.injEq]
  | ok e' =>
    obtain ⟨r, hr, -⟩ := exists_flattens (Filter.isNormal_of_normalize he)
    refine iff_of_false (fun h => ?_) fun h => by cases h
    cases hr.symm.trans h

/-! ## Commands -/

namespace Command

variable (today : Date) (selected : Option Nat)

/-- There is something wrong with a command. -/
def IsAtFault : Command → Prop
  | create title ops _ =>
    (∃ op ∈ ops, ∃ cause, op.CreateFault today cause) ∨
      ∃ r, Op.performAll (CreateRequest.perform today) (.titled (Text.trim title)) ops = .ok r
        ∧ r.title = []
  | update target ops _ =>
    (∃ cause, target.Fault selected cause) ∨ ∃ op ∈ ops, ∃ cause, op.UpdateFault today cause
  | filter e _ => ∃ leaf ∈ e.leaves, ∃ cause, leaf.Fault today cause
  | _ => False

/-- The error of a command that is rejected. -/
inductive Reports : Command → CompileError → Prop
  | createOp {title : Text} {ops : List Op} {span : Span} {op : Op} {cause : Cause}
      (h : FirstFault (Op.CreateFault today) ops op cause) :
      Reports (.create title ops span) ⟨cause, some op.span⟩
  | missingTitle {title : Text} {ops : List Op} {span : Span} {r : CreateRequest}
      (hrun : Op.performAll (CreateRequest.perform today) (.titled (Text.trim title)) ops = .ok r)
      (htitle : r.title = []) : Reports (.create title ops span) ⟨.missingTitle, some span⟩
  | target {target : Target} {ops : List Op} {span : Span} {cause : Cause}
      (h : target.Fault selected cause) : Reports (.update target ops span) ⟨cause, some span⟩
  | updateOp {target : Target} {ops : List Op} {span : Span} {op : Op} {cause : Cause}
      (htarget : ∀ cause, ¬ target.Fault selected cause)
      (h : FirstFault (Op.UpdateFault today) ops op cause) :
      Reports (.update target ops span) ⟨cause, some op.span⟩
  | predicate {e : Filter} {span : Span} {leaf : Filter.Leaf} {cause : Cause}
      (h : FirstFault (Filter.Leaf.Fault today) e.leaves leaf cause) :
      Reports (.filter e span) ⟨cause, some leaf.span⟩

variable {today : Date} {selected : Option Nat} {e : CompileError}

theorem compile_create_eq_error_iff {title : Text} {ops : List Op} {span : Span} :
    (create title ops span).compile today selected = .error e
      ↔ Reports today selected (create title ops span) e := by
  rw [compile, map_eq_error_iff, CreateRequest.compile_eq]
  have hreports {r : CreateRequest} {e : CompileError} :
      Op.performAll (CreateRequest.perform today) r ops = .error e ↔ _ :=
    CreateRequest.performAll_eq_error_iff
  cases hrun : Op.performAll (CreateRequest.perform today) (.titled (Text.trim title)) ops with
  | error e' =>
    obtain ⟨op, cause, hfirst, rfl⟩ := hreports.1 hrun
    constructor
    · intro h
      cases h
      exact .createOp hfirst
    · intro h
      cases h with
      | createOp h => exact hrun.symm.trans (hreports.2 ⟨_, _, h, rfl⟩)
      | missingTitle hrun' _ => cases hrun.symm.trans hrun'
  | ok r =>
    constructor
    · intro h
      by_cases htitle : r.title = []
      · cases (if_pos htitle).symm.trans h
        exact .missingTitle hrun htitle
      · cases (if_neg htitle).symm.trans h
    · intro h
      cases h with
      | createOp h => cases hrun.symm.trans (hreports.2 ⟨_, _, h, rfl⟩)
      | missingTitle hrun' htitle =>
        cases hrun.symm.trans hrun'
        exact if_pos htitle

theorem compile_update_eq_error_iff {target : Target} {ops : List Op} {span : Span} :
    (update target ops span).compile today selected = .error e
      ↔ Reports today selected (update target ops span) e := by
  rw [compile, map_eq_error_iff, UpdateRequest.compile_eq]
  cases htarget : target.resolve selected with
  | error cause =>
    have hfault := Target.resolve_eq_error_iff.1 htarget
    constructor
    · intro h
      cases h
      exact .target hfault
    · intro h
      cases h with
      | target h => cases htarget.symm.trans (Target.resolve_eq_error_iff.2 h); rfl
      | updateOp hno _ => exact absurd hfault (hno cause)
  | ok id =>
    have hno (cause : Cause) (h : target.Fault selected cause) : False := by
      cases htarget.symm.trans (Target.resolve_eq_error_iff.2 h)
    show (Op.performAll (UpdateRequest.perform today) (.blank id) ops).map UpdateRequest.deduped
      = .error e ↔ _
    rw [map_eq_error_iff, UpdateRequest.performAll_eq_error_iff]
    constructor
    · rintro ⟨op, cause, hfirst, rfl⟩
      exact .updateOp hno hfirst
    · intro h
      cases h with
      | target h => exact (hno _ h).elim
      | updateOp _ h => exact ⟨_, _, h, rfl⟩

theorem compile_eq_error_iff {c : Command} :
    c.compile today selected = .error e ↔ c.Reports today selected e := by
  cases c with
  | create title ops span => exact compile_create_eq_error_iff
  | update target ops span => exact compile_update_eq_error_iff
  | filter f span =>
    rw [compile, map_eq_error_iff, ListRequest.compile_eq_error_iff, Filter.normalize_eq_error_iff]
    constructor
    · rintro ⟨leaf, cause, hfirst, rfl⟩
      exact .predicate hfirst
    · rintro ⟨hfirst⟩
      next h => exact ⟨_, _, h, rfl⟩
  | view v span => exact ⟨nofun, nofun⟩
  | context a span => exact ⟨nofun, nofun⟩

theorem exists_reports_iff {c : Command} :
    (∃ e, c.Reports today selected e) ↔ c.IsAtFault today selected := by
  constructor
  · rintro ⟨e, h⟩
    cases h with
    | createOp h => exact Or.inl (exists_firstFault_iff.1 ⟨_, _, h⟩)
    | missingTitle hrun htitle => exact Or.inr ⟨_, hrun, htitle⟩
    | target h => exact Or.inl ⟨_, h⟩
    | updateOp _ h => exact Or.inr (exists_firstFault_iff.1 ⟨_, _, h⟩)
    | predicate h => exact exists_firstFault_iff.1 ⟨_, _, h⟩
  · intro h
    cases c with
    | create title ops span =>
      rcases h with h | ⟨r, hrun, htitle⟩
      · obtain ⟨op, cause, hfirst⟩ := exists_firstFault_iff.2 h
        exact ⟨_, .createOp hfirst⟩
      · exact ⟨_, .missingTitle hrun htitle⟩
    | update target ops span =>
      by_cases htarget : ∃ cause, target.Fault selected cause
      · obtain ⟨cause, hcause⟩ := htarget
        exact ⟨_, .target hcause⟩
      · obtain ⟨op, cause, hfirst⟩ := exists_firstFault_iff.2 (h.resolve_left htarget)
        exact ⟨_, .updateOp (not_exists.1 htarget) hfirst⟩
    | filter e span =>
      obtain ⟨leaf, cause, hfirst⟩ := exists_firstFault_iff.2 h
      exact ⟨_, .predicate hfirst⟩
    | view v span => exact h.elim
    | context a span => exact h.elim

end Command

structure RejectsFirstFault (today : Date) (selected : Option Nat) : Prop where
  create_alone : ∀ r op cause,
    CreateRequest.perform today r op = .error cause ↔ op.CreateFault today cause
  update_alone : ∀ r op cause,
    UpdateRequest.perform today r op = .error cause ↔ op.UpdateFault today cause
  create_in_turn : ∀ title ops span,
    CreateRequest.compile today title ops span
      = (Op.performAll (CreateRequest.perform today) (.titled (Text.trim title)) ops).bind fun r =>
          if r.title = [] then .error ⟨.missingTitle, some span⟩ else .ok r
  update_in_turn : ∀ target ops span,
    UpdateRequest.compile today selected target ops span
      = ((target.resolve selected).mapError fun cause => ⟨cause, some span⟩).bind fun id =>
          (Op.performAll (UpdateRequest.perform today) (.blank id) ops).map UpdateRequest.deduped
  fails_iff : ∀ c : Command,
    (∃ e, c.compile today selected = .error e) ↔ c.IsAtFault today selected
  reports_iff : ∀ (c : Command) e,
    c.compile today selected = .error e ↔ c.Reports today selected e

/-- Every command that is rejected is rejected for its first fault. -/
theorem commands_are_rejected_for_the_first_fault (today : Date) (selected : Option Nat) :
    RejectsFirstFault today selected where
  create_alone _ _ _ := CreateRequest.perform_eq_error_iff
  update_alone _ _ _ := UpdateRequest.perform_eq_error_iff
  create_in_turn := CreateRequest.compile_eq
  update_in_turn := UpdateRequest.compile_eq selected
  fails_iff c := by
    rw [← Command.exists_reports_iff]
    exact exists_congr fun _ => Command.compile_eq_error_iff
  reports_iff _ _ := Command.compile_eq_error_iff

/-- The second entry has no key; the operation behind it, which is no less at fault, is not reported. -/
example :
    let today : Date := ⟨2025, 3, 9, by decide, by decide, by decide, by decide⟩
    let place (n : Nat) : Span := ⟨⟨n, 1, n + 1⟩, ⟨n + 5, 1, n + 6⟩⟩
    let ops : List Op := [.tag .project "home".toList (place 10),
      .edit .add .metadata ⟨"a:1,:2,b".toList, false, place 20⟩ (place 20), .clear .title (place 30)]
    (Command.create "walk".toList ops (place 0)).compile today none
      = .error ⟨.emptyKey ":2".toList, some (place 20)⟩ := by
  decide +kernel

end Agenda
