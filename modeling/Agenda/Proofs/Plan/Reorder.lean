import Agenda.Plan
import Agenda.Proofs.Plan.Collect
import Agenda.Proofs.Plan.Create
import Mathlib.Data.List.Perm.Basic
/-!
# Operations on different fields

A request consists of parts, one for each field. An operation reads and writes the part of its own field
and no other (`PartByPart`). What a list of operations does to a part is therefore what the operations on
that field do, in their order, and operations on different fields may change places.

Results: create and update requests are built part by part (`CreateRequest.partByPart`,
`UpdateRequest.partByPart`); the operations on one field decide its part (`PartByPart.part_foldl`); and
`reordered_operations_compile_alike`.
-/
namespace Agenda

open CompileError (Cause)

/-! ## Requests part by part -/

/-- Changes are made part by part: a change leaves every part but its own, and makes its own from nothing
but that part. A request is given by its parts. -/
structure PartByPart {ρ α : Type} (apply : ρ → α → ρ) (field : α → Field) (part : Field → ρ → ρ) :
    Prop where
  other : ∀ r c f, field c ≠ f → part f (apply r c) = part f r
  own : ∀ r c, part (field c) (apply r c) = part (field c) (apply (part (field c) r) c)
  ext : ∀ r r', (∀ f, part f r = part f r') → r = r'

namespace PartByPart

variable {ρ α : Type} {apply : ρ → α → ρ} {field : α → Field} {part : Field → ρ → ρ} {f : Field}
  {r r' : ρ} {cs cs' : List α}

/-- Equal parts stay equal under changes of them. -/
theorem part_foldl_congr (laws : PartByPart apply field part) (hcs : ∀ c ∈ cs, field c = f)
    (h : part f r = part f r') : part f (cs.foldl apply r) = part f (cs.foldl apply r') := by
  induction cs generalizing r r' with
  | nil => exact h
  | cons c cs ih =>
    obtain ⟨rfl, hrest⟩ := List.forall_mem_cons.1 hcs
    refine ih hrest ?_
    rw [laws.own, h, ← laws.own]

/-- What changes do to a part is what those of this part do. -/
theorem part_foldl (laws : PartByPart apply field part) (f : Field) (cs : List α) (r : ρ) :
    part f (cs.foldl apply r) = part f ((cs.filter fun c => field c = f).foldl apply r) := by
  induction cs generalizing r with
  | nil => rfl
  | cons c cs ih =>
    rw [List.foldl_cons, ih]
    by_cases hc : field c = f
    · rw [List.filter_cons_of_pos (by simpa using hc), List.foldl_cons]
    · -- what is done to another part makes no difference to the changes that follow
      rw [List.filter_cons_of_neg (by simpa using hc)]
      refine laws.part_foldl_congr (fun c hmem => ?_) (laws.other r c f hc)
      exact of_decide_eq_true (List.mem_filter.1 hmem).2

/-- Changes that are the same for every part, in the same order, make the same request. -/
theorem foldl_eq (laws : PartByPart apply field part)
    (h : ∀ f, cs.filter (fun c => field c = f) = cs'.filter fun c => field c = f) (r : ρ) :
    cs.foldl apply r = cs'.foldl apply r :=
  laws.ext _ _ fun f => by rw [laws.part_foldl, h, ← laws.part_foldl]

end PartByPart

attribute [ext] CreateRequest UpdateRequest

/-! ## Create requests -/

def CreateChange.field : CreateChange → Field
  | title _ => .title
  | notes _ => .notes
  | state _ => .state
  | due _ => .due
  | waitingFor _ => .waiting
  | setTags kind _ | addTags kind _ => kind.field
  | setEntries _ | addEntries _ => .metadata

theorem CreateChange.Means.field_eq {today : Date} {op : Op} {change : CreateChange}
    (means : Means today op change) : change.field = op.field := by
  cases means <;> rfl

/-- A task with nothing but what a request says of one field. -/
def CreateRequest.part (f : Field) (r : CreateRequest) : CreateRequest :=
  match f with
  | .title => titled r.title
  | .notes => { titled [] with notes := r.notes }
  | .state => { titled [] with state := r.state }
  | .due => { titled [] with due := r.due }
  | .waiting => { titled [] with waitingFor := r.waitingFor }
  | .projects => { titled [] with projects := r.projects }
  | .contexts => { titled [] with contexts := r.contexts }
  | .metadata => { titled [] with entries := r.entries }

theorem CreateRequest.partByPart : PartByPart CreateChange.apply CreateChange.field part where
  other r c f h := by
    cases c with
    | setTags kind | addTags kind => cases kind <;> cases f <;> first | rfl | exact absurd rfl h
    | _ => cases f <;> first | rfl | exact absurd rfl h
  own r c := by
    cases c with
    | setTags kind | addTags kind => cases kind <;> rfl
    | _ => rfl
  ext r r' h := by
    have on {β : Type} (value : CreateRequest → β) (f : Field) : value (part f r) = value (part f r') :=
      congrArg value (h f)
    exact CreateRequest.ext (on title .title) (on notes .notes) (on state .state) (on due .due)
      (on waitingFor .waiting) (on projects .projects) (on contexts .contexts) (on entries .metadata)

/-! ## Update requests -/

def UpdateChange.field : UpdateChange → Field
  | title _ => .title
  | notes _ => .notes
  | state _ => .state
  | setDue _ | clearDue => .due
  | setWaiting _ | clearWaiting => .waiting
  | addTags kind _ | removeTags kind _ => kind.field
  | setEntries _ | removeKeys _ => .metadata

theorem UpdateChange.Means.field_eq {today : Date} {op : Op} {change : UpdateChange}
    (means : Means today op change) : change.field = op.field := by
  cases means <;> rfl

/-- A request, for the same task, with nothing but what a request says of one field. -/
def UpdateRequest.part (f : Field) (r : UpdateRequest) : UpdateRequest :=
  match f with
  | .title => { blank r.id with title := r.title }
  | .notes => { blank r.id with notes := r.notes }
  | .state => { blank r.id with state := r.state }
  | .due => { blank r.id with dueOn := r.dueOn, clearDue := r.clearDue }
  | .waiting => { blank r.id with waitingFor := r.waitingFor, clearWaiting := r.clearWaiting }
  | .projects => { blank r.id with addProjects := r.addProjects, removeProjects := r.removeProjects }
  | .contexts => { blank r.id with addContexts := r.addContexts, removeContexts := r.removeContexts }
  | .metadata => { blank r.id with setEntries := r.setEntries, removeKeys := r.removeKeys }

namespace UpdateRequest

theorem part_setEntries (es : List Entry) (r : UpdateRequest) :
    part .metadata ((UpdateChange.setEntries es).apply r)
      = (UpdateChange.setEntries es).apply (part .metadata r) :=
  (List.foldl_hom (part .metadata) fun _ _ => rfl).symm

theorem part_removeKeys (ks : List Text) (r : UpdateRequest) :
    part .metadata ((UpdateChange.removeKeys ks).apply r)
      = (UpdateChange.removeKeys ks).apply (part .metadata r) :=
  (List.foldl_hom (part .metadata) fun _ _ => rfl).symm

theorem partByPart : PartByPart UpdateChange.apply UpdateChange.field part where
  other r c f h := by
    cases c with
    | addTags kind | removeTags kind => cases kind <;> cases f <;> first | rfl | exact absurd rfl h
    | setEntries es =>
      rw [UpdateChange.apply_setEntries]
      cases f <;> first | rfl | exact absurd rfl h
    | removeKeys ks =>
      rw [UpdateChange.apply_removeKeys]
      cases f <;> first | rfl | exact absurd rfl h
    | _ => cases f <;> first | rfl | exact absurd rfl h
  own r c := by
    cases c with
    | addTags kind | removeTags kind => cases kind <;> rfl
    | setEntries es => exact (part_setEntries es r).trans (part_setEntries es (part .metadata r)).symm
    | removeKeys ks => exact (part_removeKeys ks r).trans (part_removeKeys ks (part .metadata r)).symm
    | _ => rfl
  ext r r' h := by
    have on {β : Type} (value : UpdateRequest → β) (f : Field) : value (part f r) = value (part f r') :=
      congrArg value (h f)
    exact UpdateRequest.ext (on id .title) (on title .title) (on notes .notes) (on state .state)
      (on dueOn .due) (on clearDue .due) (on waitingFor .waiting) (on clearWaiting .waiting)
      (on addProjects .projects) (on removeProjects .projects) (on addContexts .contexts)
      (on removeContexts .contexts) (on setEntries .metadata) (on removeKeys .metadata)

end UpdateRequest

/-! ## Reordered operations -/

namespace Op

/-- The same operations, those on one field in the same order. -/
structure Reorders (ops ops' : List Op) : Prop where
  perm : ops.Perm ops'
  on_field : ∀ f, ops.filter (fun op => op.field = f) = ops'.filter fun op => op.field = f

theorem Reorders.symm {ops ops' : List Op} (h : Reorders ops ops') : Reorders ops' ops :=
  ⟨h.perm.symm, fun f => (h.on_field f).symm⟩

section
variable {α ρ : Type} {meaning : Op → Except Cause α} {apply : ρ → α → ρ} {field : α → Field}
  {part : Field → ρ → ρ} {ops ops' : List Op} {cs : List α}

theorem changes_eq_ok_iff :
    changes meaning ops = .ok cs ↔ List.Forall₂ (fun op c => meaning op = .ok c) ops cs := by
  constructor
  · intro h
    exact (Value.forall₂_of_readAll h).imp fun _ _ => ok_of_located
  · intro h
    induction h with
    | nil => rfl
    | @cons op c ops cs hc _ ih =>
      rw [changes] at ih ⊢
      rw [Value.readAll, hc, ih]
      rfl

/-- Reordered operations have the same meanings, those for one field in the same order. -/
theorem Reorders.exists_changes (h : Reorders ops ops')
    (hfield : ∀ op c, meaning op = .ok c → field c = op.field) (hcs : changes meaning ops = .ok cs) :
    ∃ cs', changes meaning ops' = .ok cs'
      ∧ ∀ f, cs.filter (fun c => field c = f) = cs'.filter fun c => field c = f := by
  have hall := changes_eq_ok_iff.1 hcs
  obtain ⟨cs', hall', -⟩ := List.perm_comp_forall₂ h.perm.symm hall
  refine ⟨cs', changes_eq_ok_iff.2 hall', fun f => ?_⟩
  have hfilter {ops : List Op} {cs : List α}
      (hall : List.Forall₂ (fun op c => meaning op = .ok c) ops cs) :
      List.Forall₂ (fun op c => meaning op = .ok c) (ops.filter fun op => op.field = f)
        (cs.filter fun c => field c = f) :=
    List.rel_filter (fun op c hc => by simp [hfield op c hc]) hall
  have hon := hfilter hall
  rw [h.on_field f] at hon
  exact List.right_unique_forall₂' (fun _ _ _ hb hc => Except.ok.inj (hb.symm.trans hc)) hon
    (hfilter hall')

theorem Reorders.exists_foldl (h : Reorders ops ops') (laws : PartByPart apply field part)
    (hfield : ∀ op c, meaning op = .ok c → field c = op.field) (hcs : changes meaning ops = .ok cs)
    (r : ρ) : ∃ cs', changes meaning ops' = .ok cs' ∧ cs'.foldl apply r = cs.foldl apply r := by
  obtain ⟨cs', hcs', hsame⟩ := h.exists_changes hfield hcs
  exact ⟨cs', hcs', (laws.foldl_eq hsame r).symm⟩

end

end Op

/-- The commands are the same but for the order of operations on different fields. -/
inductive Command.Reorders : Command → Command → Prop
  | create {title : Text} {ops ops' : List Op} {span : Span} (h : Op.Reorders ops ops') :
      Reorders (.create title ops span) (.create title ops' span)
  | update {target : Target} {ops ops' : List Op} {span : Span} (h : Op.Reorders ops ops') :
      Reorders (.update target ops span) (.update target ops' span)

theorem Command.Reorders.symm {c c' : Command} (h : c.Reorders c') : c'.Reorders c := by
  cases h with
  | create h => exact .create h.symm
  | update h => exact .update h.symm

section
variable {today : Date} {selected : Option Nat} {ops ops' : List Op} {span : Span}

theorem CreateRequest.compile_of_reorders {title : Text} {r : CreateRequest} (h : Op.Reorders ops ops')
    (hr : compile today title ops span = .ok r) : compile today title ops' span = .ok r := by
  unfold compile at hr ⊢
  split at hr
  · cases hr
  · next cs hcs =>
    obtain ⟨cs', hcs', heq⟩ := h.exists_foldl partByPart
      (fun op c hc => (CreateChange.means_of_ofOp hc).field_eq) hcs (titled (Text.trim title))
    rw [hcs']
    simp only [heq]
    exact hr

theorem UpdateRequest.compile_of_reorders {target : Target} {r : UpdateRequest}
    (h : Op.Reorders ops ops') (hr : compile today selected target ops span = .ok r) :
    compile today selected target ops' span = .ok r := by
  unfold compile at hr ⊢
  split at hr
  · cases hr
  · next id hid =>
    split at hr
    · cases hr
    · next cs hcs =>
      obtain ⟨cs', hcs', heq⟩ := h.exists_foldl partByPart
        (fun op c hc => (UpdateChange.means_of_ofOp hc).field_eq) hcs (blank id)
      rw [hcs']
      simp only [heq]
      exact hr

theorem Command.compile_of_reorders {c c' : Command} {plan : Plan} (h : c.Reorders c')
    (hplan : c.compile today selected = .ok plan) : c'.compile today selected = .ok plan := by
  cases h with
  | create h =>
    obtain ⟨r, hr, rfl⟩ := exists_of_map_eq_ok hplan
    rw [compile, CreateRequest.compile_of_reorders h hr]
    rfl
  | update h =>
    obtain ⟨r, hr, rfl⟩ := exists_of_map_eq_ok hplan
    rw [compile, UpdateRequest.compile_of_reorders h hr]
    rfl

end

/-- Operations on different fields may change places: the command makes the same plan, or none as
before. -/
theorem reordered_operations_compile_alike {c c' : Command} (h : c.Reorders c') (today : Date)
    (selected : Option Nat) (plan : Plan) :
    c.compile today selected = .ok plan ↔ c'.compile today selected = .ok plan :=
  ⟨Command.compile_of_reorders h, Command.compile_of_reorders h.symm⟩

/-- An entry is set and its key removed, which does not commute, while the due date and a tag move. -/
theorem reordered_operations_compile_alike_here :
    let today : Date := ⟨2025, 3, 9, by decide, by decide, by decide, by decide⟩
    let due : Op := .clear .due .zero
    let tag : Op := .tag .project "home".toList .zero
    let setEntry : Op := .edit .set .metadata ⟨"a:1".toList, false, .zero⟩ .zero
    let removeKey : Op := .edit .remove .metadata ⟨"a".toList, false, .zero⟩ .zero
    let c : Command := .update .selected [due, setEntry, tag, removeKey] .zero
    let c' : Command := .update .selected [setEntry, removeKey, tag, due] .zero
    c.Reorders c' ∧
      ∃ plan, c.compile today (some 4) = .ok plan ∧ c'.compile today (some 4) = .ok plan := by
  intro today due tag setEntry removeKey c c'
  have h : c.Reorders c' := .update ⟨by decide, fun f => by cases f <;> decide⟩
  refine ⟨h, _, rfl, ?_⟩
  exact (reordered_operations_compile_alike h today (some 4) _).1 rfl

end Agenda
