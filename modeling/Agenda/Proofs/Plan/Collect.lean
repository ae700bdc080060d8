import Agenda.Plan.Update
import Agenda.Proofs.Plan.Change
/-!
# How an update request is collected

Each operation of an update means a change. The changes are made in order to a request that changes
nothing, and at the end repetitions are dropped.

Results: all that an operation can mean (`means_of_ofOp`); what is compiled is collected, and dropping
repetitions is all that is done to it (`exists_collects_of_compile`); the tags of a request are those of
its operations, in order (`Collects.added`, `Collects.removed`).
-/
namespace Agenda

/-! ## Properties that are given or taken away -/

/-- What becomes of a property that a task may have or not. -/
inductive Revision (α : Type) where
  | keep
  | clear
  | put (value : α)

namespace Revision

/-- What a request says of a property in two fields, a new value and whether it is taken away. -/
def ofFields {α : Type} : Option α → Bool → Revision α
  | some a, _ => put a
  | none, true => clear
  | none, false => keep

/-- The two fields and the revision tell each other. -/
structure SaidBy {α : Type} (r : Revision α) (value? : Option α) (clears : Bool) : Prop where
  put_iff : ∀ a, r = put a ↔ value? = some a
  clear_iff : r = clear ↔ clears = true

/-- Nothing of the two fields is lost where they do not give a property and take it away. -/
theorem ofFields_saidBy {α : Type} {value? : Option α} {clears : Bool}
    (h : ¬ (value?.isSome ∧ clears)) : (ofFields value? clears).SaidBy value? clears := by
  refine ⟨fun a => ?_, ?_⟩
  · cases value? <;> cases clears <;> simp [ofFields]
  · cases value? <;> cases clears <;> simp [ofFields] at h ⊢

end Revision

namespace UpdateRequest

def due (r : UpdateRequest) : Revision Date := .ofFields r.dueOn r.clearDue

def waiting (r : UpdateRequest) : Revision Text := .ofFields r.waitingFor r.clearWaiting

end UpdateRequest

/-! ## Meanings of operations -/

namespace UpdateChange

/-- The change that an operation of an update means. -/
inductive Means (today : Date) : Op → UpdateChange → Prop
  | setTitle {v : Value} {span : Span} {s : Text} (h : v.title = .ok s) :
      Means today (.edit .set .title v span) (.title s)
  | setNotes {v : Value} {span : Span} :
      Means today (.edit .set .notes v span) (.notes v.trimmed)
  | setState {v : Value} {span : Span} {s : TaskState} (h : v.state = .ok s) :
      Means today (.edit .set .state v span) (.state s)
  | setDue {v : Value} {span : Span} {d : Date} (h : v.day today = .ok d) :
      Means today (.edit .set .due v span) (.setDue d)
  | setWaiting {v : Value} {span : Span} :
      Means today (.edit .set .waiting v span) (.setWaiting v.trimmed)
  | clearNotes {span : Span} : Means today (.clear .notes span) (.notes [])
  | clearDue {span : Span} : Means today (.clear .due span) .clearDue
  | clearWaiting {span : Span} : Means today (.clear .waiting span) .clearWaiting
  | addTags (kind : TagKind) {v : Value} {span : Span} :
      Means today (.edit .add kind.field v span) (.addTags kind v.items)
  | removeTags (kind : TagKind) {v : Value} {span : Span} :
      Means today (.edit .remove kind.field v span) (.removeTags kind v.items)
  | tag (kind : TagKind) {name : Text} {span : Span} :
      Means today (.tag kind name span) (.addTags kind [name])
  | putEntries {v : Value} {span : Span} {es : List Entry} (h : v.entries = .ok es) :
      Means today (.edit .set .metadata v span) (.setEntries es)
  | addEntries {v : Value} {span : Span} {es : List Entry} (h : v.entries = .ok es) :
      Means today (.edit .add .metadata v span) (.setEntries es)
  | removeKeys {v : Value} {span : Span} {ks : List Text} (h : v.keys = .ok ks) :
      Means today (.edit .remove .metadata v span) (.removeKeys ks)

section
variable {today : Date} {v : Value} {f : Field} {span : Span} {change : UpdateChange}

theorem means_of_ofSet (h : ofSet today v f = .ok change) :
    Means today (.edit .set f v span) change := by
  cases f with
  | title => obtain ⟨s, hs, rfl⟩ := exists_of_map_eq_ok h; exact .setTitle hs
  | notes => cases h; exact .setNotes
  | due => obtain ⟨d, hd, rfl⟩ := exists_of_map_eq_ok h; exact .setDue hd
  | waiting => cases h; exact .setWaiting
  | state => obtain ⟨s, hs, rfl⟩ := exists_of_map_eq_ok h; exact .setState hs
  | projects => cases h
  | contexts => cases h
  | metadata => obtain ⟨es, hes, rfl⟩ := exists_of_map_eq_ok h; exact .putEntries hes

theorem means_of_ofAdd (h : ofAdd v f = .ok change) : Means today (.edit .add f v span) change := by
  cases f with
  | projects => cases h; exact .addTags .project
  | contexts => cases h; exact .addTags .context
  | metadata => obtain ⟨es, hes, rfl⟩ := exists_of_map_eq_ok h; exact .addEntries hes
  | _ => cases h

theorem means_of_ofRemove (h : ofRemove v f = .ok change) :
    Means today (.edit .remove f v span) change := by
  cases f with
  | projects => cases h; exact .removeTags .project
  | contexts => cases h; exact .removeTags .context
  | metadata => obtain ⟨ks, hks, rfl⟩ := exists_of_map_eq_ok h; exact .removeKeys hks
  | _ => cases h

theorem means_of_ofClear (h : ofClear f = .ok change) : Means today (.clear f span) change := by
  cases f with
  | due => cases h; exact .clearDue
  | waiting => cases h; exact .clearWaiting
  | notes => cases h; exact .clearNotes
  | _ => cases h

end

theorem means_of_ofOp {today : Date} {op : Op} {change : UpdateChange}
    (h : ofOp today op = .ok change) : Means today op change := by
  cases op with
  | edit how f v span =>
    cases how with
    | set => exact means_of_ofSet h
    | add => exact means_of_ofAdd h
    | remove => exact means_of_ofRemove h
  | clear f span => exact means_of_ofClear h
  | tag kind name span => cases h; exact .tag kind

end UpdateChange

/-! ## Collecting changes -/

/-- The request that the changes of operations add up to, before repetitions are dropped. -/
inductive Collects (today : Date) (id : Nat) : List Op → UpdateRequest → Prop
  | none : Collects today id [] (.blank id)
  | more {ops : List Op} {r : UpdateRequest} {op : Op} {change : UpdateChange}
      (before : Collects today id ops r) (means : UpdateChange.Means today op change) :
      Collects today id (ops ++ [op]) (change.apply r)

/-- Operations add their changes to what the operations before them collected. -/
theorem Collects.append {today : Date} {id : Nat} {before ops : List Op} {r : UpdateRequest}
    {changes : List UpdateChange} (hbefore : Collects today id before r)
    (h : Op.changes (UpdateChange.ofOp today) ops = .ok changes) :
    Collects today id (before ++ ops) (changes.foldl UpdateChange.apply r) :=
  Op.changes_induction (motive := fun before r => Collects today id before r) h hbefore
    fun _ _ _ _ hcollects hchange => hcollects.more (UpdateChange.means_of_ofOp hchange)

theorem exists_collects_of_compile {today : Date} {selected : Option Nat} {target : Target}
    {ops : List Op} {span : Span} {r : UpdateRequest}
    (h : UpdateRequest.compile today selected target ops span = .ok r) :
    ∃ id collected, target.resolve selected = .ok id ∧ Collects today id ops collected ∧
      r = collected.deduped := by
  unfold UpdateRequest.compile at h
  split at h
  · cases h
  · next id hid =>
    split at h
    · cases h
    · next changes hchanges => cases h; exact ⟨id, _, hid, Collects.none.append hchanges, rfl⟩

/-! ## Changes of entries -/

namespace UpdateChange

/-- Setting entries changes nothing but the entries to set and the keys to remove. -/
theorem apply_setEntries (es : List Entry) (r : UpdateRequest) :
    (setEntries es).apply r = { r with
      setEntries := ((setEntries es).apply r).setEntries
      removeKeys := ((setEntries es).apply r).removeKeys } := by
  induction es generalizing r with
  | nil => rfl
  | cons e es ih => exact ih (setEntry r e)

/-- Removing keys changes nothing but the entries to set and the keys to remove. -/
theorem apply_removeKeys (ks : List Text) (r : UpdateRequest) :
    (removeKeys ks).apply r = { r with
      setEntries := ((removeKeys ks).apply r).setEntries
      removeKeys := ((removeKeys ks).apply r).removeKeys } := by
  induction ks generalizing r with
  | nil => rfl
  | cons k ks ih => exact ih (removeKey r k)

end UpdateChange

/-! ## Tags -/

def Op.added (kind : TagKind) : Op → List Text
  | .edit .add f v _ => if f = kind.field then v.items else []
  | .tag k name _ => if k = kind then [name] else []
  | _ => []

def Op.removed (kind : TagKind) : Op → List Text
  | .edit .remove f v _ => if f = kind.field then v.items else []
  | _ => []

namespace UpdateRequest

def added (r : UpdateRequest) : TagKind → List Text
  | .project => r.addProjects
  | .context => r.addContexts

def removed (r : UpdateRequest) : TagKind → List Text
  | .project => r.removeProjects
  | .context => r.removeContexts

theorem added_deduped (r : UpdateRequest) (kind : TagKind) :
    r.deduped.added kind = dedupe (r.added kind) := by
  cases kind <;> rfl

theorem removed_deduped (r : UpdateRequest) (kind : TagKind) :
    r.deduped.removed kind = dedupe (r.removed kind) := by
  cases kind <;> rfl

end UpdateRequest

namespace UpdateChange

variable {today : Date} {op : Op} {change : UpdateChange}

theorem added_apply (means : Means today op change) (r : UpdateRequest) (kind : TagKind) :
    (change.apply r).added kind = r.added kind ++ op.added kind := by
  cases means with
  | addTags k | tag k => cases k <;> cases kind <;> first | rfl | exact (List.append_nil _).symm
  | removeTags k => cases k <;> cases kind <;> exact (List.append_nil _).symm
  | putEntries | addEntries =>
    rw [apply_setEntries]; cases kind <;> exact (List.append_nil _).symm
  | removeKeys => rw [apply_removeKeys]; cases kind <;> exact (List.append_nil _).symm
  | _ => cases kind <;> exact (List.append_nil _).symm

theorem removed_apply (means : Means today op change) (r : UpdateRequest) (kind : TagKind) :
    (change.apply r).removed kind = r.removed kind ++ op.removed kind := by
  cases means with
  | removeTags k => cases k <;> cases kind <;> first | rfl | exact (List.append_nil _).symm
  | addTags k | tag k => cases k <;> cases kind <;> exact (List.append_nil _).symm
  | putEntries | addEntries =>
    rw [apply_setEntries]; cases kind <;> exact (List.append_nil _).symm
  | removeKeys => rw [apply_removeKeys]; cases kind <;> exact (List.append_nil _).symm
  | _ => cases kind <;> exact (List.append_nil _).symm

end UpdateChange

namespace Collects

variable {today : Date} {id : Nat} {ops : List Op} {r : UpdateRequest}

theorem id_eq (h : Collects today id ops r) : r.id = id := by
  induction h with
  | none => rfl
  | more _ means ih =>
    cases means with
    | addTags kind | removeTags kind | tag kind => cases kind <;> exact ih
    | putEntries | addEntries => rw [UpdateChange.apply_setEntries]; exact ih
    | removeKeys => rw [UpdateChange.apply_removeKeys]; exact ih
    | _ => exact ih

theorem added (h : Collects today id ops r) (kind : TagKind) :
    r.added kind = ops.flatMap (Op.added kind) := by
  induction h with
  | none => cases kind <;> rfl
  | more _ means ih =>
    rw [UpdateChange.added_apply means, ih, List.flatMap_append, List.flatMap_singleton]

theorem removed (h : Collects today id ops r) (kind : TagKind) :
    r.removed kind = ops.flatMap (Op.removed kind) := by
  induction h with
  | none => cases kind <;> rfl
  | more _ means ih =>
    rw [UpdateChange.removed_apply means, ih, List.flatMap_append, List.flatMap_singleton]

end Collects

end Agenda
