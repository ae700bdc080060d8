import Agenda.Proofs.Dictionary
import Agenda.Proofs.Plan.Collect
import Mathlib.Data.Finset.Basic
/-!
# What update requests do

A store keeps a record of each task. A request is carried out on a record all at once: properties are
set or cleared, tags removed and then added, keys removed and then entries set. Operations can also be
carried out on a record one after the other, and a compiled request does what its operations do so. The
exception is a tag that is both added and removed, which the request always leaves on the task.

Results: one more change in a request is one more change of the record (`sameButTags_apply`,
`tags_apply`), and `update_request_does_its_operations`.
-/
namespace Agenda

/-! ## Records -/

@[ext]
structure TaskRecord where
  title : Text
  notes : Text
  state : TaskState
  due : Option Date
  waitingFor : Option Text
  tags : TagKind → Finset Text
  entries : Dictionary

namespace TaskRecord

def addTags (t : TaskRecord) (kind : TagKind) (names : List Text) : TaskRecord :=
  { t with tags := fun k => if k = kind then t.tags k ∪ names.toFinset else t.tags k }

def removeTags (t : TaskRecord) (kind : TagKind) (names : List Text) : TaskRecord :=
  { t with tags := fun k => if k = kind then t.tags k \ names.toFinset else t.tags k }

def setEntries (t : TaskRecord) (es : List Entry) : TaskRecord :=
  { t with entries := es.foldl .insert t.entries }

def removeKeys (t : TaskRecord) (ks : List Text) : TaskRecord :=
  { t with entries := t.entries.without ks }

/-- The record after one operation, given on `today`; nothing where the operation is none of an
update. -/
def perform (today : Date) (t : TaskRecord) : Op → Option TaskRecord
  | .edit .set .title v _ => v.title.toOption.map fun s => { t with title := s }
  | .edit .set .notes v _ => some { t with notes := v.trimmed }
  | .edit .set .state v _ => v.state.toOption.map fun s => { t with state := s }
  | .edit .set .due v _ => (v.day today).toOption.map fun d => { t with due := some d }
  | .edit .set .waiting v _ => some { t with waitingFor := some v.trimmed }
  | .edit .set .metadata v _ => v.entries.toOption.map t.setEntries
  | .edit .add .projects v _ => some (t.addTags .project v.items)
  | .edit .add .contexts v _ => some (t.addTags .context v.items)
  | .edit .add .metadata v _ => v.entries.toOption.map t.setEntries
  | .edit .remove .projects v _ => some (t.removeTags .project v.items)
  | .edit .remove .contexts v _ => some (t.removeTags .context v.items)
  | .edit .remove .metadata v _ => v.keys.toOption.map t.removeKeys
  | .clear .notes _ => some { t with notes := [] }
  | .clear .due _ => some { t with due := none }
  | .clear .waiting _ => some { t with waitingFor := none }
  | .tag kind name _ => some (t.addTags kind [name])
  | _ => none

structure SameButTags (t u : TaskRecord) : Prop where
  title : t.title = u.title
  notes : t.notes = u.notes
  state : t.state = u.state
  due : t.due = u.due
  waitingFor : t.waitingFor = u.waitingFor
  entries : t.entries = u.entries

theorem SameButTags.trans {t u w : TaskRecord} (h : t.SameButTags u) (h' : u.SameButTags w) :
    t.SameButTags w :=
  ⟨h.title.trans h'.title, h.notes.trans h'.notes, h.state.trans h'.state, h.due.trans h'.due,
    h.waitingFor.trans h'.waitingFor, h.entries.trans h'.entries⟩

end TaskRecord

def Revision.revise {α : Type} : Revision α → Option α → Option α
  | keep, old => old
  | clear, _ => none
  | put a, _ => some a

def UpdateRequest.applyTo (r : UpdateRequest) (t : TaskRecord) : TaskRecord where
  title := r.title.getD t.title
  notes := r.notes.getD t.notes
  state := r.state.getD t.state
  due := r.due.revise t.due
  waitingFor := r.waiting.revise t.waitingFor
  tags kind := (t.tags kind \ (r.removed kind).toFinset) ∪ (r.added kind).toFinset
  entries := (t.entries.without r.removeKeys).update r.setEntries

theorem UpdateRequest.tags_applyTo (r : UpdateRequest) (t : TaskRecord) (kind : TagKind) :
    (r.applyTo t).tags kind
      = (t.tags kind \ (r.removed kind).toFinset) ∪ (r.added kind).toFinset := rfl

/-- A key is found among the entries to set, and else in the record unless it is removed. -/
theorem UpdateRequest.find?_applyTo (r : UpdateRequest) (t : TaskRecord) (k : Text) :
    (r.applyTo t).entries.find? k
      = (r.setEntries.find? k).or (if k ∈ r.removeKeys then none else t.entries.find? k) := by
  rw [applyTo, Dictionary.find?_update, Dictionary.find?_without]

/-! ## Changes of records -/

namespace UpdateChange

def effect (t : TaskRecord) : UpdateChange → TaskRecord
  | title s => { t with title := s }
  | notes s => { t with notes := s }
  | state s => { t with state := s }
  | setDue d => { t with due := some d }
  | clearDue => { t with due := none }
  | setWaiting s => { t with waitingFor := some s }
  | clearWaiting => { t with waitingFor := none }
  | addTags kind names => t.addTags kind names
  | removeTags kind names => t.removeTags kind names
  | setEntries es => t.setEntries es
  | removeKeys ks => t.removeKeys ks

variable {today : Date} {op : Op} {change : UpdateChange}

/-- An operation is carried out as the change that it means. -/
theorem perform_of_means (means : Means today op change) (t : TaskRecord) :
    t.perform today op = some (change.effect t) := by
  cases means with
  | setTitle h | setState h | setDue h | putEntries h | addEntries h | removeKeys h =>
    simp only [TaskRecord.perform, h]; rfl
  | addTags kind | removeTags kind => cases kind <;> rfl
  | _ => rfl

/-! ## Entries -/

theorem entries_setEntry (r : UpdateRequest) (e : Entry) (t : TaskRecord) :
    ((setEntry r e).applyTo t).entries = (r.applyTo t).entries.insert e := by
  refine Dictionary.ext_find? fun k => ?_
  -- for every other key, taking `e.key` from the keys to remove makes no difference
  rw [UpdateRequest.find?_applyTo, Dictionary.find?_insert, UpdateRequest.find?_applyTo]
  by_cases hk : e.key = k
  · simp [setEntry, Dictionary.find?_insert, hk]
  · simp [setEntry, Dictionary.find?_insert, hk, Ne.symm hk]

theorem entries_removeKey (r : UpdateRequest) (j : Text) (t : TaskRecord) :
    ((removeKey r j).applyTo t).entries = (r.applyTo t).entries.erase j := by
  refine Dictionary.ext_find? fun k => ?_
  rw [UpdateRequest.find?_applyTo, Dictionary.find?_erase, UpdateRequest.find?_applyTo]
  by_cases hk : j = k
  · simp [removeKey, Dictionary.find?_erase, hk]
  · simp [removeKey, Dictionary.find?_erase, hk, Ne.symm hk]

theorem entries_setEntries (es : List Entry) (r : UpdateRequest) (t : TaskRecord) :
    (((setEntries es).apply r).applyTo t).entries = es.foldl .insert (r.applyTo t).entries := by
  rw [apply]
  induction es generalizing r with
  | nil => rfl
  | cons e es ih => rw [List.foldl_cons, ih, entries_setEntry, List.foldl_cons]

theorem entries_removeKeys (ks : List Text) (r : UpdateRequest) (t : TaskRecord) :
    (((removeKeys ks).apply r).applyTo t).entries = (r.applyTo t).entries.without ks := by
  rw [apply, Dictionary.without]
  induction ks generalizing r with
  | nil => rfl
  | cons k ks ih => rw [List.foldl_cons, ih, entries_removeKey, List.foldl_cons]

/-! ## One change -/

/-- One more change in a request is one more change of the record, but for its tags. -/
theorem sameButTags_apply (means : Means today op change) (r : UpdateRequest) (t : TaskRecord) :
    ((change.apply r).applyTo t).SameButTags (change.effect (r.applyTo t)) := by
  cases means with
  | addTags kind | removeTags kind | tag kind => cases kind <;> exact ⟨rfl, rfl, rfl, rfl, rfl, rfl⟩
  | @putEntries _ _ es | @addEntries _ _ es =>
    have hentries := entries_setEntries es r t
    rw [apply_setEntries] at hentries ⊢
    exact ⟨rfl, rfl, rfl, rfl, rfl, hentries⟩
  | @removeKeys _ _ ks =>
    have hentries := entries_removeKeys ks r t
    rw [apply_removeKeys] at hentries ⊢
    exact ⟨rfl, rfl, rfl, rfl, rfl, hentries⟩
  | _ => exact ⟨rfl, rfl, rfl, rfl, rfl, rfl⟩

theorem sameButTags_effect (change : UpdateChange) {t u : TaskRecord} (h : t.SameButTags u) :
    (change.effect t).SameButTags (change.effect u) := by
  obtain ⟨htitle, hnotes, hstate, hdue, hwaiting, hentries⟩ := h
  cases change <;> constructor <;>
    simp [effect, TaskRecord.addTags, TaskRecord.removeTags, TaskRecord.setEntries,
      TaskRecord.removeKeys, htitle, hnotes, hstate, hdue, hwaiting, hentries]

/-- The tags of a record after an operation. -/
theorem tags_effect (means : Means today op change) (t : TaskRecord) (kind : TagKind) :
    (change.effect t).tags kind
      = (t.tags kind \ (op.removed kind).toFinset) ∪ (op.added kind).toFinset := by
  cases means with
  | addTags k | tag k =>
    cases k <;> cases kind <;> simp [effect, TaskRecord.addTags, Op.added, Op.removed, TagKind.field]
  | removeTags k =>
    cases k <;> cases kind <;> simp [effect, TaskRecord.removeTags, Op.added, Op.removed, TagKind.field]
  | addEntries | removeKeys =>
    cases kind <;> simp [effect, TaskRecord.setEntries, TaskRecord.removeKeys, Op.added, Op.removed,
      TagKind.field]
  | _ => simp [effect, TaskRecord.setEntries, Op.added, Op.removed]

/-- One more change in a request is one more change of the record's tags, where it removes none that
the request adds. -/
theorem tags_apply (means : Means today op change) {r : UpdateRequest} {kind : TagKind}
    (h : ∀ name ∈ r.added kind, name ∉ op.removed kind) (t : TaskRecord) :
    ((change.apply r).applyTo t).tags kind
      = ((r.applyTo t).tags kind \ (op.removed kind).toFinset) ∪ (op.added kind).toFinset := by
  rw [UpdateRequest.tags_applyTo, UpdateRequest.tags_applyTo, added_apply means, removed_apply means]
  ext name
  -- a tag that the request adds comes after all removals, so the operation must not remove it
  have := h name
  simp only [Finset.mem_union, Finset.mem_sdiff, List.mem_toFinset, List.mem_append]
  tauto

end UpdateChange

/-! ## A whole request -/

/-- Dropping repetitions changes nothing that a request does. -/
theorem UpdateRequest.applyTo_deduped (r : UpdateRequest) (t : TaskRecord) :
    r.deduped.applyTo t = r.applyTo t := by
  have hfinset (items : List Text) : (dedupe items).toFinset = items.toFinset :=
    Finset.ext fun x => by rw [List.mem_toFinset, List.mem_toFinset, mem_dedupe]
  refine TaskRecord.ext rfl rfl rfl rfl rfl (funext fun kind => ?_) (Dictionary.ext_find? fun k => ?_)
  · rw [tags_applyTo, tags_applyTo, added_deduped, removed_deduped, hfinset, hfinset]
  · rw [find?_applyTo, find?_applyTo]
    simp only [deduped, mem_dedupe]

/-- No tag of the kind is both added and removed. -/
def Op.KeepTagsApart (kind : TagKind) (ops : List Op) : Prop :=
  ∀ name ∈ ops.flatMap (Op.added kind), name ∉ ops.flatMap (Op.removed kind)

instance (kind : TagKind) (ops : List Op) : Decidable (Op.KeepTagsApart kind ops) :=
  inferInstanceAs <| Decidable <|
    ∀ name ∈ ops.flatMap (Op.added kind), name ∉ ops.flatMap (Op.removed kind)

theorem Op.KeepTagsApart.of_append {kind : TagKind} {ops : List Op} {op : Op}
    (h : KeepTagsApart kind (ops ++ [op])) :
    KeepTagsApart kind ops ∧ ∀ name ∈ ops.flatMap (Op.added kind), name ∉ op.removed kind := by
  have hadded {name : Text} (hname : name ∈ ops.flatMap (Op.added kind)) :
      name ∉ ops.flatMap (Op.removed kind) ∧ name ∉ op.removed kind := by
    have hall := h name (by rw [List.flatMap_append]; exact List.mem_append_left _ hname)
    rwa [List.flatMap_append, List.flatMap_singleton, List.mem_append, not_or] at hall
  exact ⟨fun _ hname => (hadded hname).1, fun _ hname => (hadded hname).2⟩

/-- What operations add up to does what they do one after the other. The records that the two make stay
the same but for tags along the operations. -/
theorem Collects.exists_foldlM {today : Date} {id : Nat} {ops : List Op} {r : UpdateRequest}
    (h : Collects today id ops r) (t : TaskRecord) :
    ∃ u, ops.foldlM (TaskRecord.perform today) t = some u ∧ (r.applyTo t).SameButTags u ∧
      ∀ kind, Op.KeepTagsApart kind ops → (r.applyTo t).tags kind = u.tags kind := by
  induction h with
  | none =>
    refine ⟨t, rfl, ⟨rfl, rfl, rfl, rfl, rfl, rfl⟩, fun kind _ => ?_⟩
    cases kind <;> simp [UpdateRequest.tags_applyTo, UpdateRequest.added, UpdateRequest.removed,
      UpdateRequest.blank]
  | @more ops r op change before means ih =>
    obtain ⟨u, hrun, hsame, htags⟩ := ih
    refine ⟨change.effect u, ?_, ?_, fun kind hapart => ?_⟩
    · rw [List.foldlM_append, hrun]
      simp [UpdateChange.perform_of_means means]
    · exact (UpdateChange.sameButTags_apply means r t).trans
        (UpdateChange.sameButTags_effect change hsame)
    · obtain ⟨hops, hop⟩ := hapart.of_append
      rw [← before.added] at hop
      rw [UpdateChange.tags_apply means hop, htags kind hops, UpdateChange.tags_effect means]

/-- A compiled request does to every record what its operations do to it one after the other. Of the tags
of a kind this holds when none of them is both added and removed. -/
theorem update_request_does_its_operations (today : Date) (selected : Option Nat) (target : Target)
    (ops : List Op) (span : Span) (r : UpdateRequest)
    (h : UpdateRequest.compile today selected target ops span = .ok r) (t : TaskRecord) :
    ∃ u, ops.foldlM (TaskRecord.perform today) t = some u ∧ (r.applyTo t).SameButTags u ∧
      ∀ kind, Op.KeepTagsApart kind ops → (r.applyTo t).tags kind = u.tags kind := by
  obtain ⟨id, collected, -, hcollects, rfl⟩ := exists_collects_of_compile h
  rw [UpdateRequest.applyTo_deduped]
  exact hcollects.exists_foldlM t

/-- A due day that is cleared and then set, an entry that is set, removed and set again, and tags of both
kinds. -/
theorem update_request_does_its_operations_in_turn :
    let today : Date := ⟨2025, 3, 9, by decide, by decide, by decide, by decide⟩
    let value (raw : String) : Value := ⟨raw.toList, false, .zero⟩
    let ops : List Op :=
      [.clear .due .zero, .edit .set .due (value "tomorrow") .zero,
        .edit .set .metadata (value "url:x,tel:1") .zero, .edit .remove .metadata (value "url") .zero,
        .edit .add .metadata (value "url:y") .zero, .edit .remove .metadata (value "tel") .zero,
        .tag .project "home".toList .zero, .edit .remove .contexts (value "work,phone") .zero]
    ∃ r, UpdateRequest.compile today (some 3) .selected ops .zero = .ok r ∧
      ∀ t : TaskRecord, ∃ u, ops.foldlM (TaskRecord.perform today) t = some u ∧
        (r.applyTo t).SameButTags u ∧ (r.applyTo t).tags .project = u.tags .project ∧
        (r.applyTo t).tags .context = u.tags .context := by
  intro today value ops
  have hok : (UpdateRequest.compile today (some 3) .selected ops .zero).isOk = true := by
    decide +kernel
  cases hr : UpdateRequest.compile today (some 3) .selected ops .zero with
  | error e => rw [hr] at hok; cases hok
  | ok r =>
    refine ⟨r, rfl, fun t => ?_⟩
    obtain ⟨u, hrun, hsame, htags⟩ :=
      update_request_does_its_operations today (some 3) .selected ops .zero r hr t
    exact ⟨u, hrun, hsame, htags .project (by decide +kernel), htags .context (by decide +kernel)⟩

/-- A tag that is added and then removed shows that the tags of a kind have to be kept apart. -/
example :
    let today : Date := ⟨2025, 3, 9, by decide, by decide, by decide, by decide⟩
    let t : TaskRecord := ⟨['a'], [], .inbox, none, none, fun _ => ∅, .empty⟩
    let ops : List Op := [.tag .project "home".toList .zero,
      .edit .remove .projects ⟨"home".toList, false, .zero⟩ .zero]
    ∃ r u, UpdateRequest.compile today none (.id 3) ops .zero = .ok r ∧
      ops.foldlM (TaskRecord.perform today) t = some u ∧
      "home".toList ∈ (r.applyTo t).tags .project ∧ "home".toList ∉ u.tags .project :=
  ⟨_, _, rfl, rfl, by decide, by decide⟩

end Agenda
