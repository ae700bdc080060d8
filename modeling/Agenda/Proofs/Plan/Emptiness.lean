import Agenda.Proofs.Dictionary
import Agenda.Proofs.Plan.Collect
/-!
# Updates that change nothing

An operation of an update asks for nothing when it adds no item to a list, removes none from it, or sets
no entry (`Op.AsksNothing`). Such an operation leaves the request as it is. Any other operation leaves a
request that changes something, whatever the request was: a cleared property is to be cleared, a removed
entry has a key to remove, and an entry that is set again takes the place of the removed one. So
operations may undo each other, but never so that nothing is left to do.

Results: `UpdateChange.apply_eq_self`, `UpdateChange.asksNothing_of_apply_eq_blank`, and
`update_request_is_empty_iff`.
-/
namespace Agenda

/-! ## Values without items -/

/-- There are only commas and blanks in a value, so that no item is left between the commas. -/
def Value.HasNoItem (v : Value) : Prop := ∀ c ∈ v.raw, c = ',' ∨ Text.isBlank c = true

instance (v : Value) : Decidable v.HasNoItem := List.decidableBAll _ _

theorem Value.items_eq_nil_iff {v : Value} : v.items = [] ↔ v.HasNoItem := by
  rw [items, List.filter_eq_nil_iff, HasNoItem, ← Text.forall_mem_pieces, List.forall_mem_map]
  simp only [decide_eq_true_eq, not_not, Text.trim_eq_nil_iff]

/-! ## Operations that ask for nothing -/

/-- An operation changes no item of a list, for its value has none. -/
def Op.AsksNothing : Op → Prop
  | .edit how f v _ =>
    v.HasNoItem ∧ (f = .metadata ∨ (how = .add ∨ how = .remove) ∧ (f = .projects ∨ f = .contexts))
  | _ => False

instance (op : Op) : Decidable op.AsksNothing :=
  match op with
  | .edit .. => inferInstanceAs (Decidable (_ ∧ _))
  | .clear .. | .tag .. => inferInstanceAs (Decidable False)

theorem Op.asksNothing_of_items {how : Edit} {kind : TagKind} {v : Value} {span : Span}
    (h : v.items = []) (hhow : how = .add ∨ how = .remove) :
    AsksNothing (.edit how kind.field v span) := by
  refine ⟨Value.items_eq_nil_iff.1 h, Or.inr ⟨hhow, ?_⟩⟩
  cases kind with
  | project => exact Or.inl rfl
  | context => exact Or.inr rfl

theorem UpdateRequest.isEmpty_iff {r : UpdateRequest} : r.isEmpty = true ↔ r = blank r.id := by
  rw [isEmpty, beq_iff_eq]

namespace UpdateChange

variable {today : Date} {op : Op} {change : UpdateChange} {r : UpdateRequest}

/-- An operation that asks for nothing leaves the request as it is. -/
theorem apply_eq_self (means : Means today op change) (h : op.AsksNothing) : change.apply r = r := by
  cases means with
  | addTags kind | removeTags kind =>
    rw [Value.items_eq_nil_iff.2 h.1]
    cases kind <;> simp [apply]
  | putEntries hes | addEntries hes =>
    rw [(Value.eq_nil_iff_of_readAll hes).1 (Value.items_eq_nil_iff.2 h.1)]
    rfl
  | removeKeys hks =>
    rw [(Value.eq_nil_iff_of_readAll hks).1 (Value.items_eq_nil_iff.2 h.1)]
    rfl
  | _ => simp [Op.AsksNothing] at h

/-- A request in which entries were set has the last of them to set. -/
theorem eq_nil_of_setEntries {es : List Entry} (h : ((setEntries es).apply r).setEntries = .empty) :
    es = [] := by
  cases es using List.reverseRecOn with
  | nil => rfl
  | append_singleton es e =>
    -- the last entry is to be set, whatever was set or removed before it
    rw [apply, List.foldl_append] at h
    have hkey : e.key ∈ (((es.foldl setEntry r).setEntries).insert e).keys :=
      Dictionary.mem_keys_insert.2 (Or.inl rfl)
    rw [show ((es.foldl setEntry r).setEntries).insert e = .empty from h] at hkey
    exact absurd hkey List.not_mem_nil

/-- A request in which keys were removed has the last of them to remove. -/
theorem eq_nil_of_removeKeys {ks : List Text} (h : ((removeKeys ks).apply r).removeKeys = []) :
    ks = [] := by
  cases ks using List.reverseRecOn with
  | nil => rfl
  | append_singleton ks k =>
    rw [apply, List.foldl_append] at h
    exact absurd h (List.append_ne_nil_of_right_ne_nil _ (List.cons_ne_nil k []))

/-- An operation after which the request changes nothing asks for nothing. -/
theorem asksNothing_of_apply_eq_blank (means : Means today op change) {id : Nat}
    (h : change.apply r = .blank id) : op.AsksNothing := by
  -- tags to add and tags to remove only become more
  have hadded (kind : TagKind) : r.added kind ++ op.added kind = [] := by
    rw [← added_apply means, h]
    cases kind <;> rfl
  have hremoved (kind : TagKind) : r.removed kind ++ op.removed kind = [] := by
    rw [← removed_apply means, h]
    cases kind <;> rfl
  cases means with
  | addTags kind =>
    have hitems := (List.append_eq_nil_iff.1 (hadded kind)).2
    rw [Op.added, if_pos rfl] at hitems
    exact Op.asksNothing_of_items hitems (Or.inl rfl)
  | removeTags kind =>
    have hitems := (List.append_eq_nil_iff.1 (hremoved kind)).2
    rw [Op.removed, if_pos rfl] at hitems
    exact Op.asksNothing_of_items hitems (Or.inr rfl)
  | tag kind =>
    have hname := (List.append_eq_nil_iff.1 (hadded kind)).2
    rw [Op.added, if_pos rfl] at hname
    cases hname
  | putEntries hes | addEntries hes =>
    have hnil := eq_nil_of_setEntries (congrArg UpdateRequest.setEntries h)
    exact ⟨Value.items_eq_nil_iff.1 ((Value.eq_nil_iff_of_readAll hes).2 hnil), Or.inl rfl⟩
  | removeKeys hks =>
    have hnil := eq_nil_of_removeKeys (congrArg UpdateRequest.removeKeys h)
    exact ⟨Value.items_eq_nil_iff.1 ((Value.eq_nil_iff_of_readAll hks).2 hnil), Or.inl rfl⟩
  | _ => simp [apply, UpdateRequest.blank] at h

/-- One more operation leaves nothing to do only where there was nothing and it asks for nothing. -/
theorem isEmpty_apply (means : Means today op change) :
    (change.apply r).isEmpty = true ↔ r.isEmpty = true ∧ op.AsksNothing := by
  constructor
  · intro h
    have hnothing := asksNothing_of_apply_eq_blank means (UpdateRequest.isEmpty_iff.1 h)
    rw [apply_eq_self means hnothing] at h
    exact ⟨h, hnothing⟩
  · rintro ⟨h, hnothing⟩
    rw [apply_eq_self means hnothing]
    exact h

end UpdateChange

/-! ## Runs of operations -/

theorem Collects.isEmpty_iff {today : Date} {id : Nat} {ops : List Op} {r : UpdateRequest}
    (h : Collects today id ops r) : r.isEmpty = true ↔ ∀ op ∈ ops, op.AsksNothing := by
  induction h with
  | none => exact iff_of_true (UpdateRequest.isEmpty_iff.2 rfl) (List.forall_mem_nil _)
  | more before means ih =>
    rw [UpdateChange.isEmpty_apply means, ih, List.forall_mem_append, List.forall_mem_singleton]

theorem UpdateRequest.isEmpty_deduped {r : UpdateRequest} :
    r.deduped.isEmpty = true ↔ r.isEmpty = true := by
  cases r
  simp [isEmpty, blank, deduped, dedupe_eq_nil_iff]

/-- The request of an update changes nothing exactly if every operation asks for nothing: no operations
cancel each other. -/
theorem update_request_is_empty_iff {today : Date} {selected : Option Nat} {target : Target}
    {ops : List Op} {span : Span} {r : UpdateRequest}
    (h : UpdateRequest.compile today selected target ops span = .ok r) :
    r.isEmpty = true ↔ ∀ op ∈ ops, op.AsksNothing := by
  obtain ⟨id, collected, -, hcollects, rfl⟩ := exists_collects_of_compile h
  rw [UpdateRequest.isEmpty_deduped, hcollects.isEmpty_iff]

/-- An entry that is set and then removed leaves a key to remove; a list of commas and blanks leaves
nothing. -/
theorem update_request_is_empty_iff_here :
    let today : Date := ⟨2025, 3, 9, by decide, by decide, by decide, by decide⟩
    let value (raw : String) : Value := ⟨raw.toList, false, .zero⟩
    let commas : Op := .edit .add .projects (value " , ,") .zero
    let setEntry : Op := .edit .set .metadata (value "tel:1") .zero
    let removeKey : Op := .edit .remove .metadata (value "tel") .zero
    let compile (ops : List Op) := UpdateRequest.compile today none (.id 3) ops .zero
    (∃ r, compile [commas, setEntry, removeKey] = .ok r ∧ r.isEmpty = false) ∧
      ∃ r, compile [commas] = .ok r ∧ r.isEmpty = true := by
  intro today value commas setEntry removeKey compile
  have hok (ops : List Op) (h : (compile ops).isOk = true) : ∃ r, compile ops = .ok r := by
    cases hr : compile ops with
    | error e => rw [hr] at h; cases h
    | ok r => exact ⟨r, rfl⟩
  obtain ⟨r, hr⟩ := hok [commas, setEntry, removeKey] (by decide +kernel)
  obtain ⟨r', hr'⟩ := hok [commas] (by decide +kernel)
  refine ⟨⟨r, hr, Bool.eq_false_iff.2 fun hempty => ?_⟩, r', hr', ?_⟩
  · exact absurd ((update_request_is_empty_iff hr).1 hempty) (by decide +kernel)
  · exact (update_request_is_empty_iff hr').2 (by decide +kernel)

end Agenda
