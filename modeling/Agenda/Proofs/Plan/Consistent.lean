import Agenda.Proofs.Canonical.RoundTrip
import Agenda.Proofs.Dictionary
import Agenda.Proofs.Plan.Collect
/-!
# Update requests are consistent

No update request asks for two things at once. It is for one task. The due day and what the task waits
for are put or taken away, never both, and as the last operation on them says; a title is one that a
task may have. The tags to add and to remove are those that the operations name, each where it is first
named. No entry is both set and removed, and every key can be told apart from a value.

Results: what one operation preserves (`KeysApart.apply`, `RevisedBy.apply`), and
`compiled_update_is_consistent`.
-/
namespace Agenda

/-! ## The last operation on a field -/

def Op.lastOn (f : Field) (ops : List Op) : Option Op := (ops.filter fun op => op.field = f).getLast?

theorem Op.lastOn_append (f : Field) (ops : List Op) (op : Op) :
    lastOn f (ops ++ [op]) = if op.field = f then some op else lastOn f ops := by
  rw [lastOn, List.filter_append]
  by_cases h : op.field = f
  · simp [h]
  · simp [h, lastOn]

namespace Revision

/-- The revision that the last operation on a field asks for. A value that is set means what `read`
reads from it. -/
inductive Follows {α : Type} (read : Value → Except CompileError.Cause α) :
    Option Op → Revision α → Prop
  | keep : Follows read none .keep
  | put {f : Field} {v : Value} {span : Span} {a : α} (h : read v = .ok a) :
      Follows read (some (.edit .set f v span)) (.put a)
  | clear {f : Field} {span : Span} : Follows read (some (.clear f span)) .clear

end Revision

/-! ## What one operation preserves -/

def IsTitle (s : Text) : Prop := s ≠ [] ∧ Text.Trimmed s

theorem Value.isTitle_of_title {v : Value} {s : Text} (h : v.title = .ok s) : IsTitle s := by
  rw [Value.title] at h
  split at h
  · cases h
  · next hne => cases h; exact ⟨hne, Text.trimmed_trim v.raw⟩

namespace UpdateRequest

structure KeysApart (r : UpdateRequest) : Prop where
  apart : ∀ k ∈ r.setEntries.keys, k ∉ r.removeKeys
  isKey : ∀ k, k ∈ r.setEntries.keys ∨ k ∈ r.removeKeys → Entry.IsKey k

namespace KeysApart

variable {r : UpdateRequest}

theorem setEntry (h : r.KeysApart) {e : Entry} (he : Entry.IsKey e.key) :
    (UpdateChange.setEntry r e).KeysApart := by
  have hremove {k : Text} (hk : k ∈ (UpdateChange.setEntry r e).removeKeys) :
      k ∈ r.removeKeys ∧ k ≠ e.key := by
    obtain ⟨hmem, hne⟩ := List.mem_filter.1 hk
    exact ⟨hmem, of_decide_eq_true hne⟩
  constructor
  · intro k hset hk
    obtain ⟨hmem, hne⟩ := hremove hk
    rcases Dictionary.mem_keys_insert.1 hset with heq | hset
    · exact hne heq
    · exact h.apart k hset hmem
  · rintro k (hset | hk)
    · rcases Dictionary.mem_keys_insert.1 hset with rfl | hset
      · exact he
      · exact h.isKey k (Or.inl hset)
    · exact h.isKey k (Or.inr (hremove hk).1)

theorem removeKey (h : r.KeysApart) {j : Text} (hj : Entry.IsKey j) :
    (UpdateChange.removeKey r j).KeysApart := by
  have hremove {k : Text} (hk : k ∈ (UpdateChange.removeKey r j).removeKeys) :
      k ∈ r.removeKeys ∨ k = j :=
    (List.mem_append.1 hk).imp_right List.mem_singleton.1
  constructor
  · intro k hset hk
    obtain ⟨hne, hset⟩ := Dictionary.mem_keys_erase.1 hset
    rcases hremove hk with hmem | heq
    · exact h.apart k hset hmem
    · exact hne heq
  · rintro k (hset | hk)
    · exact h.isKey k (Or.inl (Dictionary.mem_keys_erase.1 hset).2)
    · rcases hremove hk with hmem | rfl
      · exact h.isKey k (Or.inr hmem)
      · exact hj

theorem foldl_setEntry (h : r.KeysApart) {es : List Entry} (hes : ∀ e ∈ es, Entry.IsKey e.key) :
    (es.foldl UpdateChange.setEntry r).KeysApart := by
  induction es generalizing r with
  | nil => exact h
  | cons e es ih =>
    obtain ⟨he, hes⟩ := List.forall_mem_cons.1 hes
    exact ih (h.setEntry he) hes

theorem foldl_removeKey (h : r.KeysApart) {ks : List Text} (hks : ∀ k ∈ ks, Entry.IsKey k) :
    (ks.foldl UpdateChange.removeKey r).KeysApart := by
  induction ks generalizing r with
  | nil => exact h
  | cons k ks ih =>
    obtain ⟨hk, hks⟩ := List.forall_mem_cons.1 hks
    exact ih (h.removeKey hk) hks

theorem apply (h : r.KeysApart) {today : Date} {op : Op} {change : UpdateChange}
    (means : UpdateChange.Means today op change) : (change.apply r).KeysApart := by
  cases means with
  | putEntries hes | addEntries hes =>
    exact h.foldl_setEntry fun e he => Value.isKey_of_mem_entries hes he
  | removeKeys hks => exact h.foldl_removeKey fun k hk => Value.isKey_of_mem_keys hks hk
  | addTags kind | removeTags kind | tag kind => cases kind <;> exact ⟨h.apart, h.isKey⟩
  | _ => exact ⟨h.apart, h.isKey⟩

end KeysApart

/-- The properties that a request revises are given or taken away, as the last operations on them say,
and its title is one that a task may have. -/
structure RevisedBy (r : UpdateRequest) (today : Date) (lastDue lastWaiting : Option Op) : Prop where
  due_once : ¬ (r.dueOn.isSome ∧ r.clearDue)
  due : r.due.Follows (Value.day today) lastDue
  waiting_once : ¬ (r.waitingFor.isSome ∧ r.clearWaiting)
  waiting : r.waiting.Follows (.ok ·.trimmed) lastWaiting
  title : ∀ s, r.title = some s → IsTitle s

theorem RevisedBy.apply {r : UpdateRequest} {today : Date} {ops : List Op} {op : Op}
    {change : UpdateChange}
    (h : r.RevisedBy today (Op.lastOn .due ops) (Op.lastOn .waiting ops))
    (means : UpdateChange.Means today op change) :
    (change.apply r).RevisedBy today
      (Op.lastOn .due (ops ++ [op])) (Op.lastOn .waiting (ops ++ [op])) := by
  obtain ⟨hdueOnce, hdue, hwaitingOnce, hwaiting, htitle⟩ := h
  rw [Op.lastOn_append, Op.lastOn_append]
  -- an operation on another field leaves both the property and its last operation as they were; one on
  -- the property writes one of its two fields and resets the other
  cases means with
  | setTitle ht =>
    refine ⟨hdueOnce, hdue, hwaitingOnce, hwaiting, fun s hs => ?_⟩
    exact Option.some.inj hs ▸ Value.isTitle_of_title ht
  | setDue hd => exact ⟨by simp [UpdateChange.apply], .put hd, hwaitingOnce, hwaiting, htitle⟩
  | clearDue => exact ⟨by simp [UpdateChange.apply], .clear, hwaitingOnce, hwaiting, htitle⟩
  | setWaiting => exact ⟨hdueOnce, hdue, by simp [UpdateChange.apply], .put rfl, htitle⟩
  | clearWaiting => exact ⟨hdueOnce, hdue, by simp [UpdateChange.apply], .clear, htitle⟩
  | addTags kind | removeTags kind | tag kind =>
    cases kind <;> exact ⟨hdueOnce, hdue, hwaitingOnce, hwaiting, htitle⟩
  | putEntries | addEntries =>
    rw [UpdateChange.apply_setEntries]
    exact ⟨hdueOnce, hdue, hwaitingOnce, hwaiting, htitle⟩
  | removeKeys =>
    rw [UpdateChange.apply_removeKeys]
    exact ⟨hdueOnce, hdue, hwaitingOnce, hwaiting, htitle⟩
  | _ => exact ⟨hdueOnce, hdue, hwaitingOnce, hwaiting, htitle⟩

end UpdateRequest

/-! ## What a run preserves -/

namespace Collects

variable {today : Date} {id : Nat} {ops : List Op} {r : UpdateRequest}

theorem revisedBy (h : Collects today id ops r) :
    r.RevisedBy today (Op.lastOn .due ops) (Op.lastOn .waiting ops) := by
  induction h with
  | none => exact ⟨by simp [UpdateRequest.blank], .keep, by simp [UpdateRequest.blank], .keep, by
      simp [UpdateRequest.blank]⟩
  | more _ means ih => exact ih.apply means

theorem keysApart (h : Collects today id ops r) : r.KeysApart := by
  induction h with
  | none => exact ⟨fun _ hk => (by cases hk), fun _ hk => (by rcases hk with hk | hk <;> cases hk)⟩
  | more _ means ih => exact ih.apply means

end Collects

/-! ## Consistency -/

/-- The request asks for no two contrary things, and for nothing but what the operations ask for. -/
structure UpdateRequest.IsConsistent (r : UpdateRequest) (today : Date) (selected : Option Nat)
    (target : Target) (ops : List Op) : Prop where
  id_pos : 0 < r.id
  id_eq : target = .id r.id ∨ target = .selected ∧ selected = some r.id
  due_once : ¬ (r.dueOn.isSome ∧ r.clearDue)
  due_said : r.due.SaidBy r.dueOn r.clearDue
  due_last : r.due.Follows (Value.day today) (Op.lastOn .due ops)
  waitingFor_once : ¬ (r.waitingFor.isSome ∧ r.clearWaiting)
  waitingFor_said : r.waiting.SaidBy r.waitingFor r.clearWaiting
  waitingFor_last : r.waiting.Follows (.ok ·.trimmed) (Op.lastOn .waiting ops)
  title : ∀ s, r.title = some s → s ≠ [] ∧ Text.Trimmed s
  added : ∀ kind, IsFirstOccurrences (ops.flatMap (Op.added kind)) (r.added kind)
  removed : ∀ kind, IsFirstOccurrences (ops.flatMap (Op.removed kind)) (r.removed kind)
  keys_disjoint : ∀ k ∈ r.setEntries.keys, k ∉ r.removeKeys
  removeKeys_nodup : r.removeKeys.Nodup
  isKey : ∀ k, k ∈ r.setEntries.keys ∨ k ∈ r.removeKeys → Entry.IsKey k

theorem Target.of_resolve {selected : Option Nat} {target : Target} {id : Nat}
    (h : target.resolve selected = .ok id) :
    0 < id ∧ (target = .id id ∨ target = .selected ∧ selected = some id) := by
  cases target with
  | id n =>
    rw [resolve] at h
    split at h
    · cases h
    · next hn => cases h; exact ⟨Nat.pos_of_ne_zero hn, Or.inl rfl⟩
  | selected =>
    cases selected with
    | none => cases h
    | some n =>
      simp only [resolve] at h
      split at h
      · cases h
      · next hn => cases h; exact ⟨Nat.pos_of_ne_zero hn, Or.inr ⟨rfl, rfl⟩⟩

theorem UpdateRequest.isConsistent_of_compile {today : Date} {selected : Option Nat} {target : Target}
    {ops : List Op} {span : Span} {r : UpdateRequest}
    (h : UpdateRequest.compile today selected target ops span = .ok r) :
    r.IsConsistent today selected target ops := by
  obtain ⟨id, collected, hid, hcollects, rfl⟩ := exists_collects_of_compile h
  have hkeys := hcollects.keysApart
  have hrevised := hcollects.revisedBy
  have hremoved {k : Text} : k ∈ collected.deduped.removeKeys ↔ k ∈ collected.removeKeys :=
    mem_dedupe
  have hideq : collected.deduped.id = id := hcollects.id_eq
  obtain ⟨hpos, htarget⟩ := Target.of_resolve hid
  exact {
    id_pos := hideq ▸ hpos
    id_eq := hideq ▸ htarget
    due_once := hrevised.due_once
    due_said := Revision.ofFields_saidBy hrevised.due_once
    due_last := hrevised.due
    waitingFor_once := hrevised.waiting_once
    waitingFor_said := Revision.ofFields_saidBy hrevised.waiting_once
    waitingFor_last := hrevised.waiting
    title := hrevised.title
    added := fun kind => by
      rw [added_deduped, hcollects.added]
      exact isFirstOccurrences_dedupe _
    removed := fun kind => by
      rw [removed_deduped, hcollects.removed]
      exact isFirstOccurrences_dedupe _
    keys_disjoint := fun k hset hk => hkeys.apart k hset (hremoved.1 hk)
    removeKeys_nodup := (isFirstOccurrences_dedupe _).nodup
    isKey := fun k hk => hkeys.isKey k (hk.imp_right hremoved.1) }

/-! ## No empty items -/

theorem Op.ne_nil_of_mem_removed {kind : TagKind} {op : Op} {s : Text} (hs : s ∈ op.removed kind) :
    s ≠ [] := by
  unfold Op.removed at hs
  split at hs
  · split at hs
    · exact Value.ne_nil_of_mem_items hs
    · cases hs
  · cases hs

/-- What an operation that a line can ask for puts into a list is not empty. -/
theorem Op.ne_nil_of_mem_contributed {f : Field} {op : Op} (h : op.IsReadable) {s : Text}
    (hs : s ∈ op.contributed f) : s ≠ [] := by
  unfold contributed at hs
  split at hs
  · split at hs
    · exact Value.ne_nil_of_mem_items hs
    · cases hs
  · split at hs
    · exact Value.ne_nil_of_mem_items hs
    · cases hs
  · split at hs
    · obtain ⟨c, r, hname, -⟩ := h.start
      rw [List.mem_singleton.1 hs, hname]
      exact List.cons_ne_nil c r
    · cases hs
  · cases hs

/-- The tags that an operation adds are among the texts that it puts into their list. -/
theorem Op.mem_contributed_of_mem_added {kind : TagKind} {op : Op} {s : Text}
    (hs : s ∈ op.added kind) : s ∈ op.contributed kind.field := by
  unfold Op.added at hs
  split at hs
  · exact hs
  · split at hs
    · next hkind => rw [hkind, contributed, if_pos rfl]; exact hs
    · cases hs
  · cases hs

/-- A tag of an operation that a line can ask for has a name. -/
theorem Op.ne_nil_of_mem_added {kind : TagKind} {op : Op} (h : op.IsReadable) {s : Text}
    (hs : s ∈ op.added kind) : s ≠ [] :=
  Op.ne_nil_of_mem_contributed h (Op.mem_contributed_of_mem_added hs)

/-! ## Every compiled update -/

/-- Whatever is compiled is consistent; and no tag to add or to remove is empty, when a line makes the
command. -/
theorem compiled_update_is_consistent (today : Date) (selected : Option Nat) (target : Target)
    (ops : List Op) (span : Span) (r : UpdateRequest)
    (h : UpdateRequest.compile today selected target ops span = .ok r) :
    r.IsConsistent today selected target ops ∧
      ∀ mode now input,
        (Reading.ofLine mode now input).1.command = some (.update target ops span) →
          ∀ kind, [] ∉ r.added kind ∧ [] ∉ r.removed kind := by
  have hr := UpdateRequest.isConsistent_of_compile h
  refine ⟨hr, fun mode now input hc kind => ⟨fun hmem => ?_, fun hmem => ?_⟩⟩
  · obtain ⟨-, hreadable⟩ := Command.isReadable_of_commandOf (commandOf_of_ofLine hc)
    obtain ⟨op, hop, hs⟩ := List.mem_flatMap.1 (((hr.added kind).mem_iff []).1 hmem)
    exact Op.ne_nil_of_mem_added (hreadable op hop) hs rfl
  · obtain ⟨op, -, hs⟩ := List.mem_flatMap.1 (((hr.removed kind).mem_iff []).1 hmem)
    exact Op.ne_nil_of_mem_removed hs rfl

/-- A due day that is cleared again, a tag named twice with nothing between commas, and an entry that is
removed and set again. -/
theorem compiled_update_is_consistent_of_line :
    let now : Timestamp := ⟨⟨2025, 3, 9, by decide, by decide, by decide, by decide⟩, 12, 0, 0, 0, 0⟩
    let span (a b : Nat) : Span := ⟨⟨a, 1, a + 1⟩, ⟨b, 1, b + 1⟩⟩
    let ops : List Op :=
      [.edit .set .due ⟨"tomorrow".toList, false, span 10 18⟩ (span 6 18), .clear .due (span 19 23),
        .edit .add .projects ⟨"home,,home".toList, false, span 34 44⟩ (span 24 44),
        .edit .remove .metadata ⟨"url".toList, false, span 51 54⟩ (span 45 54),
        .edit .add .metadata ⟨"url:x".toList, false, span 61 66⟩ (span 55 66)]
    ∃ r, UpdateRequest.compile now.date none (.id 7) ops (span 0 66) = .ok r ∧
      r.IsConsistent now.date none (.id 7) ops ∧ [] ∉ r.added .project := by
  intro now span ops
  have hline : (Reading.ofLine .auto now
      "set 7 due:tomorrow !due +projects:home,,home -meta:url +meta:url:x".toList).1.command
        = some (.update (.id 7) ops (span 0 66)) := by decide +kernel
  have hok : (UpdateRequest.compile now.date none (.id 7) ops (span 0 66)).isOk = true := by
    decide +kernel
  cases hr : UpdateRequest.compile now.date none (.id 7) ops (span 0 66) with
  | error e => rw [hr] at hok; cases hok
  | ok r =>
    obtain ⟨hconsistent, hnames⟩ :=
      compiled_update_is_consistent now.date none (.id 7) ops (span 0 66) r hr
    exact ⟨r, rfl, hconsistent, (hnames .auto now _ hline .project).1⟩

end Agenda
