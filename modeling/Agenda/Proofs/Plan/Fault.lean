import Agenda.ParseError
import Agenda.Plan
import Agenda.Proofs.Plan.Entry
/-!
# What is wrong with a part of a command

Which texts are no entries, which values a field cannot take, and which operations, predicates and
targets are rejected, with the cause that is named for each. An operation is at fault by itself and the
day alone, a predicate likewise, and a target by the selection alone. An operation on entries has as many
parts as there are items in its value, and is rejected for the first that is at fault (`FirstFault`).

Results: a reading of several fails for the first that cannot be read (`Value.readAll_eq_error_iff`);
`CreateChange.ofOp_eq_error_iff`, `UpdateChange.ofOp_eq_error_iff`, `Target.resolve_eq_error_iff` and
`Criterion.ofPredicate_eq_error_iff`.
-/
namespace Agenda

open CompileError (Cause)

/-! ## The first of several parts -/

/-- A part is the first of several that is at fault, with this cause. -/
inductive FirstFault {α γ : Type} (fault : α → γ → Prop) : List α → α → γ → Prop
  | here {p : α} {ps : List α} {cause : γ} (h : fault p cause) : FirstFault fault (p :: ps) p cause
  | later {p part : α} {ps : List α} {cause : γ} (hp : ∀ c, ¬ fault p c)
      (h : FirstFault fault ps part cause) : FirstFault fault (p :: ps) part cause

section
variable {α β γ ε : Type} {fault : α → γ → Prop} {as bs : List α} {a : α} {c : γ}

theorem FirstFault.mem (h : FirstFault fault as a c) : a ∈ as := by
  induction h with
  | here => exact List.mem_cons_self ..
  | later _ _ ih => exact List.mem_cons_of_mem _ ih

/-- One of several parts is the first at fault when any is. -/
theorem exists_firstFault_iff : (∃ a c, FirstFault fault as a c) ↔ ∃ a ∈ as, ∃ c, fault a c := by
  induction as with
  | nil => exact ⟨nofun, nofun⟩
  | cons p ps ih =>
    rw [List.exists_mem_cons_iff, ← ih]
    constructor
    · rintro ⟨a, c, h⟩
      cases h with
      | here h => exact Or.inl ⟨c, h⟩
      | later _ h => exact Or.inr ⟨a, c, h⟩
    · intro h
      by_cases hp : ∃ c, fault p c
      · obtain ⟨c, hc⟩ := hp
        exact ⟨p, c, .here hc⟩
      · obtain ⟨a, c, hac⟩ := h.resolve_left hp
        exact ⟨a, c, .later (not_exists.1 hp) hac⟩

theorem firstFault_append_iff :
    FirstFault fault (as ++ bs) a c
      ↔ FirstFault fault as a c ∨ (∀ p ∈ as, ∀ c, ¬ fault p c) ∧ FirstFault fault bs a c := by
  induction as with
  | nil => exact ⟨fun h => Or.inr ⟨nofun, h⟩, fun h => (h.resolve_left nofun).2⟩
  | cons p ps ih =>
    constructor
    · intro h
      cases h with
      | here h => exact Or.inl (.here h)
      | later hp h =>
        refine (ih.1 h).imp (.later hp) fun ⟨hps, hbs⟩ => ⟨?_, hbs⟩
        exact List.forall_mem_cons.2 ⟨hp, hps⟩
    · rintro (h | ⟨hno, h⟩)
      · cases h with
        | here h => exact .here h
        | later hp h => exact .later hp (ih.2 (Or.inl h))
      · obtain ⟨hp, hps⟩ := List.forall_mem_cons.1 hno
        exact .later hp (ih.2 (Or.inr ⟨hps, h⟩))

/-- Several are read, or the first fails that is at fault, with the error that its cause makes there. -/
theorem Value.readAll_eq_error_iff {f : α → Except ε β} {error : α → γ → ε} {e : ε}
    (hf : ∀ a e, f a = .error e ↔ ∃ c, fault a c ∧ error a c = e) :
    readAll f as = .error e ↔ ∃ a c, FirstFault fault as a c ∧ error a c = e := by
  induction as with
  | nil => exact ⟨nofun, nofun⟩
  | cons p ps ih =>
    rw [readAll]
    cases hp : f p with
    | error e' =>
      obtain ⟨c', hc', he'⟩ := (hf p e').1 hp
      constructor
      · intro h
        exact ⟨p, c', .here hc', he'.trans (Except.error.inj h)⟩
      · rintro ⟨a, c, h, rfl⟩
        cases h with
        | here h => exact congrArg _ (Except.error.inj (hp.symm.trans ((hf p _).2 ⟨c, h, rfl⟩)))
        | later hno _ => exact absurd hc' (hno c')
    | ok b =>
      have hno (c : γ) (hc : fault p c) : False := by
        rw [(hf p _).2 ⟨c, hc, rfl⟩] at hp
        cases hp
      rw [map_eq_error_iff, ih]
      constructor
      · rintro ⟨a, c, h, rfl⟩
        exact ⟨a, c, .later hno h, rfl⟩
      · rintro ⟨a, c, h, rfl⟩
        cases h with
        | here h => exact (hno c h).elim
        | later _ h => exact ⟨a, c, h, rfl⟩

/-- The error of a reading of several is that of the first that is at fault. -/
theorem Value.readAll_eq_error_iff_of_cause {f : α → Except γ β}
    (hf : ∀ a c, f a = .error c ↔ fault a c) :
    readAll f as = .error c ↔ ∃ a, FirstFault fault as a c := by
  have hcause (a : α) (c : γ) : f a = .error c ↔ ∃ c', fault a c' ∧ c' = c := by
    rw [hf, exists_eq_right]
  rw [readAll_eq_error_iff hcause]
  simp only [exists_eq_right]

end

/-! ## Entries -/

theorem Text.cutAt_eq_none_iff {sep : Char} {s : Text} : cutAt sep s = none ↔ sep ∉ s := by
  refine ⟨notMem_of_cutAt_eq_none, fun h => ?_⟩
  rw [Option.eq_none_iff_forall_ne_some]
  rintro ⟨a, b⟩ hcut
  rw [(cutAt_eq_some hcut).1] at h
  exact h (List.mem_append_right _ List.mem_cons_self)

namespace Entry

/-- There is nothing but blanks before the first colon. -/
def HasBlankKey (s : Text) : Prop := ∃ k v, s = k ++ ':' :: v ∧ ':' ∉ k ∧ Text.trim k = []

/-- Why a text is no entry. -/
inductive Fault (s : Text) : Cause → Prop
  | malformed (h : ':' ∉ s) : Fault s (.malformedEntry s)
  | emptyKey (h : HasBlankKey s) : Fault s (.emptyKey s)

/-- Why a text, with or without a value after a colon, has no key. -/
inductive KeyFault (s : Text) : Cause → Prop
  | blank (h : ':' ∉ s) (hblank : Text.trim s = []) : KeyFault s (.emptyKey s)
  | emptyKey (h : HasBlankKey s) : KeyFault s (.emptyKey s)

variable {s : Text} {cause : Cause}

theorem read_eq_error_iff : read s = .error cause ↔ Fault s cause := by
  unfold read
  constructor
  · intro h
    split at h
    · next hcut => cases h; exact .malformed (Text.cutAt_eq_none_iff.1 hcut)
    · next k v hcut =>
      split at h
      · next hblank =>
        cases h
        obtain ⟨hs, hk⟩ := Text.cutAt_eq_some hcut
        exact .emptyKey ⟨k, v, hs, hk, hblank⟩
      · cases h
  · intro h
    cases h with
    | malformed h => rw [Text.cutAt_eq_none_iff.2 h]
    | emptyKey h =>
      obtain ⟨k, v, rfl, hk, hblank⟩ := h
      rw [Text.cutAt_append hk]
      exact if_pos hblank

theorem readKey_eq_error_iff : readKey s = .error cause ↔ KeyFault s cause := by
  unfold readKey
  constructor
  · intro h
    cases hcut : Text.cutAt ':' s with
    | none =>
      simp only [hcut] at h
      split at h
      · next hblank => cases h; exact .blank (Text.cutAt_eq_none_iff.1 hcut) hblank
      · cases h
    | some cut =>
      obtain ⟨hs, hk⟩ := Text.cutAt_eq_some hcut
      simp only [hcut] at h
      split at h
      · next hblank => cases h; exact .emptyKey ⟨_, _, hs, hk, hblank⟩
      · cases h
  · intro h
    cases h with
    | blank h hblank => rw [Text.cutAt_eq_none_iff.2 h]; exact if_pos hblank
    | emptyKey h =>
      obtain ⟨k, v, rfl, hk, hblank⟩ := h
      rw [Text.cutAt_append hk]
      exact if_pos hblank

end Entry

/-! ## Values -/

/-- Why a field cannot take a value. -/
inductive Value.Fault (today : Date) (v : Value) : Field → Cause → Prop
  | title (h : v.trimmed = []) : Fault today v .title .emptyTitle
  | state (h : TaskState.read? v.trimmed = none) : Fault today v .state (.invalidState v.trimmed)
  | due (h : today.ofPhrase? v.trimmed = none) : Fault today v .due (.invalidDate v.trimmed)
  | entry {item : Text} {cause : Cause} (h : FirstFault Entry.Fault v.items item cause) :
      Fault today v .metadata cause

/-- Why a value, as a list of keys, is rejected. -/
def Value.KeysFault (v : Value) (cause : Cause) : Prop :=
  ∃ item, FirstFault Entry.KeyFault v.items item cause

namespace Value

variable {today : Date} {v : Value} {cause : Cause}

theorem title_eq_error_iff : v.title = .error cause ↔ v.Fault today .title cause := by
  unfold title
  constructor
  · intro h
    split at h
    · next hblank => cases h; exact .title hblank
    · cases h
  · rintro ⟨hblank⟩
    exact if_pos hblank

theorem state_eq_error_iff : v.state = .error cause ↔ v.Fault today .state cause := by
  unfold state
  constructor
  · intro h
    split at h
    · cases h
    · next hread => cases h; exact .state hread
  · rintro ⟨⟩
    next hread => rw [hread]

theorem day_eq_error_iff : v.day today = .error cause ↔ v.Fault today .due cause := by
  unfold day
  constructor
  · intro h
    split at h
    · cases h
    · next hread => cases h; exact .due hread
  · rintro ⟨⟩
    next hread => rw [hread]

theorem entries_eq_error_iff : v.entries = .error cause ↔ v.Fault today .metadata cause := by
  rw [entries, readAll_eq_error_iff_of_cause fun _ _ => Entry.read_eq_error_iff]
  exact ⟨fun ⟨_, h⟩ => .entry h, fun | .entry h => ⟨_, h⟩⟩

theorem keys_eq_error_iff : v.keys = .error cause ↔ v.KeysFault cause :=
  readAll_eq_error_iff_of_cause fun _ _ => Entry.readKey_eq_error_iff

end Value

/-! ## Operations -/

/-- The fields that items can be added to and removed from. -/
def Field.lists : List Field := [.projects, .contexts, .metadata]

/-- Why items cannot be added to a field or removed from it, where a value has a fault as items of
metadata. -/
inductive ItemsFault (sign : Char) (fault : Cause → Prop) : Field → Cause → Prop
  | metadata {cause : Cause} (h : fault cause) : ItemsFault sign fault .metadata cause
  | unsupported {f : Field} (h : f ∉ Field.lists) : ItemsFault sign fault f (.unsupportedSign sign f)

/-- A reading that takes any items as tags and no other field than a list fails for these faults. -/
theorem itemsFault_iff {α : Type} {read : Field → Except Cause α} {sign : Char} {fault : Cause → Prop}
    (htags : ∀ kind : TagKind, ∃ a, read kind.field = .ok a)
    (hmetadata : ∀ c, read .metadata = .error c ↔ fault c)
    (hother : ∀ f ∉ Field.lists, read f = .error (.unsupportedSign sign f)) {f : Field}
    {cause : Cause} : read f = .error cause ↔ ItemsFault sign fault f cause := by
  have hunsupported (hf : f ∉ Field.lists) (h : read f = .error cause) :
      ItemsFault sign fault f cause := by
    rw [hother f hf] at h
    cases h
    exact .unsupported hf
  constructor
  · intro h
    cases f with
    | projects =>
      obtain ⟨a, ha⟩ := htags .project
      cases ha.symm.trans h
    | contexts =>
      obtain ⟨a, ha⟩ := htags .context
      cases ha.symm.trans h
    | metadata => exact .metadata ((hmetadata cause).1 h)
    | _ => exact hunsupported (by decide) h
  · intro h
    cases h with
    | metadata h => exact (hmetadata cause).2 h
    | unsupported hf => exact hother f hf

namespace Op

/-- Why an operation is rejected in a create command. -/
inductive CreateFault (today : Date) : Op → Cause → Prop
  | value {f : Field} {v : Value} {span : Span} {cause : Cause} (h : v.Fault today f cause) :
      CreateFault today (.edit .set f v span) cause
  | added {f : Field} {v : Value} {span : Span} {cause : Cause}
      (h : ItemsFault '+' (v.Fault today .metadata) f cause) :
      CreateFault today (.edit .add f v span) cause
  | removal {f : Field} {v : Value} {span : Span} :
      CreateFault today (.edit .remove f v span) .removalInCreate
  | notClearable {f : Field} {span : Span} (h : f ∈ [.title, .state]) :
      CreateFault today (.clear f span) (.notClearable f)

/-- Why an operation is rejected in an update command. -/
inductive UpdateFault (today : Date) : Op → Cause → Prop
  | value {f : Field} {v : Value} {span : Span} {cause : Cause} (h : v.Fault today f cause) :
      UpdateFault today (.edit .set f v span) cause
  | wholeList (kind : TagKind) {v : Value} {span : Span} :
      UpdateFault today (.edit .set kind.field v span) (.wholeList kind.field)
  | added {f : Field} {v : Value} {span : Span} {cause : Cause}
      (h : ItemsFault '+' (v.Fault today .metadata) f cause) :
      UpdateFault today (.edit .add f v span) cause
  | removed {f : Field} {v : Value} {span : Span} {cause : Cause}
      (h : ItemsFault '-' v.KeysFault f cause) :
      UpdateFault today (.edit .remove f v span) cause
  | notClearable {f : Field} {span : Span} (h : f ∉ [.notes, .due, .waiting]) :
      UpdateFault today (.clear f span) (.notClearable f)

end Op

namespace CreateChange

variable {today : Date} {v : Value} {f : Field} {cause : Cause}

theorem ofSet_eq_error_iff : ofSet today v f = .error cause ↔ v.Fault today f cause := by
  cases f with
  | title => exact map_eq_error_iff.trans Value.title_eq_error_iff
  | state => exact map_eq_error_iff.trans Value.state_eq_error_iff
  | due => exact map_eq_error_iff.trans Value.day_eq_error_iff
  | metadata => exact map_eq_error_iff.trans Value.entries_eq_error_iff
  | _ => exact ⟨nofun, nofun⟩

theorem ofAdd_eq_error_iff :
    ofAdd v f = .error cause ↔ ItemsFault '+' (v.Fault today .metadata) f cause := by
  refine itemsFault_iff (fun kind => ?_)
    (fun c => map_eq_error_iff.trans Value.entries_eq_error_iff) fun f hf => ?_
  · cases kind <;> exact ⟨_, rfl⟩
  · cases f with
    | projects | contexts | metadata => exact absurd hf (by decide)
    | _ => rfl

theorem ofClear_eq_error_iff {span : Span} :
    ofClear f = .error cause ↔ Op.CreateFault today (.clear f span) cause := by
  constructor
  · intro h
    cases f with
    | title | state => cases h; exact .notClearable (by decide)
    | _ => cases h
  · intro h
    cases h with
    | notClearable h =>
      cases f with
      | title | state => rfl
      | _ => exact absurd h (by decide)

/-- An operation of a create command fails for its own faults. -/
theorem ofOp_eq_error_iff {op : Op} : ofOp today op = .error cause ↔ op.CreateFault today cause := by
  cases op with
  | edit how f v span =>
    cases how with
    | set => exact ofSet_eq_error_iff.trans ⟨.value, fun | .value h => h⟩
    | add => exact ofAdd_eq_error_iff.trans ⟨.added, fun | .added h => h⟩
    | remove => exact ⟨fun h => by cases h; exact .removal, fun | .removal => rfl⟩
  | clear f span => exact ofClear_eq_error_iff
  | tag kind name span => exact ⟨nofun, nofun⟩

end CreateChange

namespace UpdateChange

variable {today : Date} {v : Value} {f : Field} {span : Span} {cause : Cause}

theorem ofSet_eq_error_iff :
    ofSet today v f = .error cause ↔ Op.UpdateFault today (.edit .set f v span) cause := by
  constructor
  · intro h
    cases f with
    | title => exact .value (Value.title_eq_error_iff.1 (map_eq_error_iff.1 h))
    | state => exact .value (Value.state_eq_error_iff.1 (map_eq_error_iff.1 h))
    | due => exact .value (Value.day_eq_error_iff.1 (map_eq_error_iff.1 h))
    | metadata => exact .value (Value.entries_eq_error_iff.1 (map_eq_error_iff.1 h))
    | projects => cases h; exact .wholeList .project
    | contexts => cases h; exact .wholeList .context
    | notes | waiting => cases h
  · intro h
    cases h with
    | value h =>
      cases f with
      | title => exact map_eq_error_iff.2 (Value.title_eq_error_iff.2 h)
      | state => exact map_eq_error_iff.2 (Value.state_eq_error_iff.2 h)
      | due => exact map_eq_error_iff.2 (Value.day_eq_error_iff.2 h)
      | metadata => exact map_eq_error_iff.2 (Value.entries_eq_error_iff.2 h)
      | _ => cases h
    | wholeList kind => cases kind <;> rfl

theorem ofAdd_eq_error_iff :
    ofAdd v f = .error cause ↔ ItemsFault '+' (v.Fault today .metadata) f cause := by
  refine itemsFault_iff (fun kind => ?_)
    (fun c => map_eq_error_iff.trans Value.entries_eq_error_iff) fun f hf => ?_
  · cases kind <;> exact ⟨_, rfl⟩
  · cases f with
    | projects | contexts | metadata => exact absurd hf (by decide)
    | _ => rfl

theorem ofRemove_eq_error_iff : ofRemove v f = .error cause ↔ ItemsFault '-' v.KeysFault f cause := by
  refine itemsFault_iff (fun kind => ?_)
    (fun c => map_eq_error_iff.trans Value.keys_eq_error_iff) fun f hf => ?_
  · cases kind <;> exact ⟨_, rfl⟩
  · cases f with
    | projects | contexts | metadata => exact absurd hf (by decide)
    | _ => rfl

theorem ofClear_eq_error_iff :
    ofClear f = .error cause ↔ Op.UpdateFault today (.clear f span) cause := by
  constructor
  · intro h
    cases f with
    | notes | due | waiting => cases h
    | _ => cases h; exact .notClearable (by decide)
  · intro h
    cases h with
    | notClearable h =>
      cases f with
      | notes | due | waiting => exact absurd h (by decide)
      | _ => rfl

/-- An operation of an update command fails for its own faults. -/
theorem ofOp_eq_error_iff {op : Op} : ofOp today op = .error cause ↔ op.UpdateFault today cause := by
  cases op with
  | edit how f v span =>
    cases how with
    | set => exact ofSet_eq_error_iff
    | add => exact ofAdd_eq_error_iff.trans ⟨.added, fun | .added h => h⟩
    | remove => exact ofRemove_eq_error_iff.trans ⟨.removed, fun | .removed h => h⟩
  | clear f span => exact ofClear_eq_error_iff
  | tag kind name span => exact ⟨nofun, nofun⟩

end UpdateChange

/-! ## Targets and predicates -/

/-- Why a target means no task. -/
inductive Target.Fault (selected : Option Nat) : Target → Cause → Prop
  | zeroTarget : Fault selected (.id 0) .zeroTarget
  | noSelection (h : ∀ n, selected = some n → n = 0) : Fault selected .selected .noSelection

theorem Target.resolve_eq_error_iff {selected : Option Nat} {target : Target} {cause : Cause} :
    target.resolve selected = .error cause ↔ target.Fault selected cause := by
  unfold resolve
  constructor
  · intro h
    split at h
    · split at h
      · next hn => cases h; rw [hn]; exact .zeroTarget
      · cases h
    · split at h
      · next n =>
        split at h
        · next hn => cases h; exact .noSelection fun m hm => (Option.some.inj hm).symm.trans hn
        · cases h
      · cases h; exact .noSelection nofun
  · intro h
    cases h with
    | zeroTarget => exact if_pos rfl
    | noSelection h =>
      cases selected with
      | none => rfl
      | some n => exact if_pos (h n rfl)

/-- Why a predicate means nothing. -/
inductive Criterion.Fault (today : Date) (text : Text) : PredicateKind → Cause → Prop
  | stateWildcard (h : Text.trim text = wildcard) : Fault today text .state .stateWildcard
  | state (hne : Text.trim text ≠ wildcard) (h : TaskState.read? (Text.trim text) = none) :
      Fault today text .state (.invalidState (Text.trim text))
  | due (hne : Text.trim text ≠ wildcard) (h : today.ofPhrase? (Text.trim text) = none) :
      Fault today text .due (.invalidDate (Text.trim text))
  | id (h : Criterion.readTaskId? (Text.trim text) = none) :
      Fault today text .id (.invalidTaskId (Text.trim text))

/-- A predicate fails for its own faults. -/
theorem Criterion.ofPredicate_eq_error_iff {today : Date} {kind : PredicateKind} {text : Text}
    {cause : Cause} : ofPredicate today kind text = .error cause ↔ Fault today text kind cause := by
  unfold ofPredicate
  constructor
  · intro h
    cases kind with
    | state =>
      simp only [ofTrimmed] at h
      split at h
      · next hw => cases h; exact .stateWildcard hw
      · next hw =>
        split at h
        · cases h
        · next hread => cases h; rw [Text.trim_trim]; exact .state hw hread
    | due =>
      simp only [ofTrimmed] at h
      split at h
      · cases h
      · next hw =>
        split at h
        · cases h
        · next hread => cases h; rw [Text.trim_trim]; exact .due hw hread
    | id =>
      simp only [ofTrimmed] at h
      split at h
      · cases h
      · next hread => cases h; exact .id hread
    | project | context | text => cases h
  · intro h
    cases h with
    | stateWildcard hw => exact if_pos hw
    | state hw hread => simp only [ofTrimmed, if_neg hw, hread, Text.trim_trim]
    | due hw hread => simp only [ofTrimmed, if_neg hw, hread, Text.trim_trim]
    | id hread => simp only [ofTrimmed, hread]

end Agenda
