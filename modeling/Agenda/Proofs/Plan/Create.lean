import Agenda.Proofs.Plan.Change
import Agenda.Proofs.Plan.Consistent
import Agenda.Proofs.Plan.Entry
/-!
# Create requests follow their operations

A create request has a title that a task may have. Its tags of a kind are those that the operations put
into their list since it was last set or cleared, each where it first came. Its entries are a map of those
that the operations wrote since the entries were last set or cleared: one for each key, in the place of the
first that was written for it and with the value of the last.

Results: all that an operation can mean (`means_of_ofOp`), what it does to the lists of a request
(`tags_apply`, `exists_entries_apply`), what it preserves (`ListsFollow.apply`), and
`compiled_create_follows_operations`.
-/
namespace Agenda

/-! ## Meanings of operations -/

namespace CreateChange

/-- The change that an operation of a create command means. -/
inductive Means (today : Date) : Op → CreateChange → Prop
  | setTitle {v : Value} {span : Span} {s : Text} (h : v.title = .ok s) :
      Means today (.edit .set .title v span) (.title s)
  | setNotes {v : Value} {span : Span} :
      Means today (.edit .set .notes v span) (.notes v.trimmed)
  | setState {v : Value} {span : Span} {s : TaskState} (h : v.state = .ok s) :
      Means today (.edit .set .state v span) (.state s)
  | setDue {v : Value} {span : Span} {d : Date} (h : v.day today = .ok d) :
      Means today (.edit .set .due v span) (.due (some d))
  | setWaiting {v : Value} {span : Span} :
      Means today (.edit .set .waiting v span) (.waitingFor (some v.trimmed))
  | clearNotes {span : Span} : Means today (.clear .notes span) (.notes [])
  | clearDue {span : Span} : Means today (.clear .due span) (.due none)
  | clearWaiting {span : Span} : Means today (.clear .waiting span) (.waitingFor none)
  | setTags (kind : TagKind) {v : Value} {span : Span} :
      Means today (.edit .set kind.field v span) (.setTags kind v.items)
  | addTags (kind : TagKind) {v : Value} {span : Span} :
      Means today (.edit .add kind.field v span) (.addTags kind v.items)
  | clearTags (kind : TagKind) {span : Span} : Means today (.clear kind.field span) (.setTags kind [])
  | tag (kind : TagKind) {name : Text} {span : Span} :
      Means today (.tag kind name span) (.addTags kind [name])
  | setEntries {v : Value} {span : Span} {es : List Entry} (h : v.entries = .ok es) :
      Means today (.edit .set .metadata v span) (.setEntries es)
  | addEntries {v : Value} {span : Span} {es : List Entry} (h : v.entries = .ok es) :
      Means today (.edit .add .metadata v span) (.addEntries es)
  | clearEntries {span : Span} : Means today (.clear .metadata span) (.setEntries [])

section
variable {today : Date} {v : Value} {f : Field} {span : Span} {change : CreateChange}

theorem means_of_ofSet (h : ofSet today v f = .ok change) :
    Means today (.edit .set f v span) change := by
  cases f with
  | title => obtain ⟨s, hs, rfl⟩ := exists_of_map_eq_ok h; exact .setTitle hs
  | notes => cases h; exact .setNotes
  | due => obtain ⟨d, hd, rfl⟩ := exists_of_map_eq_ok h; exact .setDue hd
  | waiting => cases h; exact .setWaiting
  | state => obtain ⟨s, hs, rfl⟩ := exists_of_map_eq_ok h; exact .setState hs
  | projects => cases h; exact .setTags .project
  | contexts => cases h; exact .setTags .context
  | metadata => obtain ⟨es, hes, rfl⟩ := exists_of_map_eq_ok h; exact .setEntries hes

theorem means_of_ofAdd (h : ofAdd v f = .ok change) : Means today (.edit .add f v span) change := by
  cases f with
  | projects => cases h; exact .addTags .project
  | contexts => cases h; exact .addTags .context
  | metadata => obtain ⟨es, hes, rfl⟩ := exists_of_map_eq_ok h; exact .addEntries hes
  | _ => cases h

theorem means_of_ofClear (h : ofClear f = .ok change) : Means today (.clear f span) change := by
  cases f with
  | notes => cases h; exact .clearNotes
  | due => cases h; exact .clearDue
  | waiting => cases h; exact .clearWaiting
  | projects => cases h; exact .clearTags .project
  | contexts => cases h; exact .clearTags .context
  | metadata => cases h; exact .clearEntries
  | _ => cases h

end

theorem means_of_ofOp {today : Date} {op : Op} {change : CreateChange}
    (h : ofOp today op = .ok change) : Means today op change := by
  cases op with
  | edit how f v span =>
    cases how with
    | set => exact means_of_ofSet h
    | add => exact means_of_ofAdd h
    | remove => cases h
  | clear f span => exact means_of_ofClear h
  | tag kind name span => cases h; exact .tag kind

end CreateChange

/-! ## What one operation does -/

def CreateRequest.tags (r : CreateRequest) : TagKind → List Text
  | .project => r.projects
  | .context => r.contexts

namespace CreateChange

variable {today : Date} {op : Op} {change : CreateChange}

/-- An operation extends the tags of a kind by those that it puts into their list, or begins anew with
them. -/
theorem tags_apply (means : Means today op change) (r : CreateRequest) (kind : TagKind) :
    (change.apply r).tags kind
      = extendUnique (if op.restarts kind.field then [] else r.tags kind)
          (op.contributed kind.field) := by
  cases means with
  | setTags k | addTags k | clearTags k | tag k => cases k <;> cases kind <;> rfl
  | _ => cases kind <;> rfl

/-- An operation puts the entries that it writes into those of the request, or begins anew with them. -/
theorem exists_entries_apply (means : Means today op change) (r : CreateRequest) :
    ∃ es, Value.readAll Entry.read (op.contributed .metadata) = .ok es ∧
      (change.apply r).entries
        = Entry.putAll es (if op.restarts .metadata then [] else r.entries) := by
  cases means with
  | setTags k | addTags k | clearTags k | tag k => cases k <;> exact ⟨[], rfl, rfl⟩
  | setEntries h | addEntries h => exact ⟨_, h, rfl⟩
  | _ => exact ⟨[], rfl, rfl⟩

theorem title_apply (means : Means today op change) {r : CreateRequest} (h : Text.Trimmed r.title) :
    Text.Trimmed (change.apply r).title := by
  cases means with
  | setTitle ht => exact (Value.isTitle_of_title ht).2
  | setTags k | addTags k | clearTags k | tag k => cases k <;> exact h
  | _ => exact h

end CreateChange

/-! ## What operations preserve -/

namespace CreateRequest

/-- The title is trimmed. The tags are those that the operations put into their list since it was last
set or cleared, and the entries those that were written since. -/
structure ListsFollow (r : CreateRequest) (ops : List Op) : Prop where
  title : Text.Trimmed r.title
  tags : ∀ kind : TagKind, IsFirstOccurrences (Op.contributedSince kind.field ops) (r.tags kind)
  entries : ∃ written,
    Value.readAll Entry.read (Op.contributedSince .metadata ops) = .ok written ∧
      r.entries = Entry.putAll written []

theorem listsFollow_titled (s : Text) : (titled (Text.trim s)).ListsFollow [] where
  title := Text.trimmed_trim s
  tags kind := by cases kind <;> exact .nil
  entries := ⟨[], rfl, rfl⟩

namespace ListsFollow

variable {r : CreateRequest} {ops : List Op}

theorem apply (h : r.ListsFollow ops) {today : Date} {op : Op} {change : CreateChange}
    (means : CreateChange.Means today op change) : (change.apply r).ListsFollow (ops ++ [op]) := by
  refine ⟨CreateChange.title_apply means h.title, fun kind => ?_, ?_⟩
  · rw [CreateChange.tags_apply means, Op.contributedSince_append]
    cases op.restarts kind.field with
    | true => exact IsFirstOccurrences.nil.extend _
    | false => exact (h.tags kind).extend _
  · obtain ⟨es, hes, hentries⟩ := CreateChange.exists_entries_apply means r
    obtain ⟨written, hwritten, hkept⟩ := h.entries
    rw [hentries, Op.contributedSince_append]
    cases op.restarts .metadata with
    | true => exact ⟨es, hes, rfl⟩
    | false =>
      refine ⟨written ++ es, ?_, ?_⟩
      · rw [if_neg Bool.false_ne_true, Value.readAll_append, hwritten, hes]
        rfl
      · rw [if_neg Bool.false_ne_true, hkept, Entry.putAll, Entry.putAll, Entry.putAll,
          List.foldl_append]

end ListsFollow

theorem listsFollow_of_compile {today : Date} {title : Text} {ops : List Op} {span : Span}
    {r : CreateRequest} (h : compile today title ops span = .ok r) :
    r.ListsFollow ops ∧ r.title ≠ [] := by
  unfold compile at h
  split at h
  · cases h
  · next changes hchanges =>
    simp only at h
    split at h
    · cases h
    · next hne =>
      cases h
      refine ⟨?_, hne⟩
      have hrun := Op.changes_induction (motive := fun ops r => ListsFollow r ops) hchanges
        (listsFollow_titled title)
        fun before b op change hb hop => hb.apply (CreateChange.means_of_ofOp hop)
      rwa [List.nil_append] at hrun

end CreateRequest

/-! ## No empty items -/

namespace Op

theorem sinceRestart_suffix (f : Field) (ops : List Op) : sinceRestart f ops <:+ ops := by
  induction ops with
  | nil => exact List.suffix_rfl
  | cons op ops ih =>
    rw [sinceRestart]
    split
    · exact ih.trans (List.suffix_cons op ops)
    · exact List.suffix_rfl

theorem nil_notMem_contributedSince {f : Field} {ops : List Op} (h : ∀ op ∈ ops, op.IsReadable) :
    [] ∉ contributedSince f ops := by
  intro hmem
  obtain ⟨op, hop, hs⟩ := List.mem_flatMap.1 hmem
  exact ne_nil_of_mem_contributed (h op ((sinceRestart_suffix f ops).subset hop)) hs rfl

end Op

/-! ## Every compiled create -/

/-- The request has a title that a task may have, and the tags and entries that its operations ask for.
-/
structure CreateRequest.Follows (r : CreateRequest) (ops : List Op) : Prop where
  title : r.title ≠ [] ∧ Text.Trimmed r.title
  no_empty_tag : ∀ kind, [] ∉ r.tags kind
  tags : ∀ kind : TagKind, IsFirstOccurrences (Op.contributedSince kind.field ops) (r.tags kind)
  /-- The entries are a map of those that were written, and written out they are what is kept of the
  texts by looking for a key and a colon at the beginning. -/
  entries : ∃ written,
    List.Forall₂ (fun s e => Entry.IsReadFrom e s) (Op.contributedSince .metadata ops) written ∧
      Entry.IsMapOf written r.entries ∧
      r.entries.map Entry.render = written.foldl (fun ss e => Entry.putWritten e ss) []
  isKey : ∀ e ∈ r.entries, Entry.IsKey e.key
  one_for_key : ∀ e ∈ r.entries, (r.entries.map Entry.render).filter e.claims = [e.render]

theorem CreateRequest.ListsFollow.follows {r : CreateRequest} {ops : List Op}
    (h : r.ListsFollow ops) (hne : r.title ≠ []) (hreadable : ∀ op ∈ ops, op.IsReadable) :
    r.Follows ops := by
  obtain ⟨written, hwritten, hkept⟩ := h.entries
  have hmap : Entry.IsMapOf written r.entries := by
    rw [hkept]
    exact Entry.isMapOf_nil.putAll written
  have hkeys : ∀ e ∈ written, Entry.IsKey e.key := fun e he => by
    obtain ⟨s, -, hs⟩ := Value.exists_of_mem_readAll hwritten he
    exact Entry.isKey_of_read hs
  have hisKey : ∀ e ∈ r.entries, Entry.IsKey e.key := fun e he => hkeys e (hmap.mem_written he)
  exact {
    title := ⟨hne, h.title⟩
    no_empty_tag := fun kind hmem =>
      Op.nil_notMem_contributedSince hreadable (((h.tags kind).mem_iff []).1 hmem)
    tags := h.tags
    entries := by
      refine ⟨written, ?_, hmap, ?_⟩
      · exact (Value.forall₂_of_readAll hwritten).imp fun _ _ => Entry.isReadFrom_of_read
      · rw [hkept]
        exact Entry.map_render_putAll (fun e he => (hkeys e he).no_colon) (List.forall_mem_nil _)
    isKey := hisKey
    one_for_key := fun e he =>
      Entry.filter_render (fun x hx => (hisKey x hx).no_colon) hmap.keys.nodup he }

/-- Whatever line is read and compiled to a create request, in whatever mode, on whatever day and with
whatever task selected, the request follows the operations of the line. -/
theorem compiled_create_follows_operations (mode : Mode) (now : Timestamp) (input : Text)
    (buildNow : Option Timestamp) (selected : Option Nat) (r : CreateRequest)
    (h : (Reading.ofLine mode now input).1.compile buildNow selected = .ok (.create r)) :
    ∃ title ops span,
      (Reading.ofLine mode now input).1.command = some (.create title ops span) ∧ r.Follows ops := by
  obtain ⟨c, hc, hcompile⟩ := Reading.exists_command_of_compile h
  cases c with
  | create title ops span =>
    refine ⟨title, ops, span, hc, ?_⟩
    obtain ⟨request, hrequest, hplan⟩ := exists_of_map_eq_ok hcompile
    cases hplan
    obtain ⟨hlists, hne⟩ := CreateRequest.listsFollow_of_compile hrequest
    obtain ⟨-, -, hreadable⟩ := Command.isReadable_of_commandOf (commandOf_of_ofLine hc)
    exact hlists.follows hne hreadable
  | update target ops span =>
    obtain ⟨request, -, hplan⟩ := exists_of_map_eq_ok hcompile
    cases hplan
  | filter e span =>
    obtain ⟨request, -, hplan⟩ := exists_of_map_eq_ok hcompile
    cases hplan
  | view v span => cases hcompile
  | context a span => cases hcompile

/-- Tags that are set after others were named, keys of which one begins with the other, and a value with
a colon that is written over an earlier one. -/
theorem compiled_create_follows_operations_of_line :
    let now : Timestamp := ⟨⟨2025, 3, 9, by decide, by decide, by decide, by decide⟩, 12, 0, 0, 0, 0⟩
    let line := Reading.ofLine .auto now
      "add call #home projects:work,,work #home meta:a:1,ab:2 +meta:a:x:y".toList
    let r : CreateRequest :=
      { title := "call".toList, notes := [], state := .inbox, due := none, waitingFor := none
        projects := ["work".toList, "home".toList], contexts := []
        entries := [⟨"a".toList, "x:y".toList⟩, ⟨"ab".toList, "2".toList⟩] }
    line.1.compile none none = .ok (.create r) ∧
      ∃ title ops span, line.1.command = some (.create title ops span) ∧ r.Follows ops := by
  intro now line r
  have hr : line.1.compile none none = .ok (.create r) := by decide +kernel
  exact ⟨hr, compiled_create_follows_operations .auto now _ none none r hr⟩

end Agenda
