import Agenda.Proofs.Canonical.RoundTrip
/-!
# The canonical form means the same

What a command is compiled to depends on its content alone: not on the places it was read from, and
not on which of its values were quotations. With that, and because the canonical form is read back with
the same content, the canonical form of a command is compiled to the same plan as the command, or is
rejected for the same cause.

`Command.content` forgets places and quotations; `cause` and `Plan.withoutSpans` forget the places in
what comes out.

Results: `content_of_reread`; `compile_content`; `canonical_compiles_alike`.
-/
namespace Agenda

/-! ## Content -/

def Value.content (v : Value) : Value := ⟨v.raw, false, .zero⟩

def Op.content : Op → Op
  | edit how f v _ => edit how f v.content .zero
  | clear f _ => clear f .zero
  | tag k n _ => tag k n .zero

def Command.content : Command → Command
  | create t ops _ => create t (ops.map Op.content) .zero
  | update t ops _ => update t (ops.map Op.content) .zero
  | c => c.withoutSpans

theorem Op.content_withoutSpans (op : Op) : op.withoutSpans.content = op.content := by
  cases op <;> rfl

theorem Op.content_reread (op : Op) : op.reread.content = op.content := by cases op <;> rfl

theorem Filter.withoutSpans_withoutSpans (e : Filter) :
    e.withoutSpans.withoutSpans = e.withoutSpans := by
  induction e with
  | binary op l r span ihl ihr => simp only [withoutSpans, ihl, ihr]
  | negation e span ih => simp only [withoutSpans, ih]
  | predicate kind text span => rfl

theorem Command.content_withoutSpans (c : Command) : c.withoutSpans.content = c.content := by
  have hops (ops : List Op) : (ops.map Op.withoutSpans).map Op.content = ops.map Op.content := by
    rw [List.map_map]
    exact List.map_congr_left fun op _ => op.content_withoutSpans
  cases c with
  | create t ops span => simp only [withoutSpans, content, hops]
  | update t ops span => simp only [withoutSpans, content, hops]
  | filter e span => simp only [withoutSpans, content, Filter.withoutSpans_withoutSpans]
  | view t span => rfl
  | context a span => rfl

theorem Command.content_reread (c : Command) : c.reread.content = c.content := by
  have hops (ops : List Op) : (ops.map Op.reread).map Op.content = ops.map Op.content := by
    rw [List.map_map]
    exact List.map_congr_left fun op _ => op.content_reread
  cases c <;> simp only [reread, content, hops]

/-- What is read back says the same. -/
theorem Command.content_of_reread {c c' : Command} (h : c'.withoutSpans = c.reread.withoutSpans) :
    c'.content = c.content := by
  rw [← content_withoutSpans, h, content_withoutSpans, content_reread]

/-! ## Places in plans -/

def ListRequest.withoutSpans (r : ListRequest) : ListRequest :=
  { r with expr := r.expr.map Filter.withoutSpans }

def Plan.withoutSpans : Plan → Plan
  | list r => list r.withoutSpans
  | view v l => view v (l.map ListRequest.withoutSpans)
  | p => p

/-- What was compiled, with the cause of a rejection and not its place. -/
def causes {α : Type} (r : Except CompileError α) : Except CompileError.Cause α :=
  r.mapError CompileError.cause

/-- What comes out, but for the places in it. -/
def outcome (r : Except CompileError Plan) : Except CompileError.Cause Plan :=
  (causes r).map Plan.withoutSpans

/-! ## Operations -/

/-- Operations have the meanings of each, or the first cause among them. -/
theorem causes_changes {α : Type} (meaning : Op → Except CompileError.Cause α) (ops : List Op) :
    causes (Op.changes meaning ops) = Value.readAll meaning ops := by
  induction ops with
  | nil => rfl
  | cons op ops ih =>
    rw [Op.changes, Value.readAll, Op.located, Value.readAll]
    rw [← ih]
    cases meaning op with
    | error cause => rfl
    | ok change =>
      show causes ((Op.changes meaning ops).map (change :: ·)) = _
      cases Op.changes meaning ops <;> rfl

theorem createChange_content (today : Date) (op : Op) :
    CreateChange.ofOp today op.content = CreateChange.ofOp today op := by
  cases op with
  | edit how f v span => cases how <;> cases f <;> rfl
  | clear f span => rfl
  | tag k n span => rfl

theorem updateChange_content (today : Date) (op : Op) :
    UpdateChange.ofOp today op.content = UpdateChange.ofOp today op := by
  cases op with
  | edit how f v span => cases how <;> cases f <;> rfl
  | clear f span => rfl
  | tag k n span => rfl

/-- The task that the meanings of the operations make. -/
theorem causes_create (today : Date) (title : Text) (ops : List Op) (span : Span) :
    causes (CreateRequest.compile today title ops span)
      = (Value.readAll (CreateChange.ofOp today) ops).bind fun changes =>
          let task := changes.foldl CreateChange.apply (CreateRequest.titled (Text.trim title))
          if task.title = [] then .error .missingTitle else .ok task := by
  rw [← causes_changes, CreateRequest.compile]
  cases Op.changes (CreateChange.ofOp today) ops with
  | error e => rfl
  | ok changes =>
    show causes (if _ then _ else _) = if _ then _ else _
    split <;> rfl

/-- The request that the meanings of the operations make. -/
theorem causes_update (today : Date) (selected : Option Nat) (target : Target) (ops : List Op)
    (span : Span) :
    causes (UpdateRequest.compile today selected target ops span)
      = (target.resolve selected).bind fun id =>
          (Value.readAll (UpdateChange.ofOp today) ops).map fun changes =>
            (changes.foldl UpdateChange.apply (UpdateRequest.blank id)).deduped := by
  rw [← causes_changes, UpdateRequest.compile]
  cases target.resolve selected with
  | error cause => rfl
  | ok id => cases Op.changes (UpdateChange.ofOp today) ops <;> rfl

/-! ## Filters -/

theorem causes_normalize_binary (today : Date) (op : BoolOp) (l r : Filter) (span : Span) :
    causes ((Filter.binary op l r span).normalize today)
      = (causes (l.normalize today)).bind fun l' =>
          (causes (r.normalize today)).map fun r' => .binary op l' r' span := by
  rw [Filter.normalize]
  cases l.normalize today with
  | error e => rfl
  | ok l' => cases r.normalize today <;> rfl

theorem causes_normalize_negation (today : Date) (e : Filter) (span : Span) :
    causes ((Filter.negation e span).normalize today)
      = (causes (e.normalize today)).map fun e' => .negation e' span := by
  rw [Filter.normalize]
  cases e.normalize today <;> rfl

/-- A filter is normalized in the same way wherever it stands. -/
theorem causes_normalize (today : Date) (e : Filter) :
    causes (e.withoutSpans.normalize today) = (causes (e.normalize today)).map Filter.withoutSpans := by
  induction e with
  | binary op l r span ihl ihr =>
    rw [Filter.withoutSpans, causes_normalize_binary, causes_normalize_binary, ihl, ihr]
    cases causes (l.normalize today) with
    | error cause => rfl
    | ok l' => cases causes (r.normalize today) <;> rfl
  | negation e span ih =>
    rw [Filter.withoutSpans, causes_normalize_negation, causes_normalize_negation, ih]
    cases causes (e.normalize today) <;> rfl
  | predicate kind text span =>
    rw [Filter.withoutSpans, Filter.normalize, Filter.normalize]
    cases Criterion.ofPredicate today kind text <;> rfl

theorem conjuncts?_withoutSpans (e : Filter) : e.withoutSpans.conjuncts? = e.conjuncts? := by
  induction e with
  | binary op l r span ihl ihr =>
    cases op with
    | and => simp only [Filter.withoutSpans, Filter.conjuncts?, ihl, ihr]
    | or => rfl
  | negation e span ih => rfl
  | predicate kind text span => rfl

/-- What a query asks for does not depend on where its filter stands. -/
theorem ofNormalized_withoutSpans (e : Filter) :
    (causes (ListRequest.ofNormalized e.withoutSpans)).map ListRequest.withoutSpans
      = (causes (ListRequest.ofNormalized e)).map ListRequest.withoutSpans := by
  have hcolumns : e.withoutSpans.columns? = e.columns? := by
    rw [Filter.columns?, Filter.columns?, conjuncts?_withoutSpans]
  have he : e.withoutSpans.withoutSpans = e.withoutSpans := Filter.withoutSpans_withoutSpans e
  rw [ListRequest.ofNormalized, ListRequest.ofNormalized, hcolumns]
  cases e.columns? with
  | none => simp [causes, Except.map, Except.mapError, ListRequest.withoutSpans, he]
  | some ps =>
    cases hfill : ListRequest.all.fillAll ps with
    | error err => simp [hfill, causes, Except.map, Except.mapError]
    | ok r => simp [hfill, causes, Except.map, Except.mapError, ListRequest.withoutSpans, he]

/-- The query that a filter makes. -/
theorem causes_list (today : Date) (e : Filter) :
    causes (ListRequest.compile today e)
      = (causes (e.normalize today)).bind fun e' => causes (ListRequest.ofNormalized e') := by
  rw [ListRequest.compile]
  cases e.normalize today <;> rfl

theorem causes_list_withoutSpans (today : Date) (e : Filter) :
    (causes (ListRequest.compile today e.withoutSpans)).map ListRequest.withoutSpans
      = (causes (ListRequest.compile today e)).map ListRequest.withoutSpans := by
  rw [causes_list, causes_list, causes_normalize]
  cases causes (e.normalize today) with
  | error cause => rfl
  | ok e' => exact ofNormalized_withoutSpans e'

/-! ## Commands -/

theorem outcome_map {α : Type} (r : Except CompileError α) (f : α → Plan) :
    outcome (r.map f) = (causes r).map fun a => (f a).withoutSpans := by
  cases r <;> rfl

theorem outcome_list (r : Except CompileError ListRequest) :
    outcome (r.map .list) = ((causes r).map ListRequest.withoutSpans).map .list := by
  cases r <;> rfl

/-- What a command is compiled to depends on its content. -/
theorem compile_content (today : Date) (selected : Option Nat) (c : Command) :
    outcome (c.content.compile today selected) = outcome (c.compile today selected) := by
  cases c with
  | create t ops span =>
    rw [Command.content, Command.compile, Command.compile, outcome_map, outcome_map, causes_create,
      causes_create, Value.readAll_map (createChange_content today)]
  | update target ops span =>
    rw [Command.content, Command.compile, Command.compile, outcome_map, outcome_map, causes_update,
      causes_update, Value.readAll_map (updateChange_content today)]
  | filter e span =>
    show outcome ((ListRequest.compile today e.withoutSpans).map .list)
      = outcome ((ListRequest.compile today e).map .list)
    rw [outcome_list, outcome_list, causes_list_withoutSpans]
  | view v span => rfl
  | context a span => rfl

/-! ## Readings -/

/-- The same plan but for the places in it, or rejections with the same message and field. -/
def CompilesAlike : Except CompileError Plan → Except CompileError Plan → Prop
  | .ok p, .ok p' => p'.withoutSpans = p.withoutSpans
  | .error e, .error e' => e'.message = e.message ∧ e'.field = e.field
  | _, _ => False

theorem compilesAlike_of_outcome {r r' : Except CompileError Plan} (h : outcome r' = outcome r) :
    CompilesAlike r r' := by
  cases r with
  | error e =>
    cases r' with
    | error e' =>
      have hcause : e'.cause = e.cause := Except.error.inj h
      exact ⟨congrArg CompileError.Cause.message hcause, congrArg CompileError.Cause.field hcause⟩
    | ok p' => cases h
  | ok p =>
    cases r' with
    | error e' => cases h
    | ok p' => exact Except.ok.inj h

/-- The canonical form of a command means the same as the line that made it: for every line that is read
without an error, in every mode, its canonical form is read without an error in mode `auto`, and
whatever the day and the selected task, both are compiled to the same plan but for the places in it, or
both are rejected with the same message and field. -/
theorem canonical_compiles_alike (mode : Mode) (now : Timestamp) (input : Text) (c : Command)
    (hc : (Reading.ofLine mode now input).1.command = some c)
    (herr : (Reading.ofLine mode now input).2 = none) (buildNow : Option Timestamp)
    (selected : Option Nat) :
    (Reading.ofLine .auto now c.canonical).2 = none ∧
      CompilesAlike ((Reading.ofLine mode now input).1.compile buildNow selected)
        ((Reading.ofLine .auto now c.canonical).1.compile buildNow selected) := by
  have hreadable := Command.isReadable_of_commandOf (commandOf_of_ofLine hc)
  obtain ⟨c', hread, hspans⟩ := Command.exists_commandOf_canonical c hreadable
  obtain ⟨hc', herr'⟩ := ofLine_auto now hread
  refine ⟨herr', compilesAlike_of_outcome ?_⟩
  rw [compile_of_ofLine hc herr, compile_of_ofLine hc' herr', ← compile_content _ _ c',
    Command.content_of_reread hspans, compile_content]

/-- A note that comes back as a quotation, and a day to be worked out. -/
theorem canonical_compiles_alike_note :
    let now : Timestamp := ⟨⟨2025, 3, 9, by decide, by decide, by decide, by decide⟩, 12, 0, 0, 0, 0⟩
    let r := Reading.ofLine .auto now "add x notes:a:\"#home\" due:tomorrow".toList
    ∃ c, r.1.command = some c ∧ r.2 = none ∧
      CompilesAlike (r.1.compile none none)
        ((Reading.ofLine .auto now c.canonical).1.compile none none) := by
  intro now r
  have hsome : r.1.command.isSome = true := by decide +kernel
  have herr : r.2 = none := by decide +kernel
  obtain ⟨c, hc⟩ := Option.isSome_iff_exists.1 hsome
  exact ⟨c, hc, herr, (canonical_compiles_alike .auto now _ c hc herr none none).2⟩

end Agenda
