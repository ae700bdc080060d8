import Agenda.Proofs.Canonical.Fragment
import Agenda.Proofs.Canonical.Readable
import Agenda.Proofs.Reading
/-!
# Round trips

The canonical form of what a line makes is read in mode `auto` without an error. The command that comes
back has the same title or target and the same operations in the same order, with the same texts. A value
that was no quotation may come back as one: this happens just when the value is no plain run and cannot
be read in fragments either, and then it is all that is lost.

Results: `canonical_reads_back`.
-/
namespace Agenda

def Op.value? : Op → Option Value
  | edit _ _ v _ => some v
  | _ => none

/-- The value comes back as it was: a quotation, a plain run, or a run of which only the offending
fragments are quoted. -/
def Value.KeepsForm (v : Value) : Prop :=
  v.quoted = true ∨ Canonical.isPlainRun Canonical.fitsOpValue v.raw = true
    ∨ Canonical.ReadsInFragments v.raw

theorem Value.reread_quoted_iff (v : Value) : v.reread.quoted = v.quoted ↔ v.KeepsForm := by
  have h := Canonical.standsBare_iff v.raw
  rw [KeepsForm, ← h, reread]
  cases v.quoted <;> cases Canonical.standsBare v.raw <;> simp

theorem Op.withoutSpans_reread_iff (op : Op) :
    op.reread.withoutSpans = op.withoutSpans ↔ ∀ v, op.value? = some v → v.KeepsForm := by
  cases op with
  | edit how f v span =>
    rw [reread, withoutSpans, withoutSpans]
    constructor
    · rintro h _ ⟨⟩
      simp only [edit.injEq, Value.mk.injEq] at h
      exact v.reread_quoted_iff.1 h.2.2.1.2.1
    · intro h
      have := v.reread_quoted_iff.2 (h v rfl)
      simp only [this]
      rfl
  | clear f span => exact ⟨fun _ _ h => (by cases h), fun _ => rfl⟩
  | tag kind name span => exact ⟨fun _ _ h => (by cases h), fun _ => rfl⟩

theorem Command.withoutSpans_reread_iff (c : Command) :
    c.reread.withoutSpans = c.withoutSpans
      ↔ ∀ op ∈ c.ops, ∀ v, op.value? = some v → v.KeepsForm := by
  have hops (ops : List Op) : (ops.map Op.reread).map Op.withoutSpans = ops.map Op.withoutSpans
      ↔ ∀ op ∈ ops, ∀ v, op.value? = some v → v.KeepsForm := by
    rw [List.map_map, List.map_inj_left]
    exact forall₂_congr fun op _ => op.withoutSpans_reread_iff
  cases c with
  | create t ops span => rw [reread, withoutSpans, withoutSpans, Command.ops, ← hops]; simp
  | update t ops span => rw [reread, withoutSpans, withoutSpans, Command.ops, ← hops]; simp
  | filter e span => exact ⟨fun _ _ h => (by cases h), fun _ => rfl⟩
  | view v span => exact ⟨fun _ _ h => (by cases h), fun _ => rfl⟩
  | context a span => exact ⟨fun _ _ h => (by cases h), fun _ => rfl⟩

/-! ## Canonical forms of lines -/

/-- The canonical form of every command that a line makes, in any mode, is read without an error in mode
`auto`, as the command itself up to spans but for values that come back as quotations; and as the command
itself just when every value keeps its form. -/
theorem canonical_reads_back (mode : Mode) (now : Timestamp) (input : Text) (c : Command)
    (hc : (Reading.ofLine mode now input).1.command = some c) :
    ∃ c', (Reading.ofLine .auto now c.canonical).1.command = some c' ∧
      (Reading.ofLine .auto now c.canonical).2 = none ∧
      c'.withoutSpans = c.reread.withoutSpans ∧
      (c'.withoutSpans = c.withoutSpans
        ↔ ∀ op ∈ c.ops, ∀ v, op.value? = some v → v.KeepsForm) := by
  have hreadable := Command.isReadable_of_commandOf (commandOf_of_ofLine hc)
  obtain ⟨c', hread, hspans⟩ := Command.exists_commandOf_canonical c hreadable
  obtain ⟨hc', herr⟩ := ofLine_auto now hread
  refine ⟨c', hc', herr, hspans, ?_⟩
  rw [hspans]
  exact c.withoutSpans_reread_iff

/-- A note with an offending fragment between spaces comes back as it was. -/
theorem canonical_reads_back_fragment :
    let now : Timestamp := ⟨⟨2025, 3, 9, by decide, by decide, by decide, by decide⟩, 12, 0, 0, 0, 0⟩
    ∃ c c', (Reading.ofLine (.only .create) now "call notes:see \"#home\"".toList).1.command = some c ∧
      (Reading.ofLine .auto now c.canonical).1.command = some c' ∧
      c'.withoutSpans = c.reread.withoutSpans := by
  intro now
  have hsome : (Reading.ofLine (.only .create) now
      "call notes:see \"#home\"".toList).1.command.isSome = true := by decide +kernel
  obtain ⟨c, hc⟩ := Option.isSome_iff_exists.1 hsome
  obtain ⟨c', hc', -, hspans, -⟩ := canonical_reads_back (.only .create) now _ c hc
  exact ⟨c, c', hc, hc', hspans⟩

/-- A note whose offending part sticks to a colon does not: the canonical form of
`add x notes:a:"#home"` is `add x notes:"a:#home"`, which is read as a quotation. -/
theorem canonical_of_glued_quotation :
    ∃ c c', Reading.commandOf .auto "add x notes:a:\"#home\"".toList = .ok c ∧
      c.canonical = "add x notes:\"a:#home\"".toList ∧
      Reading.commandOf .auto c.canonical = .ok c' ∧ c'.withoutSpans ≠ c.withoutSpans := by
  let whole : Span := ⟨⟨0, 1, 1⟩, ⟨21, 1, 22⟩⟩
  let note (quoted : Bool) : Op :=
    .edit .set .notes ⟨"a:#home".toList, quoted, ⟨⟨12, 1, 13⟩, ⟨21, 1, 22⟩⟩⟩ ⟨⟨6, 1, 7⟩, ⟨21, 1, 22⟩⟩
  refine ⟨.create ['x'] [note false] whole, .create ['x'] [note true] whole, ?_, ?_, ?_, ?_⟩
  · decide +kernel
  · decide +kernel
  · decide +kernel
  · decide

end Agenda
