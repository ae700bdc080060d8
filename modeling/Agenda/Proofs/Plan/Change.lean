import Agenda.Plan.Create
import Agenda.Proofs.Plan.Item
/-!
# Operations in turn

Create and update commands are compiled alike: every operation is read as a change, and the changes are
carried out in order. What the changes of the operations so far add up to is then kept by one more
operation at a time (`changes_induction`).

A list can be set or cleared as a whole, after which what came before no longer counts: the texts that
operations put into it are those from the last such operation on (`Op.contributedSince`).
-/
namespace Agenda

theorem Op.ok_of_located {α : Type} {op : Op} {result : Except CompileError.Cause α} {a : α}
    (h : op.located result = .ok a) : result = .ok a := by
  cases result with
  | error cause => cases h
  | ok b => exact congrArg Except.ok (Except.ok.inj h)

section
variable {α β : Type} {meaning : Op → Except CompileError.Cause α} {apply : β → α → β}
  {motive : List Op → β → Prop}

/-- What holds of some operations and what they add up to, and is kept by every operation with a meaning,
holds after all operations. -/
theorem Op.changes_induction {before ops : List Op} {b : β} {changes : List α}
    (h : Op.changes meaning ops = .ok changes) (start : motive before b)
    (step : ∀ before b op change, motive before b → meaning op = .ok change →
      motive (before ++ [op]) (apply b change)) :
    motive (before ++ ops) (changes.foldl apply b) := by
  unfold Op.changes at h
  -- the operations are read from the left, and each goes over to those that come before
  induction ops generalizing before b changes with
  | nil => cases h; rw [List.append_nil]; exact start
  | cons op ops ih =>
    rw [Value.readAll] at h
    split at h
    · cases h
    · next change hchange =>
      obtain ⟨rest, hrest, rfl⟩ := exists_of_map_eq_ok h
      rw [List.append_cons, List.foldl_cons]
      exact ih hrest (step _ _ _ _ start (Op.ok_of_located hchange))

end

/-! ## What operations put into a list -/

namespace Op

/-- The operation sets or clears a field as a whole. -/
def restarts (f : Field) : Op → Bool
  | edit .set g _ _ => g = f
  | clear g _ => g = f
  | _ => false

/-- The operations from the last on that sets or clears a field; all of them where none does. -/
def sinceRestart (f : Field) : List Op → List Op
  | [] => []
  | op :: ops => if ops.any (restarts f) then sinceRestart f ops else op :: ops

/-- The texts that an operation puts into a list: the items of a value that is set or added, or the name
of a tag. -/
def contributed (f : Field) : Op → List Text
  | edit .set g v _ => if g = f then v.items else []
  | edit .add g v _ => if g = f then v.items else []
  | tag kind name _ => if kind.field = f then [name] else []
  | _ => []

/-- The texts that operations put into a list since it was last set or cleared. -/
def contributedSince (f : Field) (ops : List Op) : List Text :=
  (sinceRestart f ops).flatMap (contributed f)

variable (f : Field)

theorem sinceRestart_append (ops : List Op) (op : Op) :
    sinceRestart f (ops ++ [op]) = if op.restarts f then [op] else sinceRestart f ops ++ [op] := by
  induction ops with
  | nil => cases h : op.restarts f <;> simp [sinceRestart]
  | cons o ops ih =>
    rw [List.cons_append, sinceRestart, sinceRestart, ih, List.any_append, List.any_cons, List.any_nil]
    cases ops.any (restarts f) <;> cases op.restarts f <;> rfl

theorem contributedSince_append (ops : List Op) (op : Op) :
    contributedSince f (ops ++ [op])
      = (if op.restarts f then [] else contributedSince f ops) ++ op.contributed f := by
  rw [contributedSince, sinceRestart_append]
  split
  · simp
  · rw [List.flatMap_append, List.flatMap_singleton, contributedSince]

end Op

end Agenda
