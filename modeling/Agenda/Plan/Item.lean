import Agenda.Calendar.DayPhrase
import Agenda.Op.Basic
import Agenda.Plan.Entry
import Agenda.Plan.TaskState
/-!
# What values mean

The readings of a value that create and update commands share: a title, a state, a day, a list of
items, and a list of entries. None depends on anything but the value and the day on which it is
read.

Results: all of a list is read part by part (`Value.readAll_append`).
-/
namespace Agenda

namespace Value

def trimmed (v : Value) : Text := Text.trim v.raw

/-- The items between commas, without blanks around them; empty ones are dropped. -/
def items (v : Value) : List Text := ((Text.pieces ',' v.raw).map Text.trim).filter (· ≠ [])

def title (v : Value) : Except CompileError.Cause Text :=
  if v.trimmed = [] then .error .emptyTitle else .ok v.trimmed

def state (v : Value) : Except CompileError.Cause TaskState :=
  match TaskState.read? v.trimmed with
  | some s => .ok s
  | none => .error (.invalidState v.trimmed)

def day (today : Date) (v : Value) : Except CompileError.Cause Date :=
  match today.ofPhrase? v.trimmed with
  | some d => .ok d
  | none => .error (.invalidDate v.trimmed)

/-- Results of all readings, or the first error. -/
def readAll {α β ε : Type} (f : α → Except ε β) : List α → Except ε (List β)
  | [] => .ok []
  | a :: as =>
    match f a with
    | .error e => .error e
    | .ok b => (readAll f as).map (b :: ·)

section
variable {α β γ δ ε : Type} {f : β → Except ε γ}

theorem readAll_append (as bs : List β) :
    readAll f (as ++ bs) = (readAll f as).bind fun xs => (readAll f bs).map (xs ++ ·) := by
  induction as with
  | nil => cases h : readAll f bs <;> simp [readAll, Except.bind, Except.map, h]
  | cons a as ih =>
    rw [List.cons_append, readAll, readAll, ih]
    cases f a with
    | error e => rfl
    | ok b =>
      cases readAll f as with
      | error e => rfl
      | ok xs => cases readAll f bs <;> rfl

theorem readAll_map {g : α → β} {f' : α → Except ε γ} (heq : ∀ a, f (g a) = f' a) (as : List α) :
    readAll f (as.map g) = readAll f' as := by
  induction as with
  | nil => rfl
  | cons a as ih => rw [List.map_cons, readAll, readAll, heq, ih]

/-- What is read from each and changed afterwards may be changed after all are read. -/
theorem readAll_map_right (h : γ → δ) (as : List β) :
    readAll (fun a => (f a).map h) as = (readAll f as).map (List.map h) := by
  induction as with
  | nil => rfl
  | cons a as ih =>
    rw [readAll, readAll, ih]
    cases f a with
    | error e => rfl
    | ok c => cases readAll f as <;> rfl

theorem readAll_map_ok {g : α → β} {h : α → γ} {as : List α} (heq : ∀ a ∈ as, f (g a) = .ok (h a)) :
    readAll f (as.map g) = .ok (as.map h) := by
  induction as with
  | nil => rfl
  | cons a as ih =>
    rw [List.map_cons, readAll, heq a (List.mem_cons_self ..),
      ih fun b hb => heq b (List.mem_cons_of_mem _ hb)]
    rfl

end

def entries (v : Value) : Except CompileError.Cause (List Entry) := readAll Entry.read v.items

def keys (v : Value) : Except CompileError.Cause (List Text) := readAll Entry.readKey v.items

end Value

/-! ## Lists without duplicates -/

/-- `list` with each of the items that it does not hold yet. -/
def extendUnique (list : List Text) : List Text → List Text
  | [] => list
  | x :: xs => extendUnique (if x ∈ list then list else list ++ [x]) xs

/-- The items without repetitions, each at its first place. -/
def dedupe (items : List Text) : List Text := extendUnique [] items

end Agenda
