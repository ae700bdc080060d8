import Agenda.Text.Basic
/-!
# Entries by key

Lists with at most one entry for each key, in the order in which the keys were first put, and
dictionaries, which are in the order of their keys.

Results: the keys of a list after an entry is put (`Entry.keys_put`), and the value found in a
dictionary after an insertion or a removal (`Dictionary.find?_insert`, `Dictionary.find?_erase`).
-/
namespace Agenda

structure Entry where
  key : Text
  value : Text
deriving DecidableEq, Repr

namespace Entry

def render (e : Entry) : Text := e.key ++ ':' :: e.value

/-- Puts an entry into a list: in the place of the entry with its key, or at the end. -/
def put (e : Entry) : List Entry → List Entry
  | [] => [e]
  | x :: xs => if x.key = e.key then e :: xs else x :: put e xs

def putAll (es : List Entry) (list : List Entry) : List Entry :=
  es.foldl (fun l e => put e l) list

theorem keys_put (e : Entry) (l : List Entry) :
    (put e l).map key = if e.key ∈ l.map key then l.map key else l.map key ++ [e.key] := by
  induction l with
  | nil => rfl
  | cons x xs ih =>
    rw [put]
    by_cases h : x.key = e.key
    · simp [h]
    · have h' : ¬ e.key = x.key := fun hc => h hc.symm
      simp only [h, h', if_false, List.map_cons, ih, List.mem_cons, false_or]
      split <;> simp

end Entry

/-! ## Dictionaries -/

/-- Entries in the order of their keys. -/
structure Dictionary where
  entries : List Entry
  sorted : entries.Pairwise fun a b => a.key < b.key
deriving DecidableEq, Repr

namespace Dictionary

def empty : Dictionary := ⟨[], List.Pairwise.nil⟩

def keys (d : Dictionary) : List Text := d.entries.map Entry.key

def find? (d : Dictionary) (k : Text) : Option Text :=
  (d.entries.find? fun e => e.key == k).map Entry.value

/-- Inserts into a sorted list, in the place of the entry with the same key if there is one. -/
def insertInto (e : Entry) : List Entry → List Entry
  | [] => [e]
  | x :: xs =>
    if e.key = x.key then e :: xs
    else if e.key < x.key then e :: x :: xs
    else x :: insertInto e xs

theorem mem_insertInto {e y : Entry} {l : List Entry} (h : y ∈ insertInto e l) :
    y = e ∨ y ∈ l := by
  induction l with
  | nil => simpa [insertInto] using h
  | cons x xs ih =>
    rw [insertInto] at h
    split at h
    · rcases List.mem_cons.1 h with h | h
      · exact Or.inl h
      · exact Or.inr (List.mem_cons_of_mem _ h)
    · split at h
      · rcases List.mem_cons.1 h with h | h
        · exact Or.inl h
        · exact Or.inr h
      · rcases List.mem_cons.1 h with h | h
        · exact Or.inr (h ▸ List.mem_cons_self)
        · rcases ih h with h | h
          · exact Or.inl h
          · exact Or.inr (List.mem_cons_of_mem _ h)

theorem sorted_insertInto (e : Entry) {l : List Entry}
    (h : l.Pairwise fun a b => a.key < b.key) :
    (insertInto e l).Pairwise fun a b => a.key < b.key := by
  induction l with
  | nil => simp [insertInto]
  | cons x xs ih =>
    obtain ⟨hx, hxs⟩ := List.pairwise_cons.1 h
    rw [insertInto]
    split
    · next he => exact List.pairwise_cons.2 ⟨fun y hy => he ▸ hx y hy, hxs⟩
    · next hne =>
      split
      · next hlt =>
        refine List.pairwise_cons.2 ⟨fun y hy => ?_, h⟩
        rcases List.mem_cons.1 hy with rfl | hy
        · exact hlt
        · exact List.lt_trans hlt (hx y hy)
      · next hnl =>
        refine List.pairwise_cons.2 ⟨fun y hy => ?_, ih hxs⟩
        rcases mem_insertInto hy with rfl | hy
        · exact Text.lt_of_not_lt hnl hne
        · exact hx y hy

/-- The dictionary with an entry more, in place of the one with its key. -/
def insert (d : Dictionary) (e : Entry) : Dictionary :=
  ⟨insertInto e d.entries, sorted_insertInto e d.sorted⟩

def erase (d : Dictionary) (k : Text) : Dictionary :=
  ⟨d.entries.filter fun e => e.key != k, d.sorted.filter _⟩

def ofList (es : List Entry) : Dictionary := es.foldl insert empty

theorem find?_insertInto (e : Entry) (l : List Entry) (k : Text) :
    ((insertInto e l).find? fun x => x.key == k)
      = if e.key = k then some e else l.find? fun x => x.key == k := by
  induction l with
  | nil => by_cases h : e.key = k <;> simp [insertInto, h]
  | cons x xs ih =>
    rw [insertInto]
    by_cases hx : e.key = x.key
    · by_cases hk : e.key = k
      · simp [hx, ← hk]
      · have : ¬ x.key = k := fun h => hk (hx.trans h)
        simp [hx, this]
    · rw [if_neg hx]
      by_cases hl : e.key < x.key
      · rw [if_pos hl]
        by_cases hk : e.key = k <;> simp [hk]
      · rw [if_neg hl]
        by_cases hk : x.key = k
        · have : ¬ e.key = k := fun h => hx (h.trans hk.symm)
          simp [hk, this]
        · simp [hk, ih]

theorem find?_insert (d : Dictionary) (e : Entry) (k : Text) :
    (d.insert e).find? k = if e.key = k then some e.value else d.find? k := by
  unfold find? insert
  simp only [find?_insertInto]
  split <;> rfl

theorem find?_erase (d : Dictionary) (j k : Text) :
    (d.erase j).find? k = if j = k then none else d.find? k := by
  unfold find? erase
  simp only [List.find?_filter]
  split
  · next h =>
    subst h
    rw [List.find?_eq_none.2]
    · rfl
    · intro x _; simp
  · next h =>
    congr 2
    funext x
    by_cases hx : x.key = k
    · simp [hx]; exact fun h' => h h'.symm
    · simp [hx]

end Dictionary

end Agenda
