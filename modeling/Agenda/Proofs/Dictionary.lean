import Agenda.Dictionary
import Mathlib.Data.List.Sort
/-!
# Dictionaries as finite maps

A dictionary is determined by the values found in it: its entries are the keys with their values, in
the one order that the keys have.

Results: `ext_find?`; the values found after several insertions and removals (`find?_update`,
`find?_without`).
-/
namespace Agenda.Dictionary

/-! ## Entries and values -/

theorem find?_entries_eq {l : List Entry} (h : l.Pairwise fun a b => a.key < b.key) {e : Entry}
    (he : e ∈ l) : (l.find? fun x => x.key == e.key) = some e := by
  induction l with
  | nil => cases he
  | cons x xs ih =>
    obtain ⟨hx, hxs⟩ := List.pairwise_cons.1 h
    rcases List.mem_cons.1 he with rfl | he
    · simp
    · have hne : x.key ≠ e.key := fun heq => List.lt_irrefl _ (heq ▸ hx e he)
      rw [List.find?_cons, beq_false_of_ne hne]
      exact ih hxs he

theorem mem_entries_iff {d : Dictionary} {e : Entry} :
    e ∈ d.entries ↔ d.find? e.key = some e.value := by
  constructor
  · intro he
    rw [find?, find?_entries_eq d.sorted he, Option.map_some]
  · intro h
    obtain ⟨x, hx, hvalue⟩ := Option.map_eq_some_iff.1 h
    have hkey : x.key = e.key := by simpa using List.find?_some hx
    have heq : x = e := calc
      x = ⟨x.key, x.value⟩ := rfl
      _ = e := by rw [hkey, hvalue]
    exact heq ▸ List.mem_of_find?_eq_some hx

/-- Dictionaries in which the same values are found are the same. -/
theorem ext_find? {a b : Dictionary} (h : ∀ k, a.find? k = b.find? k) : a = b := by
  have hmem : ∀ e, e ∈ a.entries ↔ e ∈ b.entries := fun e => by
    rw [mem_entries_iff, mem_entries_iff, h]
  have hanti : Std.Antisymm fun x y : Entry => x.key < y.key :=
    ⟨fun _ _ hxy hyx => absurd (List.lt_trans hxy hyx) (List.lt_irrefl _)⟩
  have hirrefl : Std.Irrefl fun x y : Entry => x.key < y.key := ⟨fun _ => List.lt_irrefl _⟩
  have hentries : a.entries = b.entries := a.sorted.eq_of_mem_iff b.sorted hmem
  cases a
  cases b
  cases hentries
  rfl

/-! ## Keys -/

theorem mem_keys_iff {d : Dictionary} {k : Text} : k ∈ d.keys ↔ (d.find? k).isSome := by
  rw [keys, find?, Option.isSome_map, List.find?_isSome, List.mem_map]
  simp only [beq_iff_eq]

theorem mem_keys_insert {d : Dictionary} {e : Entry} {k : Text} :
    k ∈ (d.insert e).keys ↔ k = e.key ∨ k ∈ d.keys := by
  rw [mem_keys_iff, mem_keys_iff, find?_insert]
  split
  · next h => simp [h]
  · next h => simp [Ne.symm h]

theorem mem_keys_erase {d : Dictionary} {j k : Text} :
    k ∈ (d.erase j).keys ↔ k ≠ j ∧ k ∈ d.keys := by
  rw [mem_keys_iff, mem_keys_iff, find?_erase]
  split
  · next h => simp [h]
  · next h => simp [Ne.symm h]

/-! ## Several entries at once -/

/-- The dictionary with the entries of another, which come before its own. -/
def update (d new : Dictionary) : Dictionary := new.entries.foldl insert d

def without (d : Dictionary) (ks : List Text) : Dictionary := ks.foldl erase d

theorem find?_foldl_insert {l : List Entry} (h : l.Pairwise fun a b => a.key < b.key)
    (d : Dictionary) (k : Text) :
    (l.foldl insert d).find? k
      = ((l.find? fun e => e.key == k).map Entry.value).or (d.find? k) := by
  induction l generalizing d with
  | nil => rfl
  | cons x xs ih =>
    obtain ⟨hx, hxs⟩ := List.pairwise_cons.1 h
    rw [List.foldl_cons, ih hxs, find?_insert]
    by_cases hk : x.key = k
    · -- the keys behind `x` are greater, so none of them is `k` again
      have hnone : (xs.find? fun e => e.key == k) = none := by
        refine List.find?_eq_none.2 fun e he => ?_
        rw [beq_iff_eq]
        exact fun heq => List.lt_irrefl _ ((hk.trans heq.symm) ▸ hx e he)
      rw [hnone, List.find?_cons, beq_iff_eq.2 hk, if_pos hk]
      rfl
    · rw [List.find?_cons, beq_false_of_ne hk, if_neg hk]

theorem find?_update (d new : Dictionary) (k : Text) :
    (d.update new).find? k = (new.find? k).or (d.find? k) :=
  find?_foldl_insert new.sorted d k

theorem find?_without (d : Dictionary) (ks : List Text) (k : Text) :
    (d.without ks).find? k = if k ∈ ks then none else d.find? k := by
  rw [without]
  induction ks generalizing d with
  | nil => rfl
  | cons j js ih =>
    rw [List.foldl_cons, ih, find?_erase]
    by_cases hj : k = j
    · simp [hj]
    · simp [hj, Ne.symm hj]

end Agenda.Dictionary
