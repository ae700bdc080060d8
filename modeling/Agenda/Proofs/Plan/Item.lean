import Agenda.Plan.Item
import Agenda.Proofs.Text.Trim
import Mathlib.Data.List.Pairwise
/-!
# Items and keys of values

A list without repetitions keeps each item at its first occurrence. The items of a value are not
empty, and the keys that are read from them can be told apart from their values: a key is not empty,
trimmed, and holds no colon.

Results: `isFirstOccurrences_dedupe`; `isKey_of_read`, `isKey_of_readKey`.
-/
namespace Agenda

theorem exists_of_map_eq_ok {α β ε : Type} {r : Except ε α} {f : α → β} {b : β}
    (h : r.map f = .ok b) : ∃ a, r = .ok a ∧ f a = b := by
  cases r with
  | error e => cases h
  | ok a => exact ⟨a, rfl, Except.ok.inj h⟩

/-! ## First occurrences -/

/-- `kept` holds the same items as `items`, in the order in which they first occur there. -/
structure IsFirstOccurrences (items kept : List Text) : Prop where
  mem_iff : ∀ x, x ∈ kept ↔ x ∈ items
  ordered : kept.Pairwise fun x y => items.idxOf x < items.idxOf y

namespace IsFirstOccurrences

variable {items kept : List Text}

theorem nodup (h : IsFirstOccurrences items kept) : kept.Nodup :=
  h.ordered.imp fun {x y} hlt (heq : x = y) => absurd hlt (heq ▸ Nat.lt_irrefl _)

theorem nil : IsFirstOccurrences [] [] := ⟨fun _ => Iff.rfl, List.Pairwise.nil⟩

/-- What comes after the items does not move their first occurrences. -/
theorem ordered_append (h : IsFirstOccurrences items kept) (more : List Text) :
    kept.Pairwise fun x y => (items ++ more).idxOf x < (items ++ more).idxOf y := by
  refine h.ordered.imp_of_mem fun {x y} hx hy hlt => ?_
  rw [List.idxOf_append_of_mem ((h.mem_iff x).1 hx), List.idxOf_append_of_mem ((h.mem_iff y).1 hy)]
  exact hlt

/-- An item that occurred before is not kept again. -/
theorem repeated {x : Text} (h : IsFirstOccurrences items kept) (hx : x ∈ kept) :
    IsFirstOccurrences (items ++ [x]) kept := by
  refine ⟨fun y => ?_, h.ordered_append [x]⟩
  rw [h.mem_iff, List.mem_append, List.mem_singleton]
  exact ⟨Or.inl, fun hy => hy.elim id fun heq => heq ▸ (h.mem_iff x).1 hx⟩

/-- An item that did not occur before is kept after all others. -/
theorem fresh {x : Text} (h : IsFirstOccurrences items kept) (hx : x ∉ kept) :
    IsFirstOccurrences (items ++ [x]) (kept ++ [x]) := by
  have hnew : x ∉ items := fun hm => hx ((h.mem_iff x).2 hm)
  refine ⟨fun y => by rw [List.mem_append, List.mem_append, h.mem_iff], ?_⟩
  refine List.pairwise_append.2 ⟨h.ordered_append [x], List.pairwise_singleton _ _, ?_⟩
  intro y hy z hz
  have hmem := (h.mem_iff y).1 hy
  rw [List.mem_singleton.1 hz, List.idxOf_append_of_mem hmem, List.idxOf_append_of_notMem hnew]
  exact Nat.lt_add_right _ (List.idxOf_lt_length_of_mem hmem)

/-- A list with the first occurrences of what came so far is extended by those of what follows. -/
theorem extend (h : IsFirstOccurrences items kept) (more : List Text) :
    IsFirstOccurrences (items ++ more) (extendUnique kept more) := by
  induction more generalizing items kept with
  | nil => rw [List.append_nil]; exact h
  | cons x xs ih =>
    rw [extendUnique, List.append_cons]
    split
    · next hx => exact ih (h.repeated hx)
    · next hx => exact ih (h.fresh hx)

end IsFirstOccurrences

theorem isFirstOccurrences_dedupe (items : List Text) : IsFirstOccurrences items (dedupe items) :=
  IsFirstOccurrences.nil.extend items

theorem mem_dedupe {items : List Text} {x : Text} : x ∈ dedupe items ↔ x ∈ items :=
  (isFirstOccurrences_dedupe items).mem_iff x

theorem dedupe_eq_nil_iff {items : List Text} : dedupe items = [] ↔ items = [] := by
  simp only [List.eq_nil_iff_forall_not_mem, mem_dedupe]

/-! ## Items -/

theorem Value.ne_nil_of_mem_items {v : Value} {s : Text} (h : s ∈ v.items) : s ≠ [] := by
  rw [Value.items, List.mem_filter, decide_eq_true_iff] at h
  exact h.2

/-! ## Keys -/

namespace Text

theorem mem_of_mem_trim {s : Text} {c : Char} (h : c ∈ trim s) : c ∈ s := by
  have hleft : c ∈ trimLeft s := (List.rdropWhile_prefix isBlank (trimLeft s)).subset h
  exact (List.dropWhile_suffix isBlank).subset hleft

theorem notMem_of_cutAt_eq_none {sep : Char} {s : Text} (h : cutAt sep s = none) : sep ∉ s := by
  induction s with
  | nil => exact List.not_mem_nil
  | cons c r ih =>
    rw [cutAt] at h
    split at h
    · cases h
    · next hc =>
      rw [List.mem_cons, not_or]
      exact ⟨fun heq => hc heq.symm, ih (Option.map_eq_none_iff.1 h)⟩

end Text

namespace Entry

/-- A key that can be told apart from its value: `key:value` is cut right behind it. -/
structure IsKey (key : Text) : Prop where
  ne_nil : key ≠ []
  trimmed : Text.Trimmed key
  no_colon : ':' ∉ key

/-- What is left of the part before a colon when the blanks around it fall away. -/
theorem isKey_trim {s : Text} (hne : Text.trim s ≠ []) (h : ':' ∉ s) : IsKey (Text.trim s) :=
  ⟨hne, Text.trimmed_trim s, fun hm => h (Text.mem_of_mem_trim hm)⟩

theorem isKey_of_read {s : Text} {e : Entry} (h : read s = .ok e) : IsKey e.key := by
  unfold read at h
  split at h
  · cases h
  · next k v hcut =>
    split at h
    · cases h
    · next hne => cases h; exact isKey_trim hne (Text.cutAt_eq_some hcut).2

theorem isKey_of_readKey {s k : Text} (h : readKey s = .ok k) : IsKey k := by
  unfold readKey at h
  cases hcut : Text.cutAt ':' s with
  | none =>
    simp only [hcut] at h
    split at h
    · cases h
    · next hne => cases h; exact isKey_trim hne (Text.notMem_of_cutAt_eq_none hcut)
  | some cut =>
    simp only [hcut] at h
    split at h
    · cases h
    · next hne => cases h; exact isKey_trim hne (Text.cutAt_eq_some hcut).2

end Entry

namespace Value

/-- Every result of readings comes from one of what was read. -/
theorem exists_of_mem_readAll {α β ε : Type} {f : α → Except ε β} {as : List α} {bs : List β}
    (h : readAll f as = .ok bs) {b : β} (hb : b ∈ bs) : ∃ a ∈ as, f a = .ok b := by
  induction as generalizing bs with
  | nil => cases h; cases hb
  | cons a as ih =>
    rw [readAll] at h
    split at h
    · cases h
    · next b' ha =>
      obtain ⟨rest, hrest, rfl⟩ := exists_of_map_eq_ok h
      rcases List.mem_cons.1 hb with rfl | hb
      · exact ⟨a, List.mem_cons_self, ha⟩
      · obtain ⟨a', hmem, ha'⟩ := ih hrest hb
        exact ⟨a', List.mem_cons_of_mem _ hmem, ha'⟩

/-- The results of readings are one for each of what was read, in order. -/
theorem forall₂_of_readAll {α β ε : Type} {f : α → Except ε β} {as : List α} {bs : List β}
    (h : readAll f as = .ok bs) : List.Forall₂ (fun a b => f a = .ok b) as bs := by
  induction as generalizing bs with
  | nil => cases h; exact .nil
  | cons a as ih =>
    rw [readAll] at h
    split at h
    · cases h
    · next b ha =>
      obtain ⟨rest, hrest, rfl⟩ := exists_of_map_eq_ok h
      exact .cons ha (ih hrest)

theorem eq_nil_iff_of_readAll {α β ε : Type} {f : α → Except ε β} {as : List α} {bs : List β}
    (h : readAll f as = .ok bs) : as = [] ↔ bs = [] := by
  cases forall₂_of_readAll h with
  | nil => exact iff_of_true rfl rfl
  | cons => exact iff_of_false (List.cons_ne_nil _ _) (List.cons_ne_nil _ _)

theorem isKey_of_mem_entries {v : Value} {es : List Entry} (h : v.entries = .ok es) {e : Entry}
    (he : e ∈ es) : Entry.IsKey e.key := by
  obtain ⟨s, -, hs⟩ := exists_of_mem_readAll h he
  exact Entry.isKey_of_read hs

theorem isKey_of_mem_keys {v : Value} {ks : List Text} (h : v.keys = .ok ks) {k : Text}
    (hk : k ∈ ks) : Entry.IsKey k := by
  obtain ⟨s, -, hs⟩ := exists_of_mem_readAll h hk
  exact Entry.isKey_of_readKey hs

end Value

end Agenda
