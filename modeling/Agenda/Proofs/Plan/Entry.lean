import Agenda.Proofs.Plan.Item
import Mathlib.Data.List.Nodup
/-!
# Lists of entries as maps

A list into which entries are put one after the other is a map in the order in which its keys came: it has
one entry for each key, at the place of the first entry that was put for it, with the value of the last
(`IsMapOf`). Written out, the entry of a key is the one text that begins with the key and a colon, also
where one key begins with another and where a value holds colons. So a list of written entries can be kept
by looking for that beginning (`putWritten`).

Results: `IsMapOf.putAll`; `claims_render` and `map_render_putAll`; `filter_render` for the texts of a map.
-/
namespace Agenda

/-! ## Texts with a colon -/

theorem Text.cutAt_append {sep : Char} {a : Text} (h : sep ∉ a) (b : Text) :
    cutAt sep (a ++ sep :: b) = some (a, b) := by
  induction a with
  | nil => rw [List.nil_append, cutAt, if_pos rfl]
  | cons c a ih =>
    obtain ⟨hc, ha⟩ := not_or.1 (List.mem_cons.not.1 h)
    rw [List.cons_append, cutAt, if_neg (Ne.symm hc), ih ha]
    rfl

namespace Entry

/-- The text that an entry was read from: the first colon ends the key, and blanks around both parts fall
away. -/
def IsReadFrom (e : Entry) (s : Text) : Prop :=
  ∃ k v, s = k ++ ':' :: v ∧ ':' ∉ k ∧ e.key = Text.trim k ∧ e.key ≠ [] ∧ e.value = Text.trim v

theorem isReadFrom_of_read {s : Text} {e : Entry} (h : read s = .ok e) : e.IsReadFrom s := by
  unfold read at h
  split at h
  · cases h
  · next k v hcut =>
    split at h
    · cases h
    · next hne =>
      cases h
      obtain ⟨hs, hk⟩ := Text.cutAt_eq_some hcut
      exact ⟨k, v, hs, hk, rfl, hne, rfl⟩

/-! ## The last entry of a key -/

/-- The last of the entries with a key. -/
def lastOf (k : Text) (es : List Entry) : Option Entry := (es.filter fun e => e.key = k).getLast?

theorem lastOf_append (k : Text) (es : List Entry) (e : Entry) :
    lastOf k (es ++ [e]) = if e.key = k then some e else lastOf k es := by
  rw [lastOf, List.filter_append]
  by_cases h : e.key = k
  · simp [h]
  · simp [h, lastOf]

/-! ## Maps -/

/-- `kept` has one entry for each key of `written`, in the order in which the keys first occur there, and
each is the last that was written for its key. -/
structure IsMapOf (written kept : List Entry) : Prop where
  keys : IsFirstOccurrences (written.map key) (kept.map key)
  last : ∀ e ∈ kept, lastOf e.key written = some e

theorem isMapOf_nil : IsMapOf [] [] := ⟨.nil, List.forall_mem_nil _⟩

/-- What is in a list after an entry is put is that entry or has another key. -/
theorem mem_put {e x : Entry} {l : List Entry} (hl : (l.map key).Nodup) (hx : x ∈ put e l) :
    x = e ∨ x ∈ l ∧ e.key ≠ x.key := by
  induction l with
  | nil => exact Or.inl (List.mem_singleton.1 hx)
  | cons y ys ih =>
    obtain ⟨hy, hys⟩ := List.nodup_cons.1 hl
    rw [put] at hx
    split at hx
    · next hkey =>
      refine (List.mem_cons.1 hx).imp_right fun hmem => ⟨List.mem_cons_of_mem _ hmem, fun heq => hy ?_⟩
      rw [hkey, heq]
      exact List.mem_map_of_mem hmem
    · next hkey =>
      rcases List.mem_cons.1 hx with rfl | hmem
      · exact Or.inr ⟨List.mem_cons_self, Ne.symm hkey⟩
      · exact (ih hys hmem).imp_right fun h => ⟨List.mem_cons_of_mem _ h.1, h.2⟩

namespace IsMapOf

variable {written kept : List Entry}

/-- One more entry is written and put. -/
theorem put (h : IsMapOf written kept) (e : Entry) : IsMapOf (written ++ [e]) (put e kept) := by
  constructor
  · rw [keys_put, List.map_append, List.map_singleton]
    split
    · next hmem => exact h.keys.repeated hmem
    · next hmem => exact h.keys.fresh hmem
  · intro x hx
    rw [lastOf_append]
    rcases mem_put h.keys.nodup hx with rfl | ⟨hmem, hne⟩
    · rw [if_pos rfl]
    · rw [if_neg hne, h.last x hmem]

theorem putAll (h : IsMapOf written kept) (es : List Entry) :
    IsMapOf (written ++ es) (putAll es kept) := by
  induction es generalizing written kept with
  | nil => rw [List.append_nil]; exact h
  | cons e es ih => rw [List.append_cons]; exact ih (h.put e)

/-- Every entry of a map was written. -/
theorem mem_written (h : IsMapOf written kept) {e : Entry} (he : e ∈ kept) : e ∈ written :=
  (List.mem_filter.1 (List.mem_of_getLast? (h.last e he))).1

end IsMapOf

/-! ## Written entries -/

/-- No key of the entries holds a colon. -/
def KeysPlain (es : List Entry) : Prop := ∀ e ∈ es, ':' ∉ e.key

/-- The text begins with the entry's key and a colon. -/
def claims (e : Entry) (s : Text) : Bool := (e.key ++ [':']).isPrefixOf s

/-- A written entry begins with a key and a colon just when the key is its own: the first colon ends it. -/
theorem claims_render {e x : Entry} (he : ':' ∉ e.key) (hx : ':' ∉ x.key) :
    e.claims x.render = true ↔ x.key = e.key := by
  rw [claims, List.isPrefixOf_iff_prefix, render]
  constructor
  · rintro ⟨v, hv⟩
    have hcut := Text.cutAt_append hx x.value
    rw [← hv, List.append_assoc, List.singleton_append, Text.cutAt_append he] at hcut
    exact (congrArg Prod.fst (Option.some.inj hcut)).symm
  · intro hkey
    exact ⟨x.value, by rw [hkey, List.append_assoc, List.singleton_append]⟩

/-- Puts an entry into a list of written entries: in the place of the first that begins with its key and a
colon, or at the end. -/
def putWritten (e : Entry) : List Text → List Text
  | [] => [e.render]
  | s :: ss => if e.claims s then e.render :: ss else s :: putWritten e ss

theorem map_render_put {e : Entry} {l : List Entry} (he : ':' ∉ e.key) (hl : KeysPlain l) :
    (put e l).map render = putWritten e (l.map render) := by
  induction l with
  | nil => rfl
  | cons x xs ih =>
    obtain ⟨hx, hxs⟩ := List.forall_mem_cons.1 hl
    have hclaims := claims_render he hx
    rw [put, List.map_cons, putWritten]
    by_cases hkey : x.key = e.key
    · rw [if_pos hkey, if_pos (hclaims.2 hkey), List.map_cons]
    · rw [if_neg hkey, if_neg (mt hclaims.1 hkey), List.map_cons, ih hxs]

theorem keysPlain_put {e : Entry} {l : List Entry} (he : ':' ∉ e.key) (hl : KeysPlain l) :
    KeysPlain (put e l) := by
  have hkeys : ∀ k ∈ (put e l).map key, ':' ∉ k := by
    have hall : ∀ k ∈ l.map key, ':' ∉ k := List.forall_mem_map.2 hl
    rw [keys_put]
    split
    · exact hall
    · exact List.forall_mem_append.2 ⟨hall, List.forall_mem_singleton.2 he⟩
  exact fun x hx => hkeys x.key (List.mem_map_of_mem hx)

/-- The texts of a list are kept by looking for beginnings. -/
theorem map_render_putAll {es l : List Entry} (hes : KeysPlain es) (hl : KeysPlain l) :
    (putAll es l).map render = es.foldl (fun ss e => putWritten e ss) (l.map render) := by
  induction es generalizing l with
  | nil => rfl
  | cons e es ih =>
    obtain ⟨he, hes⟩ := List.forall_mem_cons.1 hes
    rw [List.foldl_cons, ← map_render_put he hl]
    exact ih hes (keysPlain_put he hl)

/-- Of the texts of a list with distinct keys one begins with the key of a given entry and a colon. -/
theorem filter_render {l : List Entry} (hplain : KeysPlain l) (hl : (l.map key).Nodup) {e : Entry}
    (he : e ∈ l) : (l.map render).filter e.claims = [e.render] := by
  have hclaims (x : Entry) (hx : x ∈ l) : (e.claims ∘ render) x = (x == e) := by
    rw [Bool.eq_iff_iff, beq_iff_eq]
    refine (claims_render (hplain e he) (hplain x hx)).trans ⟨fun hkey => ?_, congrArg key⟩
    exact List.inj_on_of_nodup_map hl hx he hkey
  have hcount : l.count e = 1 := List.count_eq_one_of_mem (hl.of_map key) he
  rw [List.filter_map, List.filter_congr hclaims, List.filter_beq, hcount]
  rfl

end Entry

end Agenda
