import Agenda.Plan.Listing
import Agenda.Proofs.Calendar.Written
import Agenda.Proofs.Plan.Item
/-!
# Normal filters

In a compiled filter every predicate has the text of its criterion, and that text spells the criterion:
states are read back from their names, days from their writing and numbers from their digits, though
other readers read them than those that read what was typed.

Results: `ofWritten_of_ofPredicate`; `isNormal_of_normalize`.
-/
namespace Agenda

namespace Criterion

theorem readTaskId?_ofNat {n : Nat} (hpos : 0 < n) (hlt : n < Text.wordBound) :
    readTaskId? (Text.ofNat n) = some n := by
  rw [readTaskId?, Text.readNat?_ofNat, Option.filter_some, if_pos (by simp [hpos, hlt])]
  exact fun r hr => Text.ofNat_ne_cons (by decide) r hr

theorem bounds_of_readTaskId? {s : Text} {n : Nat} (h : readTaskId? s = some n) :
    0 < n ∧ n < Text.wordBound := by
  have := (Option.mem_filter_iff.1 h).2
  simpa using this

theorem bounds_of_ofWritten {s : Text} {n : Nat} (h : ofWritten s .id = .ok (id n)) :
    0 < n ∧ n < Text.wordBound := by
  rw [ofWritten] at h
  split at h
  · next m hm => cases h; exact bounds_of_readTaskId? hm
  · cases h

theorem render_tagMatch (kind : TagKind) (s : Text) : (tag kind (tagMatch s)).render = s := by
  unfold tagMatch
  split
  · next h => exact h.symm
  · rfl

/-- The text of a criterion in a compiled filter spells that criterion. -/
theorem ofWritten_of_ofPredicate {today : Date} {kind : PredicateKind} {s : Text} {c : Criterion}
    (h : ofPredicate today kind s = .ok c) : c.kind = kind ∧ ofWritten c.render kind = .ok c := by
  unfold ofPredicate at h
  generalize Text.trim s = t at h
  cases kind with
  | state =>
    simp only [ofTrimmed] at h
    split at h
    · cases h
    · split at h
      · next st hst =>
        cases h
        refine ⟨rfl, ?_⟩
        simp only [render, ofWritten, TaskState.read?_name]
      · cases h
  | due =>
    simp only [ofTrimmed] at h
    split at h
    · cases h; exact ⟨rfl, rfl⟩
    · split at h
      · next d hd =>
        cases h
        refine ⟨rfl, ?_⟩
        have hne : d.render ≠ wildcard := d.render_ne_wildcard
        simp only [render, ofWritten, if_neg hne, Date.read?_render (Date.year_le_of_ofPhrase? hd)]
      · cases h
  | project => cases h; exact ⟨rfl, by rw [render_tagMatch]; rfl⟩
  | context => cases h; exact ⟨rfl, by rw [render_tagMatch]; rfl⟩
  | text => cases h; exact ⟨rfl, rfl⟩
  | id =>
    simp only [ofTrimmed] at h
    split at h
    · next n hn =>
      cases h
      obtain ⟨hpos, hlt⟩ := bounds_of_readTaskId? hn
      refine ⟨rfl, ?_⟩
      simp only [render, ofWritten, readTaskId?_ofNat hpos hlt]
    · cases h

end Criterion

namespace Filter

/-- Every predicate has the text of a criterion and spells it. -/
def IsNormal (e : Filter) : Prop :=
  ∀ kind text, (kind, text) ∈ e.predicates →
    ∃ c : Criterion, c.kind = kind ∧ c.render = text ∧ Criterion.ofWritten text kind = .ok c

theorem isNormal_of_normalize {today : Date} {e e' : Filter} (h : e.normalize today = .ok e') :
    e'.IsNormal := by
  induction e generalizing e' with
  | binary op l r span ihl ihr =>
    rw [normalize] at h
    split at h
    · cases h
    · next l' hl =>
      obtain ⟨r', hr, rfl⟩ := exists_of_map_eq_ok h
      intro kind text hmem
      rcases List.mem_append.1 hmem with hmem | hmem
      · exact ihl hl kind text hmem
      · exact ihr hr kind text hmem
  | negation e span ih =>
    rw [normalize] at h
    obtain ⟨inner, hinner, rfl⟩ := exists_of_map_eq_ok h
    have hnormal : inner.IsNormal := ih hinner
    exact hnormal
  | predicate kind text span =>
    rw [normalize] at h
    split at h
    · cases h
    · next c hc =>
      cases h
      obtain ⟨hkind, hwritten⟩ := Criterion.ofWritten_of_ofPredicate hc
      intro kind' text' hmem
      cases List.mem_singleton.1 hmem
      exact ⟨c, hkind, rfl, hwritten⟩

end Filter

end Agenda
