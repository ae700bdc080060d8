import Agenda.Proofs.Canonical.Command
/-!
# What is read can be read back

Every command that a line makes is one that a line can ask for: its title is trimmed, its tags have
names that may stand after a sigil, its task is a number of sixty-four bits, and the predicates of its
filter have a text.

Results: `isReadable_of_commandOf`.
-/
namespace Agenda

open Lexer

def Shaped (ts : List Token) : Prop := ∀ t ∈ ts, Shape t.kind t.text

theorem Shaped.mono {ts us : List Token} (h : Shaped ts) (hs : us ⊆ ts) : Shaped us :=
  fun t ht => h t (hs ht)

theorem Shaped.tail {t : Token} {ts : List Token} (h : Shaped (t :: ts)) : Shaped ts :=
  h.mono (List.subset_cons_self _ _)

/-- The name in a tag may stand after a sigil. -/
theorem isTagName_of_afterSigil {t : Token} {name : Text} (h : Shape t.kind t.text)
    (ht : t.kind.isTag = true) (hname : t.afterSigil? = some name) : IsTagName name := by
  have hk : ∃ k, t.kind = tagToken k := by
    cases hkind : t.kind <;> rw [hkind] at ht <;> first
      | exact ⟨.project, rfl⟩
      | exact ⟨.context, rfl⟩
      | cases ht
  obtain ⟨k, hk⟩ := hk
  obtain ⟨name', htext, hshape⟩ := h.tag k hk
  obtain ⟨c, -, htext'⟩ := Token.afterSigil?_eq_some_iff.1 hname
  cases htext.symm.trans htext'
  exact hshape

/-! ## Operations -/

theorem Op.isReadable_of_isOp {ts rest : List Token} {op : Op} (hts : Shaped ts)
    (h : IsOp ts op rest) : op.IsReadable := by
  cases h with
  | edit | clear | removed => trivial
  | tag kind ht hname =>
    exact isTagName_of_afterSigil (hts _ (by simp)) (by rw [ht]; cases kind <;> rfl) hname
  | added kind ht hu touch hname =>
    exact isTagName_of_afterSigil (hts _ (by simp)) (by rw [hu]; cases kind <;> rfl) hname

namespace Command

/-- Every operation among words and operations can be asked for. -/
theorem Items.isReadable {eof : Position} {ts words : List Token} {ops : List Op}
    (h : Items eof ts words ops) (hts : Shaped ts) : ∀ op ∈ ops, op.IsReadable := by
  induction h with
  | nil => exact List.forall_mem_nil Op.IsReadable
  | op head _ ih =>
    have hop := Op.read_some_iff.1 head
    exact List.forall_mem_cons.2
      ⟨Op.isReadable_of_isOp hts hop, ih (hts.mono hop.suffix.subset)⟩
  | word _ _ ih => exact ih hts.tail

theorem lt_wordBound_of_readTarget {ts rest : List Token} {n : Nat}
    (h : readTarget ts = .ok (.id n, rest)) : n < Text.wordBound := by
  have hid {t : Token} {digits : Text} {us : List Token}
      (h : readId t digits us = .ok (.id n, rest)) : n < Text.wordBound := by
    unfold readId at h
    split at h
    · next hn => cases h; exact Text.lt_wordBound_of_readWord? hn
    · cases h
  unfold readTarget at h
  split at h
  · cases h
  · split at h
    · split at h
      · exact hid h
      · cases h
    · split at h
      · cases h
      · split at h
        · exact hid h
        · cases h
    · split at h <;> cases h

end Command

/-! ## Filters -/

namespace Filter

/-- A filter that is one predicate. -/
theorem hasText_predicate {kind : PredicateKind} {text : Text} {span : Span}
    (h : HasText (kind, text)) : ∀ q ∈ (predicate kind text span).predicates, HasText q := by
  intro q hq
  rw [predicates, List.mem_singleton] at hq
  rw [hq]
  exact h

/-- A predicate of texts may have any text. -/
theorem hasText_text (text : Text) : HasText (.text, text) := fun h => absurd rfl h

theorem hasText_ofKey {key text : Text} {span : Span} (hne : text ≠ [])
    (htrim : Text.trim text = text) : ∀ q ∈ (ofKey key text span).predicates, HasText q := by
  unfold ofKey
  split
  · exact hasText_predicate fun _ => ⟨hne, htrim⟩
  · exact hasText_predicate (hasText_text _)

theorem hasText_of_isFieldValue {field : Token} {ts rest : List Token} {e : Filter}
    (h : IsFieldValue field ts e rest) : ∀ q ∈ e.predicates, HasText q := by
  obtain ⟨value, hb⟩ := h
  exact hasText_ofKey hb (Text.trim_trim _)

theorem hasText_tag {k : PredicateKind} {t : Token} {name : Text} (h : Shape t.kind t.text)
    (ht : t.kind.isTag = true) (hcut : t.afterSigil? = some name) : HasText (k, name) := by
  have hname := isTagName_of_afterSigil h ht hcut
  intro _
  obtain ⟨c, r, hc, -⟩ := hname.start
  exact ⟨by rw [hc]; simp, (Text.trimmed_of_not_blank hname.not_blank).trim_eq⟩

/-- The predicates of a filter that is derived from shaped tokens have a text: by induction on the
derivation, along which the tokens that are left stay among the tokens of the line. -/
theorem hasText_of_derives {s : GrammarSymbol} {ts rest : List Token} {e : Filter}
    (h : Derives s ts e rest) (hts : Shaped ts) : ∀ q ∈ e.predicates, HasText q := by
  induction h with
  | alternative _ ih | term _ ih | plain _ ih => exact ih hts
  | or hl _ _ ihl ihr | and hl _ _ ihl ihr =>
    have hmid := (hts.mono hl.suffix.subset).tail
    exact fun q hq => (List.mem_append.1 hq).elim (ihl hts q) (ihr hmid q)
  | not _ _ ih | group _ _ _ ih => exact ih hts.tail
  | clearing _ _ hp | field _ hp =>
    have htext := hasText_of_isFieldValue hp
    exact htext
  | project ht hname | context ht hname =>
    exact hasText_predicate (hasText_tag (hts _ (by simp)) (by rw [ht]; rfl) hname)
  | text => exact hasText_predicate (hasText_text _)

end Filter

/-! ## Commands -/

namespace Command

theorem contextArg_of_contextOf {t : Token} (h : Shape t.kind t.text) {kind : TagKind} {name : Text}
    (ha : contextOf t = .ok (.tag kind name)) : IsTagName name := by
  unfold contextOf at ha
  split at ha
  · cases ha
  · split at ha
    · next htag =>
      split at ha
      · next hname => cases ha; exact isTagName_of_afterSigil h htag hname
      · cases ha
    · cases ha

/-- Every command that shaped tokens make can be asked for. -/
theorem Makes.isReadable {eof : Position} {whole ts : List Token} {i : Intent} {c : Command}
    (h : Makes eof whole i ts c) (hts : Shaped ts) : c.IsReadable := by
  cases h with
  | create items titled => exact ⟨ValueRun.trimmed_join _, titled, items.isReadable hts⟩
  | update htarget items =>
    refine ⟨?_, items.isReadable (hts.mono (suffix_of_readTarget htarget).subset)⟩
    rintro n rfl
    exact lt_wordBound_of_readTarget htarget
  | filter derives => exact Filter.hasText_of_derives derives hts
  | allViews | view => trivial
  | showContext => rintro kind name ⟨⟩
  | context named =>
    rintro kind name ⟨⟩
    exact contextArg_of_contextOf (hts _ (by simp)) named

/-- Every command that a line makes can be asked for. -/
theorem isReadable_of_commandOf {mode : Mode} {input : Text} {c : Command}
    (h : Reading.commandOf mode input = .ok c) : c.IsReadable := by
  obtain ⟨-, -, i, -, hmakes⟩ := Reading.commandOf_ok_iff.1 h
  have hshaped : Shaped (lex input).tokens := fun t ht => shape_of_mem_tokens ht
  exact hmakes.isReadable (hshaped.mono (afterVerb_suffix _).subset)

end Command

end Agenda
