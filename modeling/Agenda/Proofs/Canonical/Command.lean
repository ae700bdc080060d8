import Agenda.Proofs.Canonical.Filter
import Agenda.Proofs.Canonical.Op
import Agenda.Proofs.Text.Number
/-!
# The canonical form of a command reads back

A command that a line can ask for (`Command.IsReadable`) has a canonical form that is read, whatever
the command was read from, as the command itself, with the values that `Value.reread` says
(`exists_commandOf_canonical`).
-/
namespace Agenda

open Lexer Canonical

namespace Command

def reread : Command → Command
  | create t ops s => create t (ops.map Op.reread) s
  | update t ops s => update t (ops.map Op.reread) s
  | c => c

/-- A command that a line can ask for. -/
def IsReadable : Command → Prop
  | create t ops _ =>
    Text.Trimmed t ∧ (t = [] → ops.any setsTitle = true) ∧ ∀ op ∈ ops, op.IsReadable
  | update target ops _ => (∀ n, target = .id n → n < Text.wordBound) ∧ ∀ op ∈ ops, op.IsReadable
  | filter e _ => ∀ q ∈ e.predicates, Filter.HasText q
  | view _ _ => True
  | context arg _ => ∀ kind name, arg = some (.tag kind name) → IsTagName name

/-! ## Titles -/

/-- The canonical form of a title is a run of words that joins to it. -/
theorem exists_title {t : Text} (ht : Text.Trimmed t) :
    ∃ l ls, Cuts (title t) (l :: ls) ∧ (∀ m ∈ l :: ls, IsWordLexeme m)
      ∧ ValueRun.join ((l :: ls).map Lexeme.token) = t := by
  unfold title
  split
  · next hp =>
    obtain ⟨l, ls, hls, -, hword⟩ := exists_plain hp
    exact ⟨l, ls, hls.cuts, hword, hls.join⟩
  · refine ⟨_, [], (firm_quote t).cuts, fun m hm => ?_, ?_⟩
    · rw [List.mem_singleton.1 hm]; exact ⟨rfl, rfl⟩
    · rw [List.map_singleton, ValueRun.join_quotation rfl]
      show Text.trim t.quote.unquote = t
      rw [Text.unquote_quote, ht.trim_eq]

/-- Lexemes of words before operations are words. -/
theorem items_words (eof p : Position) {ls ms : List Lexeme} {ops : List Op}
    (hls : ∀ l ∈ ls, IsWordLexeme l) (hms : Follows ms)
    (hops : Items eof (tokensAt (placeEnd p ls) ms) [] ops) :
    Items eof (tokensAt p (ls ++ ms)) (tokensAt p ls) ops := by
  induction ls generalizing p with
  | nil => exact hops
  | cons l ls ih =>
    have hl := hls l (by simp)
    have hls' : ∀ l ∈ ls, IsWordLexeme l := fun m hm => hls m (by simp [hm])
    have hb := not_begins_run p hl hls' hms
    have hrest := ih (p := (p.after l.gap).after l.text) hls' hops
    rw [List.cons_append, tokensAt_cons] at *
    exact .word (Op.read_none_iff.2 ⟨hl.2, hb⟩) hrest

/-! ## Targets -/

theorem cuts_number (n : Nat) : Cuts ('#' :: Text.ofNat n) [⟨[], .hashNumber, '#' :: Text.ofNat n⟩] := by
  have hdigits : ∀ c ∈ Text.ofNat n, c.isDigit = true := fun _ => Text.isDigit_of_mem_ofNat
  refine cuts_of_rule ?_ rfl
  show some (hashRule (Text.ofNat n)) = _
  cases hn : Text.ofNat n with
  | nil => exact absurd hn (Text.ofNat_ne_nil n)
  | cons d r =>
    rw [hn] at hdigits
    rw [hashRule, if_pos (hdigits d (by simp)), List.takeWhile_eq_self_iff.2 hdigits]

/-- The canonical form of a target is read as that target. -/
theorem exists_target {target : Target} (h : ∀ n, target = .id n → n < Text.wordBound) :
    ∃ l, Cuts target.canonical [l] ∧ Opens target.canonical ∧ ∀ p ms,
      readTarget (tokensAt p (l :: ms)) = .ok (target, tokensAt (placeEnd p [l]) ms) := by
  cases target with
  | selected =>
    have hcuts : Cuts "selected".toList [⟨[], .ident, "selected".toList⟩] :=
      cuts_of_rule (c := 's') (r := "elected".toList) rfl rfl
    exact ⟨_, hcuts, ⟨'s', "elected".toList, rfl, by decide, by decide⟩, fun _ _ => rfl⟩
  | id n =>
    refine ⟨_, cuts_number n, ⟨'#', Text.ofNat n, rfl, by decide, by decide⟩, fun p ms => ?_⟩
    have hdigits (span : Span) :
        (⟨.hashNumber, '#' :: Text.ofNat n, span⟩ : Token).afterSigil? = some (Text.ofNat n) :=
      Token.afterSigil?_eq_some_iff.2 ⟨'#', rfl, rfl⟩
    rw [tokensAt_cons]
    simp only [readTarget, hdigits, readId, Text.readWord?_ofNat (h n rfl)]
    rfl

/-! ## Commands -/

theorem setsTitle_reread (op : Op) : setsTitle op.reread = setsTitle op := by
  cases op with
  | edit how f v s => cases how <;> cases f <;> rfl
  | clear f s => rfl
  | tag k n s => rfl

theorem any_setsTitle_of_reread {ops ops' : List Op}
    (h : ops'.map Op.withoutSpans = (ops.map Op.reread).map Op.withoutSpans) :
    ops'.any setsTitle = ops.any setsTitle := by
  rw [any_setsTitle_of_withoutSpans h, List.any_map]
  exact congrArg (List.any ops) (funext setsTitle_reread)

theorem canonicalAll_eq (ops : List Op) :
    Op.canonicalAll ops = [] ∨ ∃ u, Op.canonicalAll ops = ' ' :: u := by
  cases ops with
  | nil => exact Or.inl rfl
  | cons op ops => exact Or.inr ⟨_, rfl⟩

theorem exists_commandOf_create {t : Text} {ops : List Op} (span : Span)
    (h : (create t ops span).IsReadable) :
    ∃ c', Reading.commandOf .auto (create t ops span).canonical = .ok c'
      ∧ c'.withoutSpans = (create t ops span).reread.withoutSpans := by
  obtain ⟨htrim, htitle, hops⟩ := h
  obtain ⟨ms, hms, hfollows, hseq⟩ := Op.exists_items_canonicalAll ops hops
  by_cases ht : t = []
  · subst ht
    have hcut : cut .root (create [] ops span).canonical = ⟨verbLexeme .create :: ms, none, []⟩ :=
      cut_line (i := .create) hms
        ((canonicalAll_eq ops).imp_right fun ⟨u, hu⟩ => ⟨u, hu, fun h => (by cases h)⟩)
    obtain ⟨eof, whole, hline⟩ := commandOf_verb hcut hms.closed
    obtain ⟨ops', hops', hspans⟩ := hseq eof (Position.origin.after Intent.create.verb)
    have htitled := (any_setsTitle_of_reread hspans).trans (htitle rfl)
    exact ⟨_, hline _ (.create hops' fun _ => htitled),
      by simp only [withoutSpans, reread, hspans]; rfl⟩
  · obtain ⟨l, ls, hl, hword, hjoin⟩ := exists_title htrim
    have hcuts : Cuts (' ' :: title t ++ Op.canonicalAll ops) (spaced (l :: ls) ++ ms) :=
      (hl.spaced (by simp)).append hms fun u hu => Op.separates_canonicalAll hops hu
    have hcut : cut .root (create t ops span).canonical
        = ⟨verbLexeme .create :: (spaced (l :: ls) ++ ms), none, []⟩ := by
      rw [canonical, canonicalRest, if_neg ht]
      exact cut_line (i := .create) hcuts (Or.inr ⟨_, rfl, fun h => (by cases h)⟩)
    obtain ⟨eof, whole, hline⟩ := commandOf_verb hcut hcuts.closed
    rw [← spaced_append (by simp), tokensAt_spaced] at hline
    obtain ⟨ops', hops', hspans⟩ := hseq eof
      (placeEnd ((Position.origin.after Intent.create.verb).next ' ') (l :: ls))
    have hitems := items_words eof _ hword hfollows hops'
    have hwords : ValueRun.join (tokensAt ((Position.origin.after Intent.create.verb).next ' ') (l :: ls))
        = t := by rw [ValueRun.join_tokensAt, hjoin]
    exact ⟨_, hline _ (.create hitems fun hempty => absurd (hwords.symm.trans hempty) ht),
      by simp only [withoutSpans, reread, hspans, hwords]⟩

theorem exists_commandOf_update {target : Target} {ops : List Op} (span : Span)
    (h : (update target ops span).IsReadable) :
    ∃ c', Reading.commandOf .auto (update target ops span).canonical = .ok c'
      ∧ c'.withoutSpans = (update target ops span).reread.withoutSpans := by
  obtain ⟨htarget, hops⟩ := h
  obtain ⟨ms, hms, hfollows, hseq⟩ := Op.exists_items_canonicalAll ops hops
  obtain ⟨l, hl, hopens, htargets⟩ := exists_target htarget
  have hcuts : Cuts (' ' :: target.canonical ++ Op.canonicalAll ops) (spaced [l] ++ ms) :=
    (hl.spaced (by simp)).append hms fun u hu => Op.separates_canonicalAll hops hu
  have hcut := cut_line (i := .update) hcuts (Or.inr ⟨_, rfl, fun h => (by cases h)⟩)
  obtain ⟨eof, whole, hline⟩ := commandOf_verb hcut hcuts.closed
  rw [← spaced_append (by simp), tokensAt_spaced] at hline
  obtain ⟨ops', hops', hspans⟩ := hseq eof
    (placeEnd ((Position.origin.after Intent.update.verb).next ' ') [l])
  have hread := htargets ((Position.origin.after Intent.update.verb).next ' ') ms
  exact ⟨_, hline _ (.update hread hops'), by simp only [withoutSpans, reread, hspans]⟩

theorem exists_commandOf_view (target : Option View) (span : Span) :
    ∃ c', Reading.commandOf .auto (view target span).canonical = .ok c'
      ∧ c'.withoutSpans = (view target span).withoutSpans := by
  cases target with
  | none =>
    obtain ⟨eof, whole, hline⟩ := commandOf_verb (cuts_verb .view).cut_eq (fun _ h => (by cases h))
    exact ⟨_, hline _ .allViews, rfl⟩
  | some v =>
    have hname : ∃ c r, v.name = c :: r ∧ rootRule c r = some (.ident, r.length) := by
      cases v <;> exact ⟨_, _, rfl, rfl⟩
    have hcuts : Cuts v.name [⟨[], .ident, v.name⟩] := by
      obtain ⟨c, r, hv, hr⟩ := hname
      rw [hv]
      exact cuts_of_rule hr rfl
    have hspaced := hcuts.spaced (by simp)
    have hcut := cut_line (i := .view) hspaced (Or.inr ⟨_, rfl, fun h => (by cases h)⟩)
    obtain ⟨eof, whole, hline⟩ := commandOf_verb hcut hspaced.closed
    exact ⟨_, hline _ (.view (v := v) (by cases v <;> rfl)), rfl⟩

theorem exists_commandOf_context {arg : Option ContextArg} (span : Span)
    (h : (context arg span).IsReadable) :
    ∃ c', Reading.commandOf .auto (context arg span).canonical = .ok c'
      ∧ c'.withoutSpans = (context arg span).withoutSpans := by
  rcases arg with _ | _ | ⟨kind, name⟩
  · obtain ⟨eof, whole, hline⟩ := commandOf_verb (cuts_verb .context).cut_eq (fun _ h => (by cases h))
    exact ⟨_, hline _ .showContext, rfl⟩
  · have hcuts : Cuts "clear".toList [⟨[], .ident, "clear".toList⟩] :=
      cuts_of_rule (c := 'c') (r := "lear".toList) rfl rfl
    have hspaced := hcuts.spaced (by simp)
    have hcut := cut_line (i := .context) hspaced
      (Or.inr ⟨_, rfl, fun _ => ⟨'c', "lear".toList, rfl, by decide, by decide⟩⟩)
    obtain ⟨eof, whole, hline⟩ := commandOf_verb hcut hspaced.closed
    exact ⟨_, hline _ (.context (a := .clear) rfl), rfl⟩
  · have hcuts := cuts_tag kind (h kind name rfl)
    have hspaced := hcuts.spaced (by simp)
    have hopens : Opens (kind.sigil :: name) := by
      cases kind <;> exact ⟨_, name, rfl, by decide, by decide⟩
    have hcut := cut_line (i := .context) hspaced (Or.inr ⟨_, rfl, fun _ => hopens⟩)
    obtain ⟨eof, whole, hline⟩ := commandOf_verb hcut hspaced.closed
    have hname (span : Span) :
        (⟨tagToken kind, kind.sigil :: name, span⟩ : Token).afterSigil? = some name :=
      Token.afterSigil?_eq_some_iff.2 ⟨kind.sigil, kind.utf8Size_sigil, rfl⟩
    refine ⟨_, hline _ (.context (a := .tag kind name) ?_), rfl⟩
    cases kind <;> simp only [contextOf, hname] <;> rfl

/-- The canonical form of every command that a line can ask for is read, with its verb, as the command
itself up to spans, with the values that stand bare or are quotations. -/
theorem exists_commandOf_canonical (c : Command) (h : c.IsReadable) :
    ∃ c', Reading.commandOf .auto c.canonical = .ok c'
      ∧ c'.withoutSpans = c.reread.withoutSpans := by
  cases c with
  | create t ops span => exact exists_commandOf_create span h
  | update target ops span => exact exists_commandOf_update span h
  | filter e span =>
    obtain ⟨e', span', hread, hspans⟩ := Filter.commandOf_canonical e h
    exact ⟨_, hread, by rw [withoutSpans, hspans]; rfl⟩
  | view target span => exact exists_commandOf_view target span
  | context arg span => exact exists_commandOf_context span h

end Command

end Agenda
