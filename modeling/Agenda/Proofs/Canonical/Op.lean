import Agenda.Proofs.Canonical.Value
import Agenda.Proofs.Command.Reading
import Agenda.Proofs.Field
import Agenda.Proofs.Op.Grammar
/-!
# The canonical form of operations reads back

Each operation in its canonical form is read as the operation that it is (`exists_read_canonical`),
with the values that `Value.reread` says, and so are operations in a row
(`exists_items_canonicalAll`).
-/
namespace Agenda.Op

open Lexer Canonical

def reread : Op → Op
  | edit how f v s => edit how f v.reread s
  | op => op

/-- An operation that a line can ask for: the name of a tag may stand after a sigil. -/
def IsReadable : Op → Prop
  | tag _ name _ => IsTagName name
  | _ => True

/-! ## One operation -/

theorem opens_edit (how : Edit) (f : Field) (s : Text) : Opens (how.sign ++ f.name ++ s) := by
  refine Opens.append ?_ s
  cases how with
  | set => cases f <;> exact ⟨_, _, rfl, by decide, by decide⟩
  | add => exact ⟨'+', f.name, rfl, by decide, by decide⟩
  | remove => exact ⟨'-', f.name, rfl, by decide, by decide⟩

theorem fieldOf_edit {how : Edit} {f : Field} {t : Token}
    (h : t.text = how.sign ++ f.name ++ [':']) : fieldOf t = .ok f := by
  have hsign : how.sign.all Field.isSign = true := by cases how <;> decide
  rw [fieldOf, h, Field.key_of_word f.name_mem_words hsign (by decide), f.ofName?_unalias_name]

theorem fieldOf_clear {f : Field} {t : Token} (h : t.text = '!' :: f.name) : fieldOf t = .ok f := by
  have htext : t.text = ['!'] ++ f.name ++ [] := by rw [h]; simp
  rw [fieldOf, htext, Field.key_of_word f.name_mem_words (by decide) rfl, f.ofName?_unalias_name]

/-- The canonical form of an operation, before whatever may follow it, is read as that operation. -/
theorem exists_read_canonical (op : Op) (h : op.IsReadable) :
    ∃ l ls, Cuts op.canonical (l :: ls) ∧ l.kind.startsOp = true ∧ Opens op.canonical ∧
      ∀ eof p ms, Follows ms → ∃ op', Op.read eof (tokensAt p (l :: ls ++ ms))
        = .ok (some (op', tokensAt (placeEnd p (l :: ls)) ms)) ∧
          op'.withoutSpans = op.reread.withoutSpans := by
  cases op with
  | edit how f v span =>
    obtain ⟨ls, hcuts, hread⟩ := exists_readValue_value v
    have hfield := firm_field how f.name_mem_words
    refine ⟨⟨[], editToken how, how.sign ++ f.name ++ [':']⟩, ls, ?_, by cases how <;> rfl, ?_,
      fun eof p ms hms => ?_⟩
    · rw [canonical, List.append_cons]
      exact hfield.append hcuts
    · exact opens_edit how f _
    · let text := how.sign ++ f.name ++ [':']
      let t : Token := ⟨editToken how, text, ⟨p, p.after text⟩⟩
      obtain ⟨vspan, hv⟩ := hread eof f t (p.after text) ms hms
      have hop := IsOp.edit how (show t.kind = editToken how from rfl) (fieldOf_edit rfl)
        (readValue_ok_iff.1 hv)
      exact ⟨_, read_some_iff.2 hop, rfl⟩
  | clear f span =>
    refine ⟨⟨[], .clearField, '!' :: f.name⟩, [], cuts_clear f.name_mem_words, rfl,
      ⟨'!', f.name, rfl, by decide, by decide⟩, fun eof p ms _ => ?_⟩
    rw [List.singleton_append, tokensAt_cons]
    exact ⟨_, read_some_iff.2 (.clear rfl (fieldOf_clear rfl)), rfl⟩
  | tag kind name span =>
    refine ⟨⟨[], tagToken kind, kind.sigil :: name⟩, [], cuts_tag kind h, by cases kind <;> rfl, ?_,
      fun eof p ms _ => ?_⟩
    · cases kind <;> exact ⟨_, name, rfl, by decide, by decide⟩
    · rw [List.singleton_append, tokensAt_cons]
      refine ⟨_, read_some_iff.2 (.tag kind rfl (?_ : _ = some name)), rfl⟩
      exact Token.afterSigil?_eq_some_iff.2 ⟨kind.sigil, kind.utf8Size_sigil, rfl⟩

/-! ## Operations in a row -/

theorem separates_canonicalAll {ops : List Op} (h : ∀ op ∈ ops, op.IsReadable) {u : Text}
    (hu : Separates u) : Separates (canonicalAll ops ++ u) := by
  cases ops with
  | nil => exact hu
  | cons op ops =>
    obtain ⟨-, -, -, -, hopens, -⟩ := exists_read_canonical op (h op (by simp))
    rw [canonicalAll, List.map_cons, List.flatten_cons, List.append_assoc, List.cons_append]
    exact (hopens.append _).separates

/-- The canonical form of operations in a row is read as these operations. -/
theorem exists_items_canonicalAll (ops : List Op) (h : ∀ op ∈ ops, op.IsReadable) :
    ∃ ls, Cuts (canonicalAll ops) ls ∧ Follows ls ∧ ∀ eof p, ∃ ops',
      Command.Items eof (tokensAt p ls) [] ops' ∧
        ops'.map withoutSpans = (ops.map reread).map withoutSpans := by
  induction ops with
  | nil => exact ⟨[], cuts_nil, fun _ hm => (by cases hm), fun eof p => ⟨[], .nil, rfl⟩⟩
  | cons op ops ih =>
    have hops : ∀ op ∈ ops, op.IsReadable := fun o ho => h o (by simp [ho])
    obtain ⟨l, ls, hcuts, hstart, -, hread⟩ := exists_read_canonical op (h op (by simp))
    obtain ⟨ms, hms, hfollows, hseq⟩ := ih hops
    refine ⟨spaced (l :: ls) ++ ms, ?_, ?_, fun eof p => ?_⟩
    · exact (hcuts.spaced (by simp)).append hms fun u hu => separates_canonicalAll hops hu
    · intro m hm
      cases hm
      exact ⟨by simp, hstart⟩
    · rw [← spaced_append (by simp), tokensAt_spaced]
      obtain ⟨op', hop, hspans⟩ := hread eof (p.next ' ') ms hfollows
      obtain ⟨ops', hops', hall⟩ := hseq eof (placeEnd (p.next ' ') (l :: ls))
      exact ⟨op' :: ops', .op hop hops', by rw [List.map_cons, hspans, hall]; rfl⟩

end Agenda.Op
