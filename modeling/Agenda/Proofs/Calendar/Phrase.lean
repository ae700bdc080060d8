import Agenda.Proofs.Calendar.Written
import Agenda.Proofs.Text.Words
/-!
# Dates as phrases

A written date is one word of digits and signs, which lower case does not change. As a phrase it names
its day when its year has four digits and no sign, whatever day it is said on; otherwise it is no phrase
at all.

Results: `isIsoShape_render`; `ofPhrase?_render`.
-/
namespace Agenda

namespace Date

open Calendar Text

/-! ## Characters of a written date -/

/-- A character of a written date. -/
def isFigure (c : Char) : Bool := c.isDigit || c == '-' || c == '+'

theorem isFigure_of_mem_render {d : Date} {c : Char} (h : c ∈ d.render) : isFigure c = true := by
  have hdigit (hc : c.isDigit = true) : isFigure c = true := by rw [isFigure, hc]; rfl
  have hyear (hc : c ∈ renderYear d.year) : isFigure c = true := by
    unfold renderYear at hc
    split at hc
    · rcases List.mem_cons.1 hc with rfl | hc
      · rfl
      · exact hdigit (isDigit_of_mem_padded hc)
    · split at hc
      · exact hdigit (isDigit_of_mem_padded hc)
      · rcases List.mem_cons.1 hc with rfl | hc
        · rfl
        · exact hdigit (isDigit_of_mem_ofNat hc)
  have hpart {n : Nat} (hc : c ∈ '-' :: padded 2 n) : isFigure c = true := by
    rcases List.mem_cons.1 hc with rfl | hc
    · rfl
    · exact hdigit (isDigit_of_mem_padded hc)
  rcases List.mem_append.1 h with h | h
  · rcases List.mem_append.1 h with h | h
    · exact hyear h
    · exact hpart h
  · exact hpart h

theorem toNat_of_isFigure {c : Char} (h : isFigure c = true) : 43 ≤ c.toNat ∧ c.toNat ≤ 57 := by
  rw [isFigure, Bool.or_eq_true, Bool.or_eq_true, beq_iff_eq, beq_iff_eq] at h
  rcases h with (hdigit | rfl) | rfl
  · have := toNat_of_isDigit hdigit
    omega
  · decide
  · decide

theorem isBlank_of_isFigure {c : Char} (h : isFigure c = true) : isBlank c = false := by
  have hdisjoint : disjoint [(43, 57)] blankRanges = true := by decide
  refine inRanges_eq_false_of_disjoint hdisjoint ?_
  simpa [inRanges] using toNat_of_isFigure h

theorem toLower_of_isFigure {c : Char} (h : isFigure c = true) : c.toNat < 128 ∧ c.toLower = c := by
  have hc := toNat_of_isFigure h
  refine ⟨by omega, ?_⟩
  have hcapital : ¬ (c.val ≥ 'A'.val ∧ c.val ≤ 'Z'.val) := by
    rintro ⟨hlow, -⟩
    have : 65 ≤ c.toNat := UInt32.le_iff_toNat_le.1 hlow
    omega
  exact dif_neg hcapital

theorem render_ne_nil (d : Date) : d.render ≠ [] := by
  simp [render]

theorem trim_render (d : Date) : trim d.render = d.render :=
  (trimmed_of_not_blank fun _ hc => isBlank_of_isFigure (isFigure_of_mem_render hc)).trim_eq

/-- A written date is no word with a letter in it. -/
theorem render_ne_of_mem {d : Date} {w : Text} {c : Char} (hc : c ∈ w) (hfigure : isFigure c = false) :
    d.render ≠ w := by
  rintro rfl
  rw [isFigure_of_mem_render hc] at hfigure
  cases hfigure

/-! ## Ten characters -/

/-- A year of four digits: no sign is written. -/
def hasShortYear (d : Date) : Bool := decide (0 ≤ d.year ∧ d.year ≤ 9999)

/-- From the year 0 up to the year 9999 a date is written in four, two and two digits. -/
theorem exists_render_eq {d : Date} (h : d.hasShortYear = true) : ∃ a b c e f g i j : Char,
    d.render = [a, b, c, e, '-', f, g, '-', i, j] ∧
      padded 4 d.year.natAbs = [a, b, c, e] ∧ padded 2 d.month = [f, g] ∧ padded 2 d.day = [i, j] := by
  have hlength {width n : Nat} (hw : 0 < width) (hn : n < 10 ^ width) :
      (padded width n).length = width :=
    length_padded ((Nat.length_toDigits_le_iff (by decide) hw).2 hn)
  obtain ⟨hzero, hlast⟩ : 0 ≤ d.year ∧ d.year ≤ 9999 := of_decide_eq_true h
  have hyear : d.year.natAbs < 10 ^ 4 := by omega
  have hmonth : d.month < 10 ^ 2 := by have := d.month_le; omega
  have hday : d.day < 10 ^ 2 := by
    have := d.day_le
    have := monthLength_le d.year d.month
    omega
  obtain ⟨a, b, c, e, hy⟩ := List.length_eq_four.1 (hlength (by decide) hyear)
  obtain ⟨f, g, hm⟩ := List.length_eq_two.1 (hlength (by decide) hmonth)
  obtain ⟨i, j, hd⟩ := List.length_eq_two.1 (hlength (by decide) hday)
  refine ⟨a, b, c, e, f, g, i, j, ?_, hy, hm, hd⟩
  rw [render, renderYear, if_neg (by omega), if_pos hlast, hy, hm, hd]
  rfl

/-- Any other year has a sign in front. -/
theorem exists_render_eq_cons {d : Date} (h : d.hasShortYear = false) :
    ∃ sign r, d.render = sign :: r ∧ sign.isDigit = false := by
  have hyear : ¬ (0 ≤ d.year ∧ d.year ≤ 9999) := of_decide_eq_false h
  unfold render renderYear
  by_cases hneg : d.year < 0
  · rw [if_pos hneg]
    exact ⟨'-', _, rfl, rfl⟩
  · rw [if_neg hneg, if_neg (by omega)]
    exact ⟨'+', _, rfl, rfl⟩

/-- A date is written in ten characters from the year 0 up to the year 9999. -/
theorem isIsoShape_render (d : Date) : isIsoShape d.render = d.hasShortYear := by
  by_cases h : d.hasShortYear = true
  · obtain ⟨a, b, c, e, f, g, i, j, hr, hy, hm, hd⟩ := exists_render_eq h
    have hdigit (k : Char) (hk : k ∈ [a, b, c, e] ++ [f, g] ++ [i, j]) : k.isDigit = true := by
      rw [← hy, ← hm, ← hd] at hk
      rcases List.mem_append.1 hk with hk | hk
      · exact (List.mem_append.1 hk).elim isDigit_of_mem_padded isDigit_of_mem_padded
      · exact isDigit_of_mem_padded hk
    have hall : [a, b, c, e, f, g, i, j].all Char.isDigit = true := List.all_eq_true.2 hdigit
    rw [hr, isIsoShape, hall, h]
    rfl
  · rw [Bool.not_eq_true] at h
    obtain ⟨sign, r, hr, hsign⟩ := exists_render_eq_cons h
    rw [hr, h, isIsoShape.eq_def]
    split
    · next heq => cases heq; simp [hsign]
    · rfl

theorem readIso?_render {d : Date} (h : d.hasShortYear = true) : readIso? d.render = some d := by
  have hshape : isIsoShape d.render = true := by rw [isIsoShape_render, h]
  have hyear : (d.year.natAbs : Int) = d.year := Int.natAbs_of_nonneg (of_decide_eq_true h).1
  obtain ⟨a, b, c, e, f, g, i, j, hr, hy, hm, hd⟩ := exists_render_eq h
  rw [readIso?, if_pos hshape, hr]
  show ofParts? (valueFrom 0 [a, b, c, e]) (valueFrom 0 [f, g]) (valueFrom 0 [i, j]) = some d
  rw [← hy, ← hm, ← hd, valueFrom_padded, valueFrom_padded, valueFrom_padded, hyear, ofParts?_parts]

/-! ## As a phrase -/

theorem words_render (d : Date) : words (lower (trim d.render)) = [d.render] := by
  have hlower : lower d.render = d.render :=
    lower_eq_self fun c hc => toLower_of_isFigure (isFigure_of_mem_render hc)
  rw [trim_render, hlower]
  exact words_of_not_blank d.render_ne_nil fun c hc => isBlank_of_isFigure (isFigure_of_mem_render hc)

theorem ofName?_render (d : Date) : Weekday.ofName? d.render = none := by
  have hsame : asciiLower d.render = d.render :=
    (List.map_congr_left fun c hc => (toLower_of_isFigure (isFigure_of_mem_render hc)).2).trans
      (List.map_id _)
  have hname (w : Weekday) : d.render ≠ w.name ∧ d.render ≠ w.shortName := by
    have hletter : (w.shortName.any fun c => !isFigure c) = true := by cases w <;> decide
    obtain ⟨c, hc, hfigure⟩ := List.any_eq_true.1 hletter
    rw [Bool.not_eq_true'] at hfigure
    exact ⟨render_ne_of_mem (List.mem_of_mem_take hc) hfigure, render_ne_of_mem hc hfigure⟩
  rw [Weekday.ofName?, List.find?_eq_none, hsame]
  intro w _
  simpa using ⟨(hname w).1.symm, (hname w).2.symm⟩

theorem read?_phrase_render (d : Date) :
    DayPhrase.read? d.render = if d.hasShortYear then some (.on d) else none := by
  have hletter {w : Text} (c : Char) (hc : c ∈ w) (hfigure : isFigure c = false) : d.render ≠ w :=
    render_ne_of_mem hc hfigure
  rw [DayPhrase.read?, words_render, DayPhrase.ofWords?, DayPhrase.ofWord?,
    if_neg (hletter 't' (by decide) rfl), if_neg (hletter 't' (by decide) rfl),
    if_neg (hletter 'n' (by decide) rfl), isIsoShape_render, ofName?_render]
  split
  · next h => rw [readIso?_render h]; rfl
  · rfl

/-- A written date means its day, whatever day it is said on, when its year has four digits and no sign;
with a sign it is no phrase. -/
theorem ofPhrase?_render (today d : Date) :
    today.ofPhrase? d.render = if d.hasShortYear then some d else none := by
  rw [ofPhrase?, read?_phrase_render]
  split <;> rfl

end Date

end Agenda
