import Agenda.Calendar.DayPhrase
import Agenda.Proofs.Text.Number
import Mathlib.Data.List.TakeWhile
import Mathlib.Order.Monotone.Basic
/-!
# Dates in writing

A date is read back from its writing, whatever its year: years from 0 to 9999 have four digits, all
others a sign and their digits, and the reader tells them apart by the sign. Up to the last date that
can be written that gives the date; every day that a phrase means is one of them.

Results: `readParts?_render`; `read?_render`; `render_injective`; `year_le_of_ofPhrase?`.
-/
namespace Agenda

namespace Calendar

theorem monthLength_le (y : Int) (m : Nat) : monthLength y m ≤ 31 := by
  unfold monthLength
  repeat' split
  all_goals omega

theorem daysBeforeYear_mono {y z : Int} (h : y ≤ z) : daysBeforeYear y ≤ daysBeforeYear z := by
  have hmono : Monotone daysBeforeYear := monotone_int_of_le_succ fun y => by
    rw [daysBeforeYear_succ]
    omega
  exact hmono h

end Calendar

namespace Date

open Calendar Text

/-! ## Reading digits -/

/-- A run of digits that is not too long is read up to what is not a digit. -/
theorem readDigits?_append {width : Nat} {a r : Text} (hdigits : ∀ c ∈ a, c.isDigit = true)
    (hne : a ≠ []) (hlen : a.length ≤ width) (hr : ∀ c, r.head? = some c → c.isDigit = false) :
    readDigits? width (a ++ r) = some (valueFrom 0 a, r) := by
  have hnone : (r.take (width - a.length)).takeWhile Char.isDigit = [] := by
    cases hw : width - a.length with
    | zero => rfl
    | succ k =>
      cases r with
      | nil => rfl
      | cons c r => rw [List.take_succ_cons, List.takeWhile_cons, hr c rfl]; rfl
  have htake : ((a ++ r).take width).takeWhile Char.isDigit = a := by
    rw [List.take_append, List.take_of_length_le hlen, List.takeWhile_append_of_pos hdigits, hnone,
      List.append_nil]
  rw [readDigits?, htake, if_neg hne, List.drop_left]

theorem readPart?_padded {n : Nat} {r : Text} (hn : n < 100)
    (hr : ∀ c, r.head? = some c → c.isDigit = false) :
    readPart? ('-' :: (padded 2 n ++ r)) = some (n, r) := by
  have hshort : (ofNat n).length ≤ 2 := (Nat.length_toDigits_le_iff (by decide) (by decide)).2 hn
  have hlength : (padded 2 n).length = 2 := length_padded hshort
  have hne : padded 2 n ≠ [] := List.ne_nil_of_length_pos (by omega)
  rw [readPart?, readDigits?_append (fun _ => isDigit_of_mem_padded) hne hlength.le hr,
    valueFrom_padded]

/-- Digits and nothing else: no sign is in front of them. -/
theorem ne_cons_of_digits {a r t : Text} {c : Char} (hdigits : ∀ c ∈ a, c.isDigit = true) (hne : a ≠ [])
    (hc : c.isDigit = false) : a ++ r ≠ c :: t := by
  intro h
  obtain ⟨d, s, rfl⟩ := List.exists_cons_of_ne_nil hne
  have hd : d.isDigit = true := hdigits d (List.mem_cons_self ..)
  cases h
  rw [hc] at hd
  cases hd

theorem readYear?_renderYear (year : Int) {r : Text} (hr : ∀ c, r.head? = some c → c.isDigit = false) :
    readYear? (renderYear year ++ r) = some (year, r) := by
  have hpadded : padded 4 year.natAbs ≠ [] := by simp [padded, ofNat_ne_nil]
  have hdigits : ∀ c ∈ padded 4 year.natAbs, c.isDigit = true := fun _ => isDigit_of_mem_padded
  unfold renderYear
  by_cases hneg : year < 0
  · rw [if_pos hneg, List.cons_append, readYear?, readDigits?_append hdigits hpadded (by simp) hr,
      valueFrom_padded]
    simp only [Option.map_some, Option.some.injEq, Prod.mk.injEq, and_true]
    omega
  · rw [if_neg hneg]
    by_cases h : year ≤ 9999
    · have hyear : year.natAbs < 10000 := by omega
      have hshort : (ofNat year.natAbs).length ≤ 4 :=
        (Nat.length_toDigits_le_iff (by decide) (by decide)).2 hyear
      rw [if_pos h, readYear?, readDigits?_append hdigits hpadded (length_padded hshort).le hr,
        valueFrom_padded]
      · simp only [Option.map_some, Option.some.injEq, Prod.mk.injEq, and_true]
        omega
      · intro t
        exact ne_cons_of_digits hdigits hpadded (by decide)
      · intro t
        exact ne_cons_of_digits hdigits hpadded (by decide)
    · rw [if_neg h, List.cons_append, readYear?,
        readDigits?_append (fun _ => isDigit_of_mem_ofNat) (ofNat_ne_nil _) (by simp) hr, valueFrom_ofNat]
      simp only [Option.map_some, Option.some.injEq, Prod.mk.injEq, and_true]
      omega

/-! ## Reading dates -/

/-- A date has the parts that its writing spells, whatever its year. -/
theorem readParts?_render (d : Date) : readParts? d.render = some (d.year, d.month, d.day) := by
  have hmonth : d.month < 100 := by have := d.month_le; omega
  have hday : d.day < 100 := by
    have := d.day_le
    have := monthLength_le d.year d.month
    omega
  have hhyphen (r : Text) : ∀ c, ('-' :: r).head? = some c → c.isDigit = false := by
    intro c hc; cases hc; decide
  have hparts : d.render = renderYear d.year
      ++ '-' :: (padded 2 d.month ++ '-' :: (padded 2 d.day ++ [])) := by
    rw [render, List.append_nil, List.append_assoc]; rfl
  rw [hparts, readParts?, readYear?_renderYear d.year (hhyphen _)]
  simp only [Option.bind_eq_bind, Option.bind_some]
  rw [readPart?_padded hmonth (hhyphen _)]
  simp only [Option.bind_some]
  rw [readPart?_padded hday (by simp)]
  rfl

theorem ofParts?_parts (d : Date) : ofParts? d.year d.month d.day = some d := by
  rw [ofParts?, dif_pos ⟨d.month_pos, d.month_le, d.day_pos, d.day_le⟩]

/-- Up to the last date, a date is read back from its writing. -/
theorem read?_render {d : Date} (h : d.year ≤ last.year) : read? d.render = some d := by
  rw [read?, readParts?_render]
  simp only [Option.bind_eq_bind, Option.bind_some]
  rw [if_pos h, ofParts?_parts]

theorem render_injective {d e : Date} (h : d.render = e.render) : d = e := by
  have hparts : (d.year, d.month, d.day) = (e.year, e.month, e.day) :=
    Option.some.inj (by rw [← readParts?_render d, h, readParts?_render])
  obtain ⟨hy, hm, hd⟩ : d.year = e.year ∧ d.month = e.month ∧ d.day = e.day := by
    simpa using hparts
  exact Option.some.inj (by rw [← ofParts?_parts d, hy, hm, hd, ofParts?_parts])

/-- The writing of a date begins with a digit or a plus sign. -/
theorem render_ne_wildcard (d : Date) : d.render ≠ ['*'] := by
  intro h
  have hread := readParts?_render d
  rw [h] at hread
  cases hread

/-! ## Days that phrases mean -/

/-- Only ten characters of its form name a date outright. -/
theorem exists_readIso?_of_read? {s : Text} {d : Date} (h : DayPhrase.read? s = some (.on d)) :
    ∃ w, readIso? w = some d := by
  unfold DayPhrase.read? DayPhrase.ofWords? at h
  split at h
  · next w _ =>
    unfold DayPhrase.ofWord? at h
    split at h; · cases h
    split at h; · cases h
    split at h; · cases h
    split at h
    · obtain ⟨d', hd', he⟩ := Option.map_eq_some_iff.1 h
      cases he
      exact ⟨w, hd'⟩
    · obtain ⟨_, _, he⟩ := Option.map_eq_some_iff.1 h
      cases he
  · next first w _ =>
    split at h
    · unfold DayPhrase.ofNext? at h
      split at h
      · cases h
      · obtain ⟨_, _, he⟩ := Option.map_eq_some_iff.1 h
        cases he
    · cases h
  · next first count unit _ =>
    split at h
    · unfold DayPhrase.ofCount? at h
      cases hn : readWord? count with
      | none => rw [hn] at h; cases h
      | some n =>
        cases hu : DayPhrase.unitDays? unit with
        | none => rw [hn, hu] at h; cases h
        | some k =>
          simp only [hn, hu, Option.bind_eq_bind, Option.bind_some] at h
          split at h <;> cases h
    · cases h
  · cases h

/-- A day up to the last one lies in a year up to the last one. -/
theorem yearOf_le {n : Int} (h : n ≤ last.dayNumber) : yearOf n ≤ last.year := by
  by_contra hlt
  have hlast : last.dayNumber < daysBeforeYear (last.year + 1) := by decide
  have hmono : daysBeforeYear (last.year + 1) ≤ daysBeforeYear (yearOf n) :=
    daysBeforeYear_mono (by omega)
  have := (daysBefore_yearOf n).1
  omega

theorem year_le_of_addDays? {d e : Date} {n : Nat} (h : d.addDays? n = some e) :
    e.year ≤ last.year := by
  unfold addDays? at h
  split at h
  · next hn => rw [← Option.some.inj h]; exact yearOf_le hn
  · cases h

/-- Ten characters cannot name a year beyond 9999. -/
theorem year_le_of_readIso? {s : Text} {d : Date} (h : readIso? s = some d) : d.year ≤ 9999 := by
  unfold readIso? at h
  split at h
  · next hs =>
    unfold isIsoShape at hs
    split at hs
    · next a b c e hyphen f g hyphen' i j =>
      simp only [List.all_cons, Bool.and_eq_true] at hs
      obtain ⟨⟨⟨ha, hb, hc, he, -⟩, -⟩, -⟩ := hs
      have hyear : d.year = valueFrom 0 [a, b, c, e] := by
        unfold ofParts? at h
        split at h
        · cases h; rfl
        · cases h
      have := digitValue_le ha
      have := digitValue_le hb
      have := digitValue_le hc
      have := digitValue_le he
      rw [hyear]
      simp only [valueFrom, List.foldl_cons, List.foldl_nil]
      omega
    · cases hs
  · cases h

/-- Every day that a phrase means can be written and read back. -/
theorem year_le_of_ofPhrase? {today d : Date} {s : Text} (h : today.ofPhrase? s = some d) :
    d.year ≤ last.year := by
  obtain ⟨phrase, hread, hresolve⟩ := Option.bind_eq_some_iff.1 h
  cases phrase with
  | later days => exact year_le_of_addDays? hresolve
  | weekday day strictly => exact year_le_of_addDays? hresolve
  | on date =>
    cases hresolve
    have hiso : ∃ w, readIso? w = some d := exists_readIso?_of_read? hread
    obtain ⟨w, hw⟩ := hiso
    have := year_le_of_readIso? hw
    have : last.year = 262142 := rfl
    omega

end Date

end Agenda
