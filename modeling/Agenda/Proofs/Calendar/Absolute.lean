import Agenda.Proofs.Calendar.Relative
/-!
# Dates in figures as phrases

A word of four, two and two digits with hyphens between them is a phrase when the digits name a day of the
calendar. It is none of the words that count from today, and means that day whatever day it is said on.

Results: `ofPhrase?_of_figures`; `render_of_figures`; `written_dates_round_trip`.
-/
namespace Agenda

namespace Date

open Calendar DayPhrase Text

structure Figures where
  year : Text
  month : Text
  day : Text
  isDigit_year : ∀ c ∈ year, c.isDigit = true
  isDigit_month : ∀ c ∈ month, c.isDigit = true
  isDigit_day : ∀ c ∈ day, c.isDigit = true
  length_year : year.length = 4
  length_month : month.length = 2
  length_day : day.length = 2

namespace Figures

def word (f : Figures) : Text := f.year ++ '-' :: f.month ++ '-' :: f.day

/-- There is such a month, and such a day in it. -/
def IsDay (f : Figures) : Prop :=
  1 ≤ valueFrom 0 f.month ∧ valueFrom 0 f.month ≤ 12 ∧
    1 ≤ valueFrom 0 f.day ∧ valueFrom 0 f.day ≤ monthLength (valueFrom 0 f.year) (valueFrom 0 f.month)

theorem length_word (f : Figures) : f.word.length = 10 := by
  simp [word, f.length_year, f.length_month, f.length_day]

/-- Ten characters of the shape that is asked for are such figures. -/
theorem exists_of_isIsoShape {w : Text} (h : isIsoShape w = true) : ∃ f : Figures, w = f.word := by
  unfold isIsoShape at h
  split at h
  · next a b c d x e f y g i =>
    simp only [List.all_cons, List.all_nil, Bool.and_eq_true, beq_iff_eq] at h
    obtain ⟨⟨⟨ha, hb, hc, hd, he, hf, hg, hi, -⟩, rfl⟩, rfl⟩ := h
    exact ⟨⟨[a, b, c, d], [e, f], [g, i], by simp [ha, hb, hc, hd], by simp [he, hf], by simp [hg, hi],
      rfl, rfl, rfl⟩, rfl⟩
  · cases h

theorem exists_word_eq (f : Figures) : ∃ a b c d e g i j : Char,
    f.year = [a, b, c, d] ∧ f.month = [e, g] ∧ f.day = [i, j] := by
  obtain ⟨a, b, c, d, hyear⟩ := List.length_eq_four.1 f.length_year
  obtain ⟨e, g, hmonth⟩ := List.length_eq_two.1 f.length_month
  obtain ⟨i, j, hday⟩ := List.length_eq_two.1 f.length_day
  exact ⟨a, b, c, d, e, g, i, j, hyear, hmonth, hday⟩

theorem isIsoShape_word (f : Figures) : isIsoShape f.word = true := by
  obtain ⟨a, b, c, d, e, g, i, j, hyear, hmonth, hday⟩ := f.exists_word_eq
  have hy := f.isDigit_year
  have hm := f.isDigit_month
  have hd := f.isDigit_day
  rw [hyear] at hy
  rw [hmonth] at hm
  rw [hday] at hd
  simp at hy hm hd
  simp [word, hyear, hmonth, hday, isIsoShape, hy, hm, hd]

theorem readIso?_word (f : Figures) :
    readIso? f.word = ofParts? (valueFrom 0 f.year) (valueFrom 0 f.month) (valueFrom 0 f.day) := by
  obtain ⟨a, b, c, d, e, g, i, j, hyear, hmonth, hday⟩ := f.exists_word_eq
  rw [readIso?, if_pos f.isIsoShape_word, word, hyear, hmonth, hday]
  rfl

/-- The words that count from today have other lengths. -/
theorem ofWord?_word (f : Figures) :
    ofWord? f.word
      = (ofParts? (valueFrom 0 f.year) (valueFrom 0 f.month) (valueFrom 0 f.day)).map on := by
  have hother : ∀ w : Text, w.length ≠ 10 → f.word ≠ w := by
    intro w hw heq
    rw [← heq] at hw
    exact hw f.length_word
  unfold ofWord?
  rw [if_neg (hother _ (by decide)), if_neg (hother _ (by decide)), if_neg (hother _ (by decide)),
    if_pos f.isIsoShape_word, readIso?_word]

end Figures

theorem exists_ofParts?_iff {y : Int} {m d : Nat} :
    (∃ date, ofParts? y m d = some date) ↔ 1 ≤ m ∧ m ≤ 12 ∧ 1 ≤ d ∧ d ≤ monthLength y m := by
  unfold ofParts?
  by_cases h : 1 ≤ m ∧ m ≤ 12 ∧ 1 ≤ d ∧ d ≤ monthLength y m
  · rw [dif_pos h]
    exact ⟨fun _ => h, fun _ => ⟨_, rfl⟩⟩
  · rw [dif_neg h]
    exact ⟨fun ⟨_, hnone⟩ => absurd hnone (by simp), fun h' => absurd h' h⟩

theorem parts_of_ofParts? {y : Int} {m d : Nat} {date : Date} (h : ofParts? y m d = some date) :
    date.year = y ∧ date.month = m ∧ date.day = d := by
  unfold ofParts? at h
  split at h
  · cases h
    exact ⟨rfl, rfl, rfl⟩
  · cases h

theorem ofPhrase?_of_figures {f : Figures} {s : Text} (h : Says s [f.word]) (today : Date) :
    today.ofPhrase? s = ofParts? (valueFrom 0 f.year) (valueFrom 0 f.month) (valueFrom 0 f.day) := by
  rw [ofPhrase?_of_words h, ofWords?, f.ofWord?_word]
  cases ofParts? (valueFrom 0 f.year : Int) (valueFrom 0 f.month) (valueFrom 0 f.day) <;> rfl

/-- The day that figures name is written in these figures. -/
theorem render_of_figures {f : Figures} {d : Date}
    (h : ofParts? (valueFrom 0 f.year) (valueFrom 0 f.month) (valueFrom 0 f.day) = some d) :
    d.render = f.word := by
  obtain ⟨hyear, hmonth, hday⟩ := parts_of_ofParts? h
  have hlt : valueFrom 0 f.year < 10 ^ 4 := by
    rw [← f.length_year]
    exact valueFrom_lt f.isDigit_year
  have hy : padded 4 (valueFrom 0 f.year) = f.year := by
    rw [← f.length_year]
    exact padded_valueFrom f.isDigit_year (by rw [f.length_year]; omega)
  have hm : padded 2 (valueFrom 0 f.month) = f.month := by
    rw [← f.length_month]
    exact padded_valueFrom f.isDigit_month (by rw [f.length_month]; omega)
  have hd : padded 2 (valueFrom 0 f.day) = f.day := by
    rw [← f.length_day]
    exact padded_valueFrom f.isDigit_day (by rw [f.length_day]; omega)
  unfold render renderYear
  rw [hyear, hmonth, hday, if_neg (by omega), if_pos (by omega), Int.natAbs_natCast, hy, hm, hd]
  rfl

/-- What a text that says nothing but figures means. -/
structure MeansFigures (f : Figures) (s : Text) : Prop where
  exists_iff : ∀ today : Date, (∃ d, today.ofPhrase? s = some d) ↔ f.IsDay
  render_eq : ∀ today d : Date, today.ofPhrase? s = some d → d.render = f.word
  same : ∀ today today' : Date, today.ofPhrase? s = today'.ofPhrase? s

/-- Dates in figures are read the same on every day: those that are days mean the day with this writing,
and the writing of every day from the year 0 up to the year 9999 means that day. -/
theorem written_dates_round_trip :
    (∀ w s : Text, isIsoShape w = true → Says s [w] → ∃ f : Figures, w = f.word ∧ MeansFigures f s) ∧
    ∀ today d : Date, 0 ≤ d.year → d.year ≤ 9999 → today.ofPhrase? d.render = some d := by
  refine ⟨fun w s hshape hsaid => ?_, fun today d hzero hlast => ?_⟩
  · obtain ⟨f, rfl⟩ := Figures.exists_of_isIsoShape hshape
    refine ⟨f, rfl, fun today => ?_, fun today d hd => ?_, fun today today' => ?_⟩
    · rw [ofPhrase?_of_figures hsaid, exists_ofParts?_iff]
      rfl
    · rw [ofPhrase?_of_figures hsaid] at hd
      exact render_of_figures hd
    · rw [ofPhrase?_of_figures hsaid, ofPhrase?_of_figures hsaid]
  · have hshort : d.hasShortYear = true := decide_eq_true ⟨hzero, hlast⟩
    rw [ofPhrase?_render, if_pos hshort]

/-- The last day of February in a leap year, with blanks around it and as it is written. -/
theorem written_leap_day_round_trips :
    let leap : Date := ⟨2024, 2, 29, by decide, by decide, by decide, by decide⟩
    isIsoShape leap.render = true ∧ Says " 2024-02-29 ".toList [leap.render] ∧
      (∃ f : Figures, leap.render = f.word ∧ MeansFigures f " 2024-02-29 ".toList) ∧
      0 ≤ leap.year ∧ leap.year ≤ 9999 ∧ leap.ofPhrase? leap.render = some leap :=
  ⟨by decide, by decide, written_dates_round_trip.1 _ _ (by decide) (by decide), by decide, by decide,
    written_dates_round_trip.2 _ _ (by decide) (by decide)⟩

end Date

end Agenda
