import Agenda.Calendar.DayPhrase
import Agenda.Proofs.Calendar.Written
/-!
# Day after day

The calendar as it is counted, one day after the other: the last day of a month is followed by the first
of the next, and December by January of the next year. Day numbers count these steps, in the order of the
dates, so that the day of a greater number is the one reached in so many steps. Each step goes on to the
next day of the week.

Results: `dayNumber_next` and `dayNumber_later`; `dayNumber_lt_iff` and `ofDayNumber_dayNumber`;
`addDays?_eq`; `weekday_next` and `isOnlyOn_weekdayDistance`.
-/
namespace Agenda

namespace Calendar

theorem daysBeforeMonth_add (y : Int) {m : Nat} (hm : 1 ≤ m) :
    daysBeforeMonth y (m - 1) + monthLength y m = daysBeforeMonth y m := by
  obtain ⟨j, rfl⟩ : ∃ j, m = j + 1 := ⟨m - 1, by omega⟩
  rfl

theorem daysBeforeMonth_mono (y : Int) : Monotone (daysBeforeMonth y) :=
  monotone_nat_of_le_succ fun _ => Nat.le_add_right _ _

/-- The days before the month that is found, and those of it, are the days that were left. -/
theorem daysBeforeMonth_monthFrom (y : Int) (m d k : Nat) (hm : 1 ≤ m) :
    daysBeforeMonth y ((monthFrom y m d k).1 - 1) + (monthFrom y m d k).2
      = daysBeforeMonth y (m - 1) + d := by
  induction k generalizing m d with
  | zero => rfl
  | succ k ih =>
    rw [monthFrom]
    split
    · rfl
    · have hadd := daysBeforeMonth_add y hm
      rw [ih (m + 1) (d - monthLength y m) (by omega), Nat.add_sub_cancel]
      omega

end Calendar

namespace Date

open Calendar

/-! ## One day after the other -/

def next (d : Date) : Date :=
  if hday : d.day + 1 ≤ monthLength d.year d.month then
    ⟨d.year, d.month, d.day + 1, d.month_pos, d.month_le, by omega, hday⟩
  else if hmonth : d.month + 1 ≤ 12 then
    ⟨d.year, d.month + 1, 1, by omega, hmonth, by omega, monthLength_pos _ _⟩
  else ⟨d.year + 1, 1, 1, by omega, by omega, by omega, monthLength_pos _ _⟩

def later (d : Date) : Nat → Date
  | 0 => d
  | n + 1 => (d.later n).next

theorem dayNumber_next (d : Date) : d.next.dayNumber = d.dayNumber + 1 := by
  have hday := d.day_le
  have hmonth := d.month_le
  have hadd := daysBeforeMonth_add d.year d.month_pos
  unfold next
  split
  next => simp only [dayNumber]; omega
  next hend =>
    split
    next => simp only [dayNumber, Nat.add_sub_cancel]; omega
    next =>
      have hdecember : d.month = 12 := by omega
      rw [hdecember] at hadd hday hend
      have hzero : daysBeforeMonth (d.year + 1) (1 - 1) = 0 := rfl
      simp only [dayNumber, daysBeforeYear_succ, hdecember, hzero]
      omega

theorem dayNumber_later (d : Date) (n : Nat) : (d.later n).dayNumber = d.dayNumber + n := by
  induction n with
  | zero => simp [later]
  | succ n ih =>
    rw [later, dayNumber_next, ih]
    omega

/-- The day after the last of February, in a leap year and in another one. -/
example : (⟨2024, 2, 28, by decide, by decide, by decide, by decide⟩ : Date).next.day = 29 ∧
    (⟨1900, 2, 28, by decide, by decide, by decide, by decide⟩ : Date).next.month = 3 := by decide

/-! ## The order of dates -/

/-- Earlier by the year, else by the month, else by the day. -/
instance : LT Date where
  lt d e := d.year < e.year ∨ d.year = e.year ∧ (d.month < e.month ∨ d.month = e.month ∧ d.day < e.day)

instance : LE Date where
  le d e := ¬ e < d

instance (d e : Date) : Decidable (d < e) := inferInstanceAs (Decidable (_ ∨ _))

instance (d e : Date) : Decidable (d ≤ e) := inferInstanceAs (Decidable (¬ _))

theorem dayNumber_bounds (d : Date) :
    daysBeforeYear d.year ≤ d.dayNumber ∧ d.dayNumber < daysBeforeYear (d.year + 1) := by
  have hpos := d.day_pos
  have hday := d.day_le
  have hadd := daysBeforeMonth_add d.year d.month_pos
  have hyear : daysBeforeMonth d.year d.month ≤ daysBeforeMonth d.year 12 :=
    daysBeforeMonth_mono d.year d.month_le
  rw [daysBeforeYear_succ, dayNumber]
  omega

theorem dayNumber_lt_of_lt {d e : Date} (h : d < e) : d.dayNumber < e.dayNumber := by
  rcases h with hyear | ⟨hyear, hmonth | ⟨hmonth, hday⟩⟩
  · have hmono : daysBeforeYear (d.year + 1) ≤ daysBeforeYear e.year := daysBeforeYear_mono (by omega)
    have := d.dayNumber_bounds
    have := e.dayNumber_bounds
    omega
  · have hmono : daysBeforeMonth d.year d.month ≤ daysBeforeMonth d.year (e.month - 1) :=
      daysBeforeMonth_mono d.year (by omega)
    have hadd := daysBeforeMonth_add d.year d.month_pos
    have := d.day_le
    have := e.day_pos
    simp only [dayNumber, ← hyear]
    omega
  · simp only [dayNumber, ← hyear, ← hmonth]
    omega

theorem lt_or_eq_or_lt (d e : Date) : d < e ∨ d = e ∨ e < d := by
  by_cases hyear : d.year = e.year
  · by_cases hmonth : d.month = e.month
    · by_cases hday : d.day = e.day
      · exact Or.inr (Or.inl (by cases d; cases e; simp_all))
      · rcases Nat.lt_or_gt_of_ne hday with h | h
        · exact Or.inl (Or.inr ⟨hyear, Or.inr ⟨hmonth, h⟩⟩)
        · exact Or.inr (Or.inr (Or.inr ⟨hyear.symm, Or.inr ⟨hmonth.symm, h⟩⟩))
    · rcases Nat.lt_or_gt_of_ne hmonth with h | h
      · exact Or.inl (Or.inr ⟨hyear, Or.inl h⟩)
      · exact Or.inr (Or.inr (Or.inr ⟨hyear.symm, Or.inl h⟩))
  · rcases Int.lt_or_gt_of_ne hyear with h | h
    · exact Or.inl (Or.inl h)
    · exact Or.inr (Or.inr (Or.inl h))

/-- Day numbers are in the order of the dates. -/
theorem dayNumber_lt_iff {d e : Date} : d.dayNumber < e.dayNumber ↔ d < e := by
  refine ⟨fun h => ?_, dayNumber_lt_of_lt⟩
  rcases lt_or_eq_or_lt d e with hlt | rfl | hlt
  · exact hlt
  · omega
  · have := dayNumber_lt_of_lt hlt
    omega

theorem dayNumber_le_iff {d e : Date} : d.dayNumber ≤ e.dayNumber ↔ d ≤ e := by
  rw [← Int.not_lt, dayNumber_lt_iff]
  rfl

theorem dayNumber_injective {d e : Date} (h : d.dayNumber = e.dayNumber) : d = e := by
  rcases lt_or_eq_or_lt d e with hlt | heq | hlt
  · have := dayNumber_lt_of_lt hlt
    omega
  · exact heq
  · have := dayNumber_lt_of_lt hlt
    omega

/-! ## Dates and their numbers -/

theorem dayNumber_ofDayNumber (n : Int) : (ofDayNumber n).dayNumber = n := by
  have hyear := daysBefore_yearOf n
  have hmonth := daysBeforeMonth_monthFrom (yearOf n) 1 (n - daysBeforeYear (yearOf n)).toNat 11 (by omega)
  have hzero : daysBeforeMonth (yearOf n) (1 - 1) = 0 := rfl
  simp only [dayNumber, ofDayNumber, monthAndDay]
  omega

/-- The date of a day number is the only one with that number. -/
theorem ofDayNumber_dayNumber (d : Date) : ofDayNumber d.dayNumber = d :=
  dayNumber_injective (dayNumber_ofDayNumber d.dayNumber)

/-- The days that are added are counted one after the other. -/
theorem addDays?_eq (d : Date) (n : Nat) :
    d.addDays? n = if d.later n ≤ last then some (d.later n) else none := by
  rw [addDays?, ← dayNumber_later, ofDayNumber_dayNumber]
  simp only [dayNumber_le_iff]

end Date

/-! ## Days of the week -/

namespace Weekday

def next : Weekday → Weekday
  | monday => tuesday
  | tuesday => wednesday
  | wednesday => thursday
  | thursday => friday
  | friday => saturday
  | saturday => sunday
  | sunday => monday

def ofIndex : Nat → Weekday
  | 0 => monday
  | 1 => tuesday
  | 2 => wednesday
  | 3 => thursday
  | 4 => friday
  | 5 => saturday
  | _ => sunday

theorem ofIndex_index (w : Weekday) : ofIndex w.index = w := by cases w <;> rfl

theorem index_ofIndex {n : Nat} (h : n < 7) : (ofIndex n).index = n := by
  have hall : ∀ k < 7, (ofIndex k).index = k := by decide
  exact hall n h

theorem index_injective {v w : Weekday} (h : v.index = w.index) : v = w := by
  rw [← ofIndex_index v, h, ofIndex_index]

theorem index_next (w : Weekday) : w.next.index = (w.index + 1) % 7 := by cases w <;> rfl

theorem indexOfDayNumber_lt (n : Int) : indexOfDayNumber n < 7 := by
  unfold indexOfDayNumber
  omega

end Weekday

namespace Date

open Weekday (indexOfDayNumber)

def weekday (d : Date) : Weekday := Weekday.ofIndex (indexOfDayNumber d.dayNumber)

theorem index_weekday (d : Date) : d.weekday.index = indexOfDayNumber d.dayNumber :=
  Weekday.index_ofIndex (Weekday.indexOfDayNumber_lt _)

theorem weekday_eq_iff {d : Date} {w : Weekday} : d.weekday = w ↔ indexOfDayNumber d.dayNumber = w.index := by
  rw [← index_weekday]
  exact ⟨fun h => congrArg Weekday.index h, Weekday.index_injective⟩

/-- Each day falls on the weekday after that of the day before. -/
theorem weekday_next (d : Date) : d.next.weekday = d.weekday.next := by
  rw [weekday_eq_iff, Weekday.index_next, index_weekday, dayNumber_next]
  unfold indexOfDayNumber
  omega

/-- With this one day the weekdays of all others are known. -/
example : (⟨2026, 2, 8, by decide, by decide, by decide, by decide⟩ : Date).weekday = .sunday := by decide

/-- Among the days from `first` to `final` days after `today`, the day `k` days after it is the only one
that falls on `w`. -/
structure IsOnlyOn (today : Date) (w : Weekday) (first final k : Nat) : Prop where
  le : first ≤ k
  ge : k ≤ final
  weekday_eq : (today.later k).weekday = w
  unique : ∀ j, first ≤ j → j ≤ final → (today.later j).weekday = w → j = k

theorem weekday_later_iff (d : Date) (j : Nat) {w : Weekday} :
    (d.later j).weekday = w ↔ (d.dayNumber + j + 5) % 7 = w.index := by
  rw [weekday_eq_iff, dayNumber_later]
  unfold indexOfDayNumber
  omega

/-- The days until a weekday are fewer than seven, and lead to it. -/
theorem daysUntil_spec (d : Date) (w : Weekday) :
    w.daysUntil d.dayNumber < 7 ∧ (d.dayNumber + w.daysUntil d.dayNumber + 5) % 7 = w.index := by
  have hw := w.index_lt
  unfold Weekday.daysUntil indexOfDayNumber
  omega

/-- Seven days in a row have every weekday once. -/
theorem isOnlyOn_of_weekday_eq {today : Date} {w : Weekday} {first k : Nat} (hle : first ≤ k)
    (hge : k ≤ first + 6) (h : (today.later k).weekday = w) : today.IsOnlyOn w first (first + 6) k where
  le := hle
  ge := hge
  weekday_eq := h
  unique j hj hj' hw := by
    have hk := (today.weekday_later_iff k).1 h
    have hw := (today.weekday_later_iff j).1 hw
    omega

/-- A weekday that is asked for lies from today to the sixth day after it, or strictly after today up to the
seventh. -/
theorem isOnlyOn_weekdayDistance (today : Date) (w : Weekday) (strictly : Bool) :
    today.IsOnlyOn w strictly.toNat (strictly.toNat + 6)
      (DayPhrase.weekdayDistance today w strictly) := by
  obtain ⟨hlt, huntil⟩ := today.daysUntil_spec w
  have hdistance : DayPhrase.weekdayDistance today w strictly
      = if strictly = true ∧ w.daysUntil today.dayNumber = 0 then 7 else w.daysUntil today.dayNumber := by
    simp [DayPhrase.weekdayDistance]
  rw [hdistance]
  by_cases htoday : strictly = true ∧ w.daysUntil today.dayNumber = 0
  · -- the weekday of today, a week later
    obtain ⟨rfl, hzero⟩ := htoday
    rw [if_pos ⟨rfl, hzero⟩]
    exact isOnlyOn_of_weekday_eq (by decide) (by decide) ((weekday_later_iff _ _).2 (by omega))
  · rw [if_neg htoday]
    refine isOnlyOn_of_weekday_eq ?_ (by omega) ((weekday_later_iff _ _).2 huntil)
    cases strictly with
    | false => exact Nat.zero_le _
    | true => exact Nat.one_le_iff_ne_zero.2 fun hzero => htoday ⟨rfl, hzero⟩

end Date

end Agenda
