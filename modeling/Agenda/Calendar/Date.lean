import Agenda.Text.Number
/-!
# Dates

Days of the proleptic Gregorian calendar, in which there is a year 0 and there are years before it. A
date is a year, a month and a day of the month; its day number counts the days before it from the first
day of the year 0, and is negative before that day.

Results: the year of a day number is the one whose days hold it (`daysBefore_yearOf`).
-/
namespace Agenda

namespace Calendar

/-- Every fourth year is a leap year, except three centuries out of four. -/
def isLeap (y : Int) : Bool := y % 4 == 0 && (y % 100 != 0 || y % 400 == 0)

/-- The number of days of a month, January being 1. -/
def monthLength (y : Int) (m : Nat) : Nat :=
  match m with
  | 2 => if isLeap y then 29 else 28
  | 4 | 6 | 9 | 11 => 30
  | _ => 31

def daysBeforeYear (y : Int) : Int :=
  365 * y + (y + 3) / 4 + (y + 399) / 400 - (y + 99) / 100

/-- The number of days of the year `y` before the month `m + 1`. -/
def daysBeforeMonth (y : Int) : Nat → Nat
  | 0 => 0
  | m + 1 => daysBeforeMonth y m + monthLength y (m + 1)

/-- The year in which the day number `n` lies. Four hundred years have 146097 days; the quotient is
at most one off. -/
def yearOf (n : Int) : Int :=
  let y := n * 400 / 146097
  if n < daysBeforeYear y then y - 1
  else if n < daysBeforeYear (y + 1) then y
  else y + 1

/-- Four hundred years have 146097 days, and no year is far from its share. -/
theorem daysBeforeYear_bounds (y : Int) :
    146097 * y ≤ 400 * daysBeforeYear y + 399 ∧ 400 * daysBeforeYear y ≤ 146097 * y + 699 := by
  unfold daysBeforeYear; omega

theorem daysBefore_yearOf (n : Int) :
    daysBeforeYear (yearOf n) ≤ n ∧ n < daysBeforeYear (yearOf n + 1) := by
  unfold yearOf
  generalize hy : n * 400 / 146097 = y
  have h0 := daysBeforeYear_bounds (y - 1)
  have h2 := daysBeforeYear_bounds (y + 1 + 1)
  simp only
  split
  · rw [Int.sub_add_cancel]
    omega
  · split <;> omega

/-- The month, counted from `m`, in which the day `d` (from 0) of what is left of the year lies,
and the day in that month. At most `k` months are left. -/
def monthFrom (y : Int) (m d : Nat) : Nat → Nat × Nat
  | 0 => (m, d)
  | k + 1 => if d < monthLength y m then (m, d) else monthFrom y (m + 1) (d - monthLength y m) k

end Calendar

structure Date where
  year : Int
  month : Nat
  day : Nat
  month_pos : 1 ≤ month
  month_le : month ≤ 12
  day_pos : 1 ≤ day
  day_le : day ≤ Calendar.monthLength year month
deriving DecidableEq, Repr

namespace Date

open Calendar

def ofParts? (y : Int) (m d : Nat) : Option Date :=
  if h : 1 ≤ m ∧ m ≤ 12 ∧ 1 ≤ d ∧ d ≤ monthLength y m then
    some ⟨y, m, d, h.1, h.2.1, h.2.2.1, h.2.2.2⟩
  else none

/-- The number of days before the date, from the first day of the year 0. -/
def dayNumber (d : Date) : Int :=
  daysBeforeYear d.year + daysBeforeMonth d.year (d.month - 1) + d.day - 1

end Date

namespace Calendar

theorem monthLength_pos (y : Int) (m : Nat) : 1 ≤ monthLength y m := by
  unfold monthLength; repeat' split
  all_goals omega

theorem monthFrom_bounds (y : Int) (m d k : Nat) (hk : m + k = 12) (hm : 1 ≤ m)
    (hd : d < daysBeforeMonth y 12 - daysBeforeMonth y (m - 1)) :
    m ≤ (monthFrom y m d k).1 ∧ (monthFrom y m d k).1 ≤ 12 ∧
      (monthFrom y m d k).2 < monthLength y (monthFrom y m d k).1 := by
  induction k generalizing m d with
  | zero =>
    have : m = 12 := by omega
    subst this
    have h12 : daysBeforeMonth y 12 = daysBeforeMonth y (12 - 1) + monthLength y 12 := rfl
    rw [monthFrom]
    exact ⟨Nat.le_refl _, Nat.le_refl _, show d < monthLength y 12 by omega⟩
  | succ k ih =>
    rw [monthFrom]
    split
    · next h => exact ⟨Nat.le_refl _, by omega, h⟩
    · next h =>
      have hb : daysBeforeMonth y (m + 1 - 1) = daysBeforeMonth y (m - 1) + monthLength y m := by
        obtain ⟨j, rfl⟩ : ∃ j, m = j + 1 := ⟨m - 1, by omega⟩
        rfl
      have := ih (m + 1) (d - monthLength y m) (by omega) (by omega) (by rw [hb]; omega)
      exact ⟨by omega, this.2.1, this.2.2⟩

theorem daysBeforeMonth_twelve (y : Int) :
    daysBeforeMonth y 12 = if isLeap y then 366 else 365 := by
  simp only [daysBeforeMonth, monthLength]; split <;> rfl

/-- A year has as many days as its twelve months. -/
theorem daysBeforeYear_succ (y : Int) :
    daysBeforeYear (y + 1) = daysBeforeYear y + daysBeforeMonth y 12 := by
  rw [daysBeforeMonth_twelve]
  unfold daysBeforeYear isLeap
  by_cases a4 : y % 4 = 0 <;> by_cases a100 : y % 100 = 0 <;> by_cases a400 : y % 400 = 0 <;>
    simp [a4, a100, a400] <;> omega

end Calendar

namespace Date

open Calendar

/-- The month and the day in it (both from 0 for the day) of the day number `n`. -/
def monthAndDay (n : Int) : Nat × Nat :=
  monthFrom (yearOf n) 1 (n - daysBeforeYear (yearOf n)).toNat 11

theorem monthAndDay_bounds (n : Int) :
    1 ≤ (monthAndDay n).1 ∧ (monthAndDay n).1 ≤ 12 ∧
      (monthAndDay n).2 < monthLength (yearOf n) (monthAndDay n).1 := by
  have h := daysBefore_yearOf n
  rw [daysBeforeYear_succ] at h
  have h0 : daysBeforeMonth (yearOf n) (1 - 1) = 0 := rfl
  exact monthFrom_bounds _ 1 _ 11 (by omega) (by omega) (by omega)

def ofDayNumber (n : Int) : Date :=
  ⟨yearOf n, (monthAndDay n).1, (monthAndDay n).2 + 1, (monthAndDay_bounds n).1,
    (monthAndDay_bounds n).2.1, by omega, (monthAndDay_bounds n).2.2⟩

/-- The last date that can be written. -/
def last : Date := ⟨262142, 12, 31, by decide, by decide, by decide, by decide⟩

/-- The date `n` days after `d`, unless it lies beyond the last date. -/
def addDays? (d : Date) (n : Nat) : Option Date :=
  if d.dayNumber + n ≤ last.dayNumber then some (ofDayNumber (d.dayNumber + n)) else none

/-! ## In writing -/

/-- A year in four digits or more. A year before 0 has a minus sign in front, one beyond 9999 a plus
sign. -/
def renderYear (y : Int) : Text :=
  if y < 0 then '-' :: Text.padded 4 y.natAbs
  else if y ≤ 9999 then Text.padded 4 y.natAbs
  else '+' :: Text.ofNat y.natAbs

/-- Year, month and day with hyphens between them. -/
def render (d : Date) : Text :=
  renderYear d.year ++ '-' :: Text.padded 2 d.month ++ '-' :: Text.padded 2 d.day

/-- Ten characters: digits, with hyphens after the fourth and the sixth digit. -/
def isIsoShape : Text → Bool
  | [a, b, c, d, h, e, f, h', g, i] =>
    [a, b, c, d, e, f, g, i].all Char.isDigit && h == '-' && h' == '-'
  | _ => false

/-- Reads ten characters `dddd-dd-dd` that name a day. -/
def readIso? (s : Text) : Option Date :=
  if isIsoShape s then
    ofParts? (Text.valueFrom 0 (s.take 4)) (Text.valueFrom 0 ((s.drop 5).take 2))
      (Text.valueFrom 0 (s.drop 8))
  else none

/-- Reads digits, at least one and at most `width`: their value and the text after them. -/
def readDigits? (width : Nat) (s : Text) : Option (Nat × Text) :=
  let digits := (s.take width).takeWhile Char.isDigit
  if digits = [] then none else some (Text.valueFrom 0 digits, s.drop digits.length)

/-- Reads a year: up to four digits, or any number of digits after a sign. -/
def readYear? (s : Text) : Option (Int × Text) :=
  match s with
  | '+' :: r => (readDigits? r.length r).map fun (n, r) => (n, r)
  | '-' :: r => (readDigits? r.length r).map fun (n, r) => (-n, r)
  | _ => (readDigits? 4 s).map fun (n, r) => (n, r)

/-- Reads a hyphen and up to two digits after it. -/
def readPart? (s : Text) : Option (Nat × Text) :=
  match s with
  | '-' :: r => readDigits? 2 r
  | _ => none

/-- Reads a year, a month and a day, and nothing after them. -/
def readParts? (s : Text) : Option (Int × Nat × Nat) := do
  let (year, s) ← readYear? s
  let (month, s) ← readPart? s
  let (day, s) ← readPart? s
  if s = [] then some (year, month, day) else none

/-- Reads a date in writing, up to the last date that can be written. -/
def read? (s : Text) : Option Date := do
  let (year, month, day) ← readParts? s
  if year ≤ last.year then ofParts? year month day else none

end Date

end Agenda
