import Agenda.Calendar.Date
/-!
# Weekdays

The days of the week, their names, and the day of the week of a date. The first day of the year 0
was a Saturday.
-/
namespace Agenda

inductive Weekday where
  | monday
  | tuesday
  | wednesday
  | thursday
  | friday
  | saturday
  | sunday
deriving DecidableEq, Repr

namespace Weekday

def all : List Weekday := [monday, tuesday, wednesday, thursday, friday, saturday, sunday]

/-- The place in the week, Monday being 0. -/
def index : Weekday → Nat
  | monday => 0
  | tuesday => 1
  | wednesday => 2
  | thursday => 3
  | friday => 4
  | saturday => 5
  | sunday => 6

def name : Weekday → Text
  | monday => "monday".toList
  | tuesday => "tuesday".toList
  | wednesday => "wednesday".toList
  | thursday => "thursday".toList
  | friday => "friday".toList
  | saturday => "saturday".toList
  | sunday => "sunday".toList

def shortName (w : Weekday) : Text := w.name.take 3

/-- The weekday with the given name, whole or short, in any case. -/
def ofName? (s : Text) : Option Weekday :=
  all.find? fun w => w.name == Text.asciiLower s || w.shortName == Text.asciiLower s

def indexOfDayNumber (n : Int) : Nat := ((n + 5) % 7).toNat

/-- How many days after the day number `n` the weekday `w` comes next, from 0 to 6. -/
def daysUntil (w : Weekday) (n : Int) : Nat := (w.index + 7 - indexOfDayNumber n) % 7

theorem index_lt (w : Weekday) : w.index < 7 := by cases w <;> decide

end Weekday

end Agenda
