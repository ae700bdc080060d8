import Agenda.Calendar.Weekday
import Agenda.Text.Blank
import Agenda.Text.Lowercase
/-!
# Phrases for a day

The phrases that mean a day: `today`, `tomorrow`, `next-week`, a weekday, `next` and a weekday, `in`
so many days or weeks, and a date in figures. All but the last count from the day on which they are
said.
-/
namespace Agenda

/-- What a phrase says about a day. -/
inductive DayPhrase where
  /-- So many days from today. -/
  | later (days : Nat)
  /-- The first such weekday from today on; with `strictly` from tomorrow on. -/
  | weekday (day : Weekday) (strictly : Bool)
  | on (date : Date)
deriving DecidableEq, Repr

namespace DayPhrase

/-- The days in so many of a unit. -/
def unitDays? (unit : Text) : Option Nat :=
  if unit = "day".toList ∨ unit = "days".toList then some 1
  else if unit = "week".toList ∨ unit = "weeks".toList then some 7
  else none

def ofWord? (w : Text) : Option DayPhrase :=
  if w = "today".toList then some (later 0)
  else if w = "tomorrow".toList then some (later 1)
  else if w = "next-week".toList then some (later 7)
  else if Date.isIsoShape w then (Date.readIso? w).map on
  else (Weekday.ofName? w).map (weekday · false)

/-- The phrase of `next` and one more word. -/
def ofNext? (w : Text) : Option DayPhrase :=
  if w = "week".toList then some (later 7) else (Weekday.ofName? w).map (weekday · true)

/-- The phrase of a count and a unit. The days must fit sixty-four bits as the count must. -/
def ofCount? (count unit : Text) : Option DayPhrase := do
  let n ← Text.readWord? count
  let days ← unitDays? unit
  if n * days < Text.wordBound then some (later (n * days)) else none

def ofWords? : List Text → Option DayPhrase
  | [w] => ofWord? w
  | [first, w] => if first = "next".toList then ofNext? w else none
  | [first, count, unit] => if first = "in".toList then ofCount? count unit else none
  | _ => none

/-- The phrase that a text makes, in any case and with any blanks between its words. -/
def read? (s : Text) : Option DayPhrase := ofWords? (Text.words (Text.lower (Text.trim s)))

/-- How many days after `today` the weekday lies. -/
def weekdayDistance (today : Date) (day : Weekday) (strictly : Bool) : Nat :=
  let days := day.daysUntil today.dayNumber
  if strictly && days == 0 then 7 else days

def resolve? (today : Date) : DayPhrase → Option Date
  | later days => today.addDays? days
  | weekday day strictly => today.addDays? (weekdayDistance today day strictly)
  | on date => some date

end DayPhrase

/-- The day that a text means when it is said on `today`. See 4.4 and B.8 of the specification. -/
def Date.ofPhrase? (today : Date) (s : Text) : Option Date :=
  (DayPhrase.read? s).bind (DayPhrase.resolve? today)

end Agenda
