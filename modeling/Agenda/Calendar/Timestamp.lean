import Agenda.Calendar.Date
/-!
# Timestamps

A local date and time of day with its distance from universal time, as RFC 3339 writes it.
-/
namespace Agenda

structure Timestamp where
  /-- The local date. -/
  date : Date
  hour : Nat
  minute : Nat
  /-- Up to 60, for a leap second. -/
  second : Nat
  nanosecond : Nat
  /-- Minutes that the clock is ahead of universal time. -/
  offset : Int
deriving DecidableEq, Repr

namespace Timestamp

/-! ## Reading -/

/-- Two digits that spell a number up to `limit`. -/
def twoDigits? (limit : Nat) : Text → Option (Nat × Text)
  | a :: b :: r =>
    if a.isDigit && b.isDigit && Text.valueFrom 0 [a, b] ≤ limit then
      some (Text.valueFrom 0 [a, b], r)
    else none
  | _ => none

def expect? (cs : List Char) : Text → Option Text
  | c :: r => if cs.contains c then some r else none
  | [] => none

/-- Nanoseconds from the digits of a fraction; what lies beyond the ninth is dropped, and zeros
stand in for what is missing up to there. -/
def nanosOfDigits (digits : Text) : Nat :=
  let nine := digits.take 9
  Text.valueFrom 0 (nine ++ List.replicate (9 - nine.length) '0')

def fraction? : Text → Option (Nat × Text)
  | '.' :: r =>
    let digits := r.takeWhile Char.isDigit
    if digits = [] then none else some (nanosOfDigits digits, r.dropWhile Char.isDigit)
  | s => some (0, s)

/-- The distance from universal time, which ends the text. -/
def offset? : Text → Option Int
  | [c] => if c = 'Z' ∨ c = 'z' then some 0 else none
  | c :: r => do
    let (h, r) ← twoDigits? 23 r
    let (m, r) ← twoDigits? 59 (r.dropWhile (· == ':'))
    if r ≠ [] then none
    else if c = '+' then some (h * 60 + m)
    else if c = '-' ∨ c = '−' then some (-(h * 60 + m))
    else none
  | [] => none

def read? (s : Text) : Option Timestamp := do
  let date ← Date.readIso? (s.take 10)
  let r ← expect? ['T', 't', ' '] (s.drop 10)
  let (hour, r) ← twoDigits? 23 r
  let r ← expect? [':'] r
  let (minute, r) ← twoDigits? 59 r
  let r ← expect? [':'] r
  let (second, r) ← twoDigits? 60 r
  let (nanosecond, r) ← fraction? r
  let offset ← offset? r
  return ⟨date, hour, minute, second, nanosecond, offset⟩

/-! ## Writing -/

/-- A fraction in three, six or nine digits, as many as it needs, or none. -/
def renderFraction (nanos : Nat) : Text :=
  if nanos = 0 then []
  else if nanos % 1000000 = 0 then '.' :: Text.padded 3 (nanos / 1000000)
  else if nanos % 1000 = 0 then '.' :: Text.padded 6 (nanos / 1000)
  else '.' :: Text.padded 9 nanos

/-- `Z` at universal time, otherwise the sign, hours and minutes of the distance. -/
def renderOffset (offset : Int) : Text :=
  if offset = 0 then ['Z']
  else
    (if offset < 0 then '-' else '+') :: Text.padded 2 (offset.natAbs / 60)
      ++ ':' :: Text.padded 2 (offset.natAbs % 60)

def render (t : Timestamp) : Text :=
  t.date.render ++ 'T' :: Text.padded 2 t.hour ++ ':' :: Text.padded 2 t.minute
    ++ ':' :: Text.padded 2 t.second ++ renderFraction t.nanosecond ++ renderOffset t.offset

end Timestamp

end Agenda
