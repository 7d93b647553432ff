/-
Lagotto.Model.Calendar — dates as the models compare and subtract them.

A `Date` carries the proof that it exists, so `Date.new` with a bad month or
day has no value here: `Date.civil?` is the constructor that can fail. The
calendar is the Gregorian one throughout; Ruby switches to the Julian
calendar before 15 October 1582, and `Work` rejects every date before 1650.
-/
import Mathlib.Data.Int.Basic

namespace Lagotto

/-- Seconds since 1970-01-01 00:00:00 UTC, as the datetime columns hold them. -/
abbrev Time := Int

/-- The default of `retrieved_at` and `scheduled_at`. -/
def Time.epoch : Time := 0

def leapYear (year : Int) : Bool :=
  (year % 4 == 0 && year % 100 != 0) || year % 400 == 0

def daysInMonth (year month : Int) : Int :=
  if month = 2 then (if leapYear year then 29 else 28)
  else if month = 4 ∨ month = 6 ∨ month = 9 ∨ month = 11 then 30
  else 31

/-- A day that exists. -/
structure Date where
  year : Int
  month : Int
  day : Int
  valid : 1 ≤ month ∧ month ≤ 12 ∧ 1 ≤ day ∧ day ≤ daysInMonth year month
  deriving DecidableEq

namespace Date

/-- `Date.new(year, month, day)`: a negative month or day counts from the
end, and what does not exist raises `ArgumentError`. -/
def civil? (year month day : Int) : Option Date :=
  let m := if month < 0 then month + 13 else month
  let d := if day < 0 then daysInMonth year m + 1 + day else day
  if h : 1 ≤ m ∧ m ≤ 12 ∧ 1 ≤ d ∧ d ≤ daysInMonth year m then
    some ⟨year, m, d, h⟩
  else
    none

/-- `Date.new(*parts)`: missing parts default to the first day, and no parts
at all give day zero of the Julian period. -/
def ofParts? : List Int → Option Date
  | [] => civil? (-4712) 1 1
  | [year] => civil? year 1 1
  | [year, month] => civil? year month 1
  | year :: month :: day :: _ => civil? year month day

/-- Days since 1970-01-01: the number `Date#-` subtracts. The year is counted
from March, so that the leap day comes last. -/
def toDays (d : Date) : Int :=
  let y := if d.month ≤ 2 then d.year - 1 else d.year
  let era := y / 400
  let yoe := y - era * 400
  let mp := if d.month ≤ 2 then d.month + 9 else d.month - 3
  let doy := (153 * mp + 2) / 5 + d.day - 1
  era * 146097 + (yoe * 365 + yoe / 4 - yoe / 100 + doy) - 719468

/-- `date - other` in days. -/
def daysSince (d other : Date) : Int := d.toDays - other.toDays

end Date

end Lagotto
