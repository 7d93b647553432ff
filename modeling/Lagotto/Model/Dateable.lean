/-
Lagotto.Model.Dateable — the months from a starting month on
(`app/models/concerns/dateable.rb`).

`date_range` goes through all days from the first of the starting month to
today and keeps the months they are in. Sources for which it is the previous
month that counts go back from today by a month, which may be a shorter one.

Ruby's calendar drops ten days in October 1582. It is `civil` here; `gregorian`
is the calendar of `Date`. The months of a range do not depend on it:
`dateRange_of_start`.
-/
import Lagotto.Calendars.Days
import Lagotto.Model.Calendar
import Lagotto.Model.Value

namespace Lagotto.Dateable

open Calendars

/-! ## Months -/

/-- Months are counted from January of the year 0. -/
def monthNumber (year month : Int) : Int := 12 * year + (month - 1)

/-- The year and the month with a number. -/
def ofMonthNumber (n : Int) : Int × Int := (n / 12, n % 12 + 1)

theorem ofMonthNumber_monthNumber {year month : Int} (h : 1 ≤ month ∧ month ≤ 12) :
    ofMonthNumber (monthNumber year month) = (year, month) := by
  unfold ofMonthNumber monthNumber
  have hyear : (12 * year + (month - 1)) / 12 = year := by omega
  have hmonth : (12 * year + (month - 1)) % 12 + 1 = month := by omega
  rw [hyear, hmonth]

theorem monthNumber_ofMonthNumber (n : Int) :
    monthNumber (ofMonthNumber n).1 (ofMonthNumber n).2 = n ∧
      1 ≤ (ofMonthNumber n).2 ∧ (ofMonthNumber n).2 ≤ 12 := by
  unfold ofMonthNumber monthNumber
  simp only
  omega

theorem ofMonthNumber_injective : Function.Injective ofMonthNumber := by
  intro n m h
  rw [← (monthNumber_ofMonthNumber n).1, h, (monthNumber_ofMonthNumber m).1]

/-! ## Calendars -/

/-- The days of a month in Ruby's `Date`: Julian until 4 October 1582, which
is followed by the 15th. -/
def daysOf (year month : Int) : List Int :=
  if year = 1582 ∧ month = 10 then interval 1 4 ++ interval 15 31
  else if monthNumber year month < monthNumber 1582 10 ∧ month = 2 then
    interval 1 (if year % 4 = 0 then 29 else 28)
  else interval 1 (daysInMonth year month)

theorem daysInMonth_pos (year month : Int) : 1 ≤ daysInMonth year month := by
  unfold daysInMonth
  split
  · split <;> omega
  · split <;> omega

theorem one_mem_daysOf (year month : Int) : 1 ∈ daysOf year month := by
  have hpos := daysInMonth_pos year month
  unfold daysOf
  split
  · decide
  · split
    · rw [mem_interval]
      split <;> omega
    · rw [mem_interval]
      omega

theorem one_le_of_mem_daysOf {year month day : Int} (h : day ∈ daysOf year month) : 1 ≤ day := by
  unfold daysOf at h
  split at h
  · rw [List.mem_append, mem_interval, mem_interval] at h
    omega
  · split at h
    · exact (mem_interval.mp h).1
    · exact (mem_interval.mp h).1

/-- The calendar of Ruby's `Date`. -/
def civil : Calendar where
  days n := daysOf (ofMonthNumber n).1 (ofMonthNumber n).2
  first _ := one_mem_daysOf ..
  least _ _ h := one_le_of_mem_daysOf h

/-- The calendar of `Lagotto.Date`. -/
def gregorian : Calendar where
  days n := interval 1 (daysInMonth (ofMonthNumber n).1 (ofMonthNumber n).2)
  first _ := mem_interval.mpr ⟨Int.le_refl 1, daysInMonth_pos ..⟩
  least _ _ h := (mem_interval.mp h).1

/-- A date as a day of its month. -/
def ofDate (date : Date) : Day gregorian where
  month := monthNumber date.year date.month
  day := date.day
  valid := by
    have hmonth : ofMonthNumber (monthNumber date.year date.month) = (date.year, date.month) :=
      ofMonthNumber_monthNumber ⟨date.valid.1, date.valid.2.1⟩
    show date.day ∈ interval 1 _
    rw [hmonth, mem_interval]
    exact ⟨date.valid.2.2.1, date.valid.2.2.2⟩

/-! ## `date_range` -/

variable {cal : Calendar}

/-- `{ month: date.month, year: date.year }`, with the year before the month. -/
def yearMonth (d : Day cal) : Int × Int := ofMonthNumber d.month

/-- `end_date`, for the class of the receiver. -/
def endDate (className : String) (now : Day cal) : Day cal :=
  if className = "Pmc" then now.monthBefore else now

/-- `Date.new(year, month, 1)`: a negative month counts from the end of the
year, and what does not exist raises `ArgumentError`. -/
def startDate (cal : Calendar) (year month : Int) : Option (Day cal) :=
  let m := if month < 0 then month + 13 else month
  if 1 ≤ m ∧ m ≤ 12 then some (Day.firstOf cal (monthNumber year m)) else none

/-- `(start_date..end_date).map { … }.uniq` -/
def monthsUpTo (last first : Day cal) : List (Int × Int) :=
  ((Day.upTo last (Day.left last first) first).map yearMonth).eraseDups

/-- `date_range(month: month, year: year)` at the date `now`. -/
def dateRange (className : String) (now : Day cal) (year month : Value) : List (Int × Int) :=
  let last := endDate className now
  if month.truthy && year.truthy then
    match startDate cal year.toI month.toI with
    | none => [yearMonth last]
    | some first => monthsUpTo last (if last.before first then last else first)
  else [yearMonth last]

theorem month_endDate (className : String) (now : Day cal) :
    (endDate className now).month = if className = "Pmc" then now.month - 1 else now.month := by
  unfold endDate
  split <;> rfl

theorem monthsUpTo_eq {last first : Day cal} (h : last.before first = false) :
    monthsUpTo last first = (interval first.month last.month).map ofMonthNumber :=
  months_upTo ofMonthNumber_injective h (Nat.le_refl _)

theorem before_self (d : Day cal) : d.before d = false := by
  simp [Day.before]

/-- The first of a month is later than a day exactly if the month is. -/
theorem before_firstOf_iff {d : Day cal} {month : Int} :
    d.before (Day.firstOf cal month) = true ↔ d.month < month := by
  have hleast := cal.least d.month d.day d.valid
  rw [Day.before_iff]
  simp only [Day.firstOf]
  omega

/-- The range from a month that exists. -/
theorem monthsUpTo_clamped (last : Day cal) (month : Int) :
    monthsUpTo last (if last.before (Day.firstOf cal month) then last
        else Day.firstOf cal month) =
      (interval (min month last.month) last.month).map ofMonthNumber := by
  split
  next h =>
    have hlt := before_firstOf_iff.mp h
    rw [monthsUpTo_eq (before_self last), min_eq_right (Int.le_of_lt hlt)]
  next h =>
    have hle : month ≤ last.month := by
      rw [before_firstOf_iff] at h
      omega
    rw [monthsUpTo_eq (by simpa using h), min_eq_left hle]
    rfl

/-- A number that is not zero was given. -/
theorem truthy_of_toI {v : Value} (h : v.toI ≠ 0) : v.truthy = true := by
  cases v with
  | nil => exact absurd rfl h
  | bool b => exact absurd rfl h
  | int n => rfl
  | float x => rfl
  | str s => rfl
  | arr items => rfl
  | hash entries => rfl

/-- A start that is no date. -/
theorem dateRange_of_none {className : String} {now : Day cal} {year month : Value}
    (hstart : startDate cal year.toI month.toI = none) :
    dateRange className now year month = [ofMonthNumber (endDate className now).month] := by
  simp only [dateRange, hstart]
  split <;> rfl

theorem dateRange_of_start {className : String} {now first : Day cal} {year month : Value}
    (hgiven : (month.truthy && year.truthy) = true)
    (hstart : startDate cal year.toI month.toI = some first) :
    dateRange className now year month =
      (interval (min first.month (endDate className now).month)
        (endDate className now).month).map ofMonthNumber := by
  obtain ⟨m, rfl⟩ : ∃ m, first = Day.firstOf cal m := by
    unfold startDate at hstart
    simp only at hstart
    generalize (if month.toI < 0 then month.toI + 13 else month.toI) = m at hstart
    split at hstart
    · exact ⟨_, (Option.some.inj hstart).symm⟩
    · cases hstart
  simp only [dateRange, hgiven, if_true, hstart]
  exact monthsUpTo_clamped _ m

/-- From a starting year and month on, `date_range` has the months up to the
current one, or up to the one before it for PMC, in order and without gaps or
repetitions. If the start lies behind the last month, it is the last month
alone. -/
theorem date_range_consecutive (className : String) (now : Day cal) {year month : Value}
    (hyear : 1 ≤ year.toI) (hmonth : 1 ≤ month.toI ∧ month.toI ≤ 12) :
    dateRange className now year month =
      let first := monthNumber year.toI month.toI
      let last := if className = "Pmc" then now.month - 1 else now.month
      if first ≤ last then (interval first last).map ofMonthNumber else [ofMonthNumber last] := by
  have hgiven : (month.truthy && year.truthy) = true := by
    rw [truthy_of_toI (by omega), truthy_of_toI (by omega)]
    rfl
  have hstart : startDate cal year.toI month.toI =
      some (Day.firstOf cal (monthNumber year.toI month.toI)) := by
    have hpos : ¬ month.toI < 0 := by omega
    unfold startDate
    simp only [if_neg hpos, if_pos hmonth]
  rw [dateRange_of_start hgiven hstart, month_endDate]
  simp only [Day.firstOf]
  generalize (if className = "Pmc" then now.month - 1 else now.month) = last
  split
  next h => rw [min_eq_left h]
  next h => rw [min_eq_right (by omega), interval_self, List.map_singleton]

/-- On the last day of March, PMC has data up to February. -/
theorem pmc_range_in_march :
    dateRange "Pmc" (⟨monthNumber 2015 3, 31, by decide⟩ : Day civil) (.str "2014") (.str "11") =
      [(2014, 11), (2014, 12), (2015, 1), (2015, 2)] :=
  (date_range_consecutive "Pmc" _ (by decide) (by decide)).trans (by decide)

end Lagotto.Dateable
