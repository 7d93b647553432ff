/-
Lagotto.Retrieval.Periods — the month and day rows of a retrieval status
(`app/models/retrieval_status.rb`).

`update_months` and `update_days` store a breakdown a source returned.
Where a source has only cumulative counts, `get_events_current_month` and
`get_events_current_day` compute this period's share from the last row
stored. Month and day are the same code over different keys, so each pair is
one definition here (`eventsPrevious`, and `Table.firstOrCreateAll`
underneath the two updates), and the source's functions are its instances.
-/
import Mathlib.Data.List.Sort
import Lagotto.Model.Schema

namespace Lagotto

open Relational

/-! ## Storing a breakdown -/

/-- An element of `events[:months]`. -/
structure MonthItem where
  year : Int
  month : Int
  counts : Counts := {}
  deriving DecidableEq, Repr

/-- An element of `events[:days]`. -/
structure DayItem where
  year : Int
  month : Int
  day : Int
  counts : Counts := {}
  deriving DecidableEq, Repr

namespace MonthItem

/-- The row is of this item's month: the `where` of `update_months`. -/
def selects (rs : RetrievalStatus) (item : MonthItem) (row : Month) : Bool :=
  row.retrievalStatusId == rs.id && row.month == item.month && row.year == item.year

/-- The row `first_or_create` inserts. -/
def row (rs : RetrievalStatus) (item : MonthItem) : Month where
  retrievalStatusId := rs.id
  workId := rs.workId
  sourceId := rs.sourceId
  year := item.year
  month := item.month
  metrics := item.counts.fetch

end MonthItem

namespace DayItem

/-- The row is of this item's day: the `where` of `update_days`. -/
def selects (rs : RetrievalStatus) (item : DayItem) (row : Day) : Bool :=
  row.retrievalStatusId == rs.id && row.day == item.day && row.month == item.month &&
    row.year == item.year

/-- The row `first_or_create` inserts. -/
def row (rs : RetrievalStatus) (item : DayItem) : Day where
  retrievalStatusId := rs.id
  workId := rs.workId
  sourceId := rs.sourceId
  year := item.year
  month := item.month
  day := item.day
  metrics := item.counts.fetch

end DayItem

namespace RetrievalStatus

/-- `update_months`. -/
def updateMonths (rs : RetrievalStatus) (months : Table Month) (data : List MonthItem) :
    Table Month :=
  months.firstOrCreateAll (MonthItem.selects rs) (MonthItem.row rs) data

/-- `update_days`. -/
def updateDays (rs : RetrievalStatus) (days : Table Day) (data : List DayItem) : Table Day :=
  days.firstOrCreateAll (DayItem.selects rs) (DayItem.row rs) data

end RetrievalStatus

/-! ## The rows in chronological order -/

namespace Month

/-- Lexicographic order of `(year, month)`. -/
def before (a b : Month) : Prop := a.year < b.year ∨ (a.year = b.year ∧ a.month < b.month)

/-- A month that ended before the one `today` is in. -/
def earlier (today : Date) (row : Month) : Bool :=
  row.year < today.year || (row.year == today.year && row.month < today.month)

/-- `[row.year, row.month] == [today.year, today.month]`. -/
def isCurrent (today : Date) (row : Month) : Bool :=
  row.year == today.year && row.month == today.month

instance : DecidableRel before := fun a b => by unfold before; infer_instance

end Month

namespace Day

/-- Lexicographic order of `(year, month, day)`. -/
def before (a b : Day) : Prop :=
  a.year < b.year ∨ (a.year = b.year ∧ (a.month < b.month ∨ (a.month = b.month ∧ a.day < b.day)))

/-- A day before `today`. -/
def earlier (today : Date) (row : Day) : Bool :=
  row.year < today.year || (row.year == today.year &&
    (row.month < today.month || (row.month == today.month && row.day < today.day)))

/-- `[row.year, row.month, row.day] == [today.year, today.month, today.day]`. -/
def isCurrent (today : Date) (row : Day) : Bool :=
  row.year == today.year && row.month == today.month && row.day == today.day

instance : DecidableRel before := fun a b => by unfold before; infer_instance

end Day

namespace RetrievalStatus

/-- `has_many :months` under the default scope `order("year, month")`. -/
def months (rs : RetrievalStatus) (t : Table Month) : List Month :=
  (t.rows.filter (fun row => row.retrievalStatusId == rs.id)).insertionSort
    (fun a b => ¬ Month.before b a)

/-- `has_many :days` under the default scope `order("year, month, day")`. -/
def days (rs : RetrievalStatus) (t : Table Day) : List Day :=
  (t.rows.filter (fun row => row.retrievalStatusId == rs.id)).insertionSort
    (fun a b => ¬ Day.before b a)

end RetrievalStatus

/-! ## Cumulative counts -/

section Cumulative

variable {ρ : Type}

/-- The counters to subtract from the cumulative ones, read off the last row
alone: nothing without a row, this period's record taken back out if the row
is this period's, the row's own counters otherwise. -/
def eventsPrevious (cumulative : Metrics) (isCurrent : ρ → Bool) (metrics : ρ → Metrics)
    (rows : List ρ) : Metrics :=
  match rows.getLast? with
  | none => {}
  | some row => if isCurrent row then cumulative - metrics row else metrics row

end Cumulative

namespace RetrievalStatus

/-- `get_events_previous_month`; `months` is `self.months`. -/
def getEventsPreviousMonth (rs : RetrievalStatus) (today : Date) (months : List Month) : Metrics :=
  eventsPrevious rs.metrics (Month.isCurrent today) Month.metrics months

/-- `get_events_current_month`. -/
def getEventsCurrentMonth (rs : RetrievalStatus) (today : Date) (months : List Month) :
    MonthItem where
  year := today.year
  month := today.month
  counts := (rs.metrics - rs.getEventsPreviousMonth today months).toCounts

/-- `get_events_previous_day`; `days` is `self.days`. -/
def getEventsPreviousDay (rs : RetrievalStatus) (today : Date) (days : List Day) : Metrics :=
  eventsPrevious rs.metrics (Day.isCurrent today) Day.metrics days

/-- `get_events_current_day`: daily events are only kept for the first 30 days
after publication. -/
def getEventsCurrentDay (rs : RetrievalStatus) (publishedOn today : Date) (days : List Day) :
    Option DayItem :=
  if today.daysSince publishedOn > 30 then none
  else
    some
      { year := today.year
        month := today.month
        day := today.day
        counts := (rs.metrics - rs.getEventsPreviousDay today days).toCounts }

end RetrievalStatus

end Lagotto
