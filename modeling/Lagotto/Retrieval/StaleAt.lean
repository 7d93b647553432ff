/-
Lagotto.Retrieval.StaleAt — when a retrieval status is due again
(`app/models/retrieval_status.rb`, `app/models/concerns/configurable.rb`).

`stale_at` takes one of the four intervals of the source, by the age of the
work, and adds up to a tenth of it by chance. A source that is not queueable
goes by its cron line. The column `queueable` is read nowhere else, so it is
an argument here and not a field of `Source`.

A stored interval is a number of seconds. The defaults are durations of
ActiveSupport: compared or divided they are numbers of seconds as well, with
thirty days to the month, but added to a time they count in days and months
of the calendar, so a month may be as short as 28 days (`nextMonth_far`).
Times are UTC, the application sets no other zone.

`perform_get_data` calls the method while it puts the new values together;
`Moment.staleAt` is what it returns. `staleAt_ge` is the bound below that
everything about dates rests on.
-/
import Mathlib.Tactic.IntervalCases
import Lagotto.Retrieval.PerformGetData
import Lagotto.Source.Configurable

namespace Lagotto

/-! ## Durations -/

namespace Date

/-- `date >> 1`: the same day of the next month, or its last one. -/
def nextMonth (d : Date) : Date :=
  let year := if d.month = 12 then d.year + 1 else d.year
  let month := if d.month = 12 then 1 else d.month + 1
  { year := year
    month := month
    day := min d.day (daysInMonth year month)
    valid := by
      have hvalid := d.valid
      have hdays : 1 ≤ daysInMonth year month := by
        unfold daysInMonth
        split_ifs <;> omega
      refine ⟨?_, ?_, ?_, min_le_right _ _⟩
      · grind
      · grind
      · exact le_min hvalid.2.2.1 hdays }

end Date

/-- An interval as a source has it. -/
inductive Duration where
  | seconds (n : Int)
  | day
  | month
  deriving DecidableEq, Repr

namespace Duration

/-- `to_i`. -/
def value : Duration → Int
  | seconds n => n
  | day => SourceClass.oneDay
  | month => SourceClass.oneMonth

/-- `now + duration`, where `today` is the date of `now`. -/
def since (now : Time) (today : Date) : Duration → Time
  | seconds n => now + n
  | day => now + 86400
  | month => now + 86400 * today.nextMonth.daysSince today

/-- What it adds at least. -/
def least : Duration → Int
  | seconds n => n
  | day => 86400
  | month => 28 * 86400

end Duration

namespace Source

/-- `staleness`. -/
def staleness (s : Source) : List Duration :=
  [s.config.stalenessWeek.elim .day .seconds, s.config.stalenessMonth.elim .day .seconds,
   s.config.stalenessYear.elim
    (if s.type.stalenessYear = SourceClass.oneMonth then .month else .seconds s.type.stalenessYear)
    .seconds,
   s.config.stalenessAll.elim
    (if s.type.stalenessAll = SourceClass.oneMonth then .month else .seconds s.type.stalenessAll)
    .seconds]

/-- What lies between two updates at least. -/
def leastStaleness (s : Source) (queueable : Bool) : Int :=
  if queueable then (s.staleness.map Duration.least).min?.getD 0 else 0

end Source

/-! ## The method -/

/-- `CronParser.new(line).next(time)` and `rand(n)`, for one call of `stale_at`.
A fraction of a second, which `rand(0)` returns, does not reach the column. -/
structure Chance where
  next : String → Time → Except Raised Time
  rand : Int → Int
  next_after : ∀ line now time, next line now = .ok time → now ≤ time
  rand_nonneg : ∀ n, 0 ≤ rand n

/-- `random_time`. -/
def randomTime (chance : Chance) (now : Time) (today : Date) (duration : Duration) : Time :=
  duration.since now today + chance.rand (duration.value / 10)

/-- The position in `staleness`, by the age of the work in days. A date in the
future is in none of the ranges. -/
def stalenessIndex (ageInDays : Int) : Nat :=
  if 0 ≤ ageInDays ∧ ageInDays ≤ 7 then 0
  else if 8 ≤ ageInDays ∧ ageInDays ≤ 31 then 1
  else if 32 ≤ ageInDays ∧ ageInDays ≤ 365 then 2
  else 3

/-- `stale_at`. -/
def staleAt (chance : Chance) (now : Time) (today : Date) (queueable : Bool) (s : Source)
    (work : Work) : Except Raised Time :=
  if !queueable then chance.next s.cronLine now
  else
    match work.publishedOn with
    | none => .error ⟨"TypeError", "expected numeric"⟩
    | some publishedOn =>
      match s.staleness[stalenessIndex (today.daysSince publishedOn)]? with
      | none => .error ⟨"NoMethodError", "undefined method `/' for nil:NilClass"⟩
      | some duration => .ok (randomTime chance now today duration)

/-! ## Bounds -/

/-- **A month has 28 days at least.** -/
theorem nextMonth_far (d : Date) : 28 ≤ d.nextMonth.daysSince d := by
  obtain ⟨year, month, day, hfirst, hlast, hday, hdays⟩ := d
  -- the days between two dates of known months are a matter of arithmetic
  interval_cases month
  all_goals
    simp [Date.nextMonth, Date.daysSince, Date.toDays, daysInMonth] at hdays ⊢
    omega

theorem Duration.since_ge (duration : Duration) (now : Time) (today : Date) :
    now + duration.least ≤ duration.since now today := by
  cases duration with
  | seconds n => exact le_rfl
  | day => exact le_rfl
  | month =>
    refine Int.add_le_add_left ?_ now
    have := nextMonth_far today
    simp only [least]
    omega

theorem leastStaleness_le {s : Source} {duration : Duration} (h : duration ∈ s.staleness) :
    s.leastStaleness true ≤ duration.least := by
  simp only [Source.leastStaleness, if_true]
  cases hmin : (s.staleness.map Duration.least).min? with
  | none => simp [Source.staleness] at hmin
  | some least => exact (List.min?_eq_some_iff.mp hmin).2 _ (List.mem_map_of_mem h)

theorem randomTime_ge (chance : Chance) (now : Time) (today : Date) (duration : Duration) :
    now + duration.least ≤ randomTime chance now today duration :=
  (duration.since_ge now today).trans
    (Int.le_add_of_nonneg_right (chance.rand_nonneg (duration.value / 10)))

/-- **Nothing is due again before the least interval of its source is over.** -/
theorem staleAt_ge {chance : Chance} {now time : Time} {today : Date} {queueable : Bool}
    {s : Source} {work : Work} (h : staleAt chance now today queueable s work = .ok time) :
    now + s.leastStaleness queueable ≤ time := by
  unfold staleAt at h
  cases queueable with
  | false =>
    have hnext := chance.next_after _ _ _ h
    simpa [Source.leastStaleness] using hnext
  | true =>
    rw [if_neg (by simp)] at h
    split at h
    next => cases h
    next =>
      split at h
      next => cases h
      next duration hduration =>
        cases h
        exact (Int.add_le_add_left (leastStaleness_le (List.mem_of_getElem? hduration)) now).trans
          (randomTime_ge chance now today duration)

end Lagotto
