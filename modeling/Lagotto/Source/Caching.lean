/-
Lagotto.Source.Caching — the cached counters of a source
(`app/models/concerns/countable.rb`, `Source#write_cache`).

A counter is cached under the name of the source, its own name and the time
stamp of the run that wrote it. `write_cache` writes the fourteen counters one
after the other and sets `cached_at` last; a reader takes the time stamp from
the `cached_at` it has loaded. Any number of runs and readers take their steps
in any order, and other parts of the application write to the same cache.
Nothing is evicted.

The counters themselves are queries on other tables, `counts` here.
`published` is kept for the record only: the values `write_cache` has set.
-/
import Mathlib.Algebra.Order.Field.Rat
import Lagotto.Model.Calendar
import Lagotto.StateMachine.Threads

namespace Lagotto

open StateMachine

/-- A time with its fraction of a second. -/
structure Instant where
  seconds : Time
  nanoseconds : Nat := 0
  deriving DecidableEq

/-- What a datetime column keeps of it. -/
def Instant.stored (now : Instant) : Instant := { seconds := now.seconds }

/-- The attributes that `write_cache` updates. -/
inductive CachedAttr where
  | eventCount | workCount | queuedCount | staleCount | refreshedCount | responseCount
  | averageCount | maximumCount | withEventsByDayCount | withoutEventsByDayCount
  | notUpdatedByDayCount | withEventsByMonthCount | withoutEventsByMonthCount
  | notUpdatedByMonthCount
  deriving DecidableEq

namespace Source

namespace Cache

/-- What a counter is; an average or maximum of nothing is `nil`. -/
abbrev CounterValues := CachedAttr → Option ℚ

/-- `to_i` -/
def toI : Option ℚ → Int
  | none => 0
  | some value => value.num.tdiv value.den

structure State where
  /-- The column of the source. -/
  cachedAt : Instant
  /-- `Rails.cache`; a key may have the value `nil`. -/
  entries : String → Option (Option ℚ)
  /-- The `cached_at` of the source that a reader has loaded. -/
  loaded : Nat → Option Instant := fun _ => none
  published : List Instant := []

/-- `Rails.cache.write(key, value)` -/
def write (key : String) (value : Option ℚ) (entries : String → Option (Option ℚ)) :
    String → Option (Option ℚ) :=
  fun other => if other = key then some value else entries other

end Cache

open Cache

section

variable (name : String) (iso8601 : Time → String)

/-- `now.utc.iso8601`, which has no fraction. -/
def utcIso8601 (time : Instant) : String := iso8601 time.seconds

/-- `timestamp` -/
def timestamp (cachedAt : Instant) : String := utcIso8601 iso8601 cachedAt

/-! ## `Countable` -/

/-- `cache_write(id, value, time)` -/
def cacheWrite (id : String) (value : Option ℚ) (time : String) :
    (String → Option (Option ℚ)) → String → Option (Option ℚ) :=
  write (name ++ "/" ++ id ++ "/" ++ time) value

/-- The key of `cache_read(id, _)`. -/
def readKey (id : String) (cachedAt : Instant) : String :=
  name ++ "/" ++ id ++ "/" ++ timestamp iso8601 cachedAt

/-- `cache_read(id, value)` -/
def cacheRead (performCaching : Bool) (entries : String → Option (Option ℚ)) (cachedAt : Instant)
    (id : String) (value : Int) : Int :=
  if performCaching then toI (entries (readKey name iso8601 id cachedAt)).join else value

/-- The `id` of `event_count=` and so on. -/
def writerId : CachedAttr → String
  | .eventCount => "event_count"
  | .workCount => "work_count"
  | .queuedCount => "queued_count"
  | .staleCount => "stale_count"
  | .refreshedCount => "refreshed_count"
  | .responseCount => "response_count"
  | .averageCount => "average_count"
  | .maximumCount => "maximum_count"
  | .withEventsByDayCount => "with_events_by_day_count"
  | .withoutEventsByDayCount => "without_events_by_day_count"
  | .notUpdatedByDayCount => "not_updated_by_day_count"
  | .withEventsByMonthCount => "with_events_by_month_count"
  | .withoutEventsByMonthCount => "without_events_by_month_count"
  | .notUpdatedByMonthCount => "not_updated_by_month_count"

/-- The `id` of `event_count` and so on. -/
def readerId : CachedAttr → String
  | .eventCount => "event_count"
  | .workCount => "work_count"
  | .queuedCount => "queued_count"
  | .staleCount => "stale_count"
  | .refreshedCount => "refreshed_count"
  | .responseCount => "response_count"
  | .averageCount => "average_count"
  | .maximumCount => "maximum_count"
  | .withEventsByDayCount => "with_events_by_day_count"
  | .withoutEventsByDayCount => "without_events_by_day_count"
  | .notUpdatedByDayCount => "not_updated_by_day_count"
  | .withEventsByMonthCount => "with_events_by_month_count"
  | .withoutEventsByMonthCount => "without_events_by_month_count"
  | .notUpdatedByMonthCount => "not_updated_by_month_count"

/-- A counter, as it is read. -/
def counter (performCaching : Bool) (entries : String → Option (Option ℚ)) (cachedAt : Instant)
    (counts : CounterValues) (attr : CachedAttr) : Int :=
  cacheRead name iso8601 performCaching entries cachedAt (readerId attr) (toI (counts attr))

/-! ## Steps -/

inductive CacheStep where
  /-- `send("#\x7bcached_attr\x7d=", time)`, with the counter as it is then. -/
  | send (attr : CachedAttr) (value : Option ℚ) (time : String)
  /-- `update_column(:cached_at, now)` -/
  | updateColumn (now : Instant)
  /-- A reader loads the source. -/
  | load (reader : Nat)
  /-- A reader reads a counter. -/
  | read (reader : Nat) (attr : CachedAttr)
  /-- Another part of the application writes to the cache. -/
  | other (key : String) (value : Option ℚ)

/-- The list in `write_cache`. -/
def cachedAttrs : List CachedAttr :=
  [.eventCount, .workCount, .queuedCount, .staleCount, .refreshedCount, .responseCount,
    .averageCount, .maximumCount, .withEventsByDayCount, .withoutEventsByDayCount,
    .notUpdatedByDayCount, .withEventsByMonthCount, .withoutEventsByMonthCount,
    .notUpdatedByMonthCount]

/-- `write_cache` -/
def writeCache (counts : CounterValues) (now : Instant) : List CacheStep :=
  cachedAttrs.map (fun attr => .send attr (counts attr) (utcIso8601 iso8601 now)) ++
    [.updateColumn now]

def applyStep : CacheStep → State → State
  | .send attr value time, s =>
    { s with entries := cacheWrite name (writerId attr) value time s.entries }
  | .updateColumn now, s =>
    { s with cachedAt := now.stored, published := now.stored :: s.published }
  | .load reader, s =>
    { s with loaded := fun other => if other = reader then some s.cachedAt else s.loaded other }
  | .read _ _, s => s
  | .other key value, s => { s with entries := write key value s.entries }

/-- A run of `write_cache`, a reader of some counters, or anything else that
writes to the cache. -/
inductive CacheProcess where
  | writer (counts : CounterValues) (now : Instant)
  | reader (n : Nat) (attrs : List CachedAttr)
  | other (writes : List (String × Option ℚ))

def CacheProcess.steps : CacheProcess → List CacheStep
  | .writer counts now => writeCache iso8601 counts now
  | .reader n attrs => .load n :: attrs.map (.read n)
  | .other writes => writes.map (fun entry => .other entry.1 entry.2)

end

end Source

end Lagotto
