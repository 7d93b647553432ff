/-
Lagotto.Source.Adapter — `get_data` as most classes have it, and the two
methods that count related works by day and month (`app/models/source.rb`).

`get_query_url` answers with a URL or, for a work the source cannot be asked
about, with an empty hash, which `get_data` then returns in place of data.
-/
import Mathlib.Data.List.Sort
import Lagotto.Retrieval.PerformGetData

namespace Lagotto

open Interaction

/-! ## Fetching -/

/-- `work.get_url`: whether the work has a URL, after looking it up by the DOI
if need be. What `get_canonical_url` makes of the page stands for the answer. -/
def Work.getUrl (env : Env) (work : Work) : Fetch (Bool × Work) :=
  if present (work.col .canonicalUrl) then .done (true, work)
  else
    match work.doiAsUrl env with
    | none => .done (false, work)
    | some doiUrl =>
      (Fetch.get doiUrl).bind fun
        | .str url =>
          if blank url then .done (false, work)
          else
            Fetch.update work
              { col := fun c => if c = .canonicalUrl then some (some url) else none }
        | _ => .done (false, work)

namespace Source

/-- `get_data`: `none` is the empty hash of a work without a query. -/
def getData (query : Fetch (Option String)) : Fetch Value :=
  query.bind fun
    | none => .done (.hash [])
    | some url =>
      (Fetch.get url).bind fun result =>
        .done (if result.isHash then result else .hash [(.str "data", result)])

/-- What `URI.parse` raises on the empty hash. -/
def badUri : Failure := .other "bad URI(is not URI?): \x7b\x7d"

/-- `get_result(query_url)` of code that does not ask first whether there is a
URL. The empty hash is no URI, and this is rescued like a failed request. -/
def getResult (s : Source) (work : Work) : Option String → Fetch Value
  | some url => Fetch.get url
  | none =>
    (Fetch.alert
      { message := badUri.message "\x7b\x7d", className := badUri.className
        targetUrl := some "\x7b\x7d", status := some badUri.status, level := badUri.level
        sourceId := some s.id, workId := some work.id }).bind fun _ =>
      .done (badUri.result "\x7b\x7d")

/-! ## Counting by day and month -/

/-- The first characters of a timestamp. -/
def leading (n : Nat) (timestamp : String) : String := String.ofList (timestamp.toList.take n)

/-- `key[from..to].to_i`. -/
def part (start length : Nat) (key : String) : Int :=
  (Value.str (String.ofList ((key.toList.drop start).take length))).toI

/-- `{ metrics => n, total: n }`. -/
def countOf (metric : Metric) (n : Int) : Counts :=
  match metric with
  | .total => { total := some n }
  | .pdf => { pdf := some n, total := some n }
  | .html => { html := some n, total := some n }
  | .readers => { readers := some n, total := some n }
  | .comments => { comments := some n, total := some n }
  | .likes => { likes := some n, total := some n }

/-- `group_by { … }.sort` with the number of members of each group. -/
def grouped (keys : List String) : List (String × Int) :=
  (keys.eraseDups.insertionSort (· ≤ ·)).map (fun key => (key, (keys.count key : Int)))

/-- `get_events_by_month`, of the timestamps there are. -/
def getEventsByMonth (metric : Metric) (timestamps : List String) : List MonthItem :=
  (grouped (timestamps.map (leading 7))).map fun (key, n) =>
    { year := part 0 4 key, month := part 5 2 key, counts := countOf metric n }

/-- `Date.iso8601`, of a calendar date. -/
def iso8601? (timestamp : String) : Option Date :=
  match timestamp.toList.take 10 with
  | [y₁, y₂, y₃, y₄, '-', m₁, m₂, '-', d₁, d₂] =>
    if [y₁, y₂, y₃, y₄, m₁, m₂, d₁, d₂].all Char.isDigit then
      Date.civil? (Value.digits [y₁, y₂, y₃, y₄]) (Value.digits [m₁, m₂]) (Value.digits [d₁, d₂])
    else none
  | _ => none

/-- Whether an event is within the days that are counted; it raises if there
is no such date or none of publication. -/
def isEarly (publishedOn : Option Date) (timestamp : String) : Except Raised Bool :=
  match iso8601? timestamp, publishedOn with
  | none, _ => .error ⟨"ArgumentError", "invalid date"⟩
  | _, none => .error ⟨"TypeError", "expected numeric"⟩
  | some date, some publishedOn => .ok (date.daysSince publishedOn ≤ 30)

/-- `get_events_by_day`, of the timestamps there are. -/
def getEventsByDay (metric : Metric) (publishedOn : Option Date) (timestamps : List String) :
    Except Raised (List DayItem) :=
  match timestamps.filterM (isEarly publishedOn) with
  | .error e => .error e
  | .ok early =>
    .ok ((grouped (early.map (leading 10))).map fun (key, n) =>
      { year := part 0 4 key, month := part 5 2 key, day := part 8 2 key
        counts := countOf metric n })

end Source

end Lagotto
