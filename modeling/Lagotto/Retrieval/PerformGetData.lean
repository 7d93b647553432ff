/-
Lagotto.Retrieval.PerformGetData — `perform_get_data` and `update_data`
(`app/models/retrieval_status.rb`).

The method fetches data through the source's adapter, decides on what
`get_data` returned whether to skip the update, and otherwise parses the
data, stores the works it mentions, its own counts, and the rows of the
months and days. The decision is not taken again after parsing: a hash
without `:events` stands for zeros.

`prepared` is everything up to the point where the retrieval status is
written, `store` the rest.
-/
import Lagotto.Retrieval.Networkable
import Lagotto.Retrieval.Periods
import Lagotto.Retrieval.UpdateWorks

namespace Lagotto

open Interaction
open Relational

/-! ## What adapters return -/

/-- The hash under `:events`. A missing counter counts as 0. -/
structure Events where
  counts : Counts := {}
  eventsUrl : Option String := none
  extra : Value := .nil
  months : List MonthItem := []
  days : List DayItem := []

/-- What `parse_data` returns. A result that is handed through has an `:error`
and no `:works` or `:events`. -/
structure Parsed where
  works : List Item := []
  events : Events := {}
  error : Value := .nil
  status : Value := .nil

/-- `return result`. -/
def Parsed.ofResult (result : Value) : Parsed where
  error := result.get (.sym "error")
  status := result.get (.sym "status")

/-- An `:error` whose `:status`, if there is one, is not 404. -/
def Parsed.carriesError (p : Parsed) : Bool :=
  !p.error.isBlank &&
    match p.status with
    | .int n => n != 404
    | _ => true

/-- The two methods of a source class. Parsing may leave the work changed. -/
structure Adapter where
  getData : Source → Work → Fetch Value
  parseData : Source → Value → Work → Fetch (Parsed × Work)

/-! ## The method -/

/-- What the method reads of clock, chance and process: the time, the value of
`stale_at`, and whether `LOGSTASH_PATH` is set. -/
structure Moment where
  now : Time
  staleAt : Except Raised Time
  logstash : Bool := false

/-- A retrieval status with the source and the work it belongs to. -/
structure Retrieval where
  rs : RetrievalStatus
  source : Source
  work : Work

/-- The hash the method returns. -/
structure Summary where
  total : Int
  html : Int
  pdf : Int
  previousTotal : Int
  skipped : Bool
  updateInterval : Int
  deriving DecidableEq, Repr

/-- `retrieved_days_ago`. -/
def RetrievalStatus.retrievedDaysAgo (rs : RetrievalStatus) (today : Date) : Int :=
  let retrieved := rs.retrievedAt / 86400
  if retrieved = 0 ∨ retrieved = today.toDays then 1 else today.toDays - retrieved

namespace Retrieval

variable (env : Env) (web : Web) (moment : Moment) (adapter : Adapter) (r : Retrieval)

/-- `source.get_data`. -/
def fetched (db : Db) : Except Raised Value × Session :=
  (adapter.getData r.source r.work).run (handle env web r.rs) { db := db }

/-- The data to parse; `none` if the update is skipped. With `LOGSTASH_PATH`
the method fails on a variable that does not exist, and what is not a hash
has no `[:error]`. -/
def toParse (db : Db) : Except Raised (Option Value) × Session :=
  match r.fetched env web adapter db with
  | (.error e, s) => (.error e, s)
  | (.ok data, s) =>
    if moment.logstash then
      (.error ⟨"NameError", "undefined local variable or method `result'"⟩, s)
    else if !data.isHash then
      (.error ⟨"TypeError", "no implicit conversion of Symbol into Integer"⟩, s)
    else if data.carriesError then (.ok none, s)
    else (.ok (some data), s)

/-- `source.parse_data`. -/
def parsed (db : Db) : Except Raised (Option (Parsed × Work)) × Session :=
  match r.toParse env web moment adapter db with
  | (.error e, s) => (.error e, s)
  | (.ok none, s) => (.ok none, s)
  | (.ok (some data), s) =>
    match (adapter.parseData r.source data r.work).run (handle env web r.rs) s with
    | (.error e, s) => (.error e, s)
    | (.ok result, s) => (.ok (some result), s)

/-- `update_works`. -/
def prepared (db : Db) : Except Raised (Option (Parsed × Work)) × Db :=
  match r.parsed env web moment adapter db with
  | (.error e, s) => (.error e, s.db)
  | (.ok none, s) => (.ok none, s.db)
  | (.ok (some result), s) =>
    match updateWorks env result.1.works s.db with
    | (.error e, db) => (.error e, db)
    | (.ok (), db) => (.ok (some result), db)

/-- The attributes `update_data` assigns. -/
def assigned (staleAt : Time) (events : Events) : RetrievalStatus :=
  { r.rs with
    retrievedAt := moment.now
    scheduledAt := staleAt
    queuedAt := none
    metrics := events.counts.fetch
    eventsUrl := events.eventsUrl
    extra := events.extra }

/-- `validates_associated :work, :source`. -/
def valid (work : Work) (db : Db) : Bool :=
  (work.errors env (work.others db)).isEmpty && (r.source.errors env.validCron).isEmpty

/-- The months to store; without any, this month's share. -/
def monthItems (rs : RetrievalStatus) (events : Events) (months : Table Month) : List MonthItem :=
  if events.months.isEmpty then [rs.getEventsCurrentMonth env.today (rs.months months)]
  else events.months

/-- The days to store; without any, today's share. -/
def dayItems (rs : RetrievalStatus) (events : Events) (work : Work) (days : Table Day) :
    Except Raised (List DayItem) :=
  if events.days.isEmpty then
    match (work.normalise env).publishedOn with
    | none => .error ⟨"TypeError", "expected numeric"⟩
    | some publishedOn =>
      .ok (rs.getEventsCurrentDay publishedOn env.today (rs.days days)).toList
  else .ok events.days

/-- `update_data`: nothing is raised if the record is not valid, and the
assigned counts stay in memory. -/
def updateData (staleAt : Time) (events : Events) (work : Work) (db : Db) : Db :=
  if r.valid env work db then
    { db with retrievalStatuses := db.retrievalStatuses.put (r.assigned moment staleAt events) }
  else db

def summary (rs : RetrievalStatus) (skipped : Bool) : Summary where
  total := rs.metrics.total
  html := rs.metrics.html
  pdf := rs.metrics.pdf
  previousTotal := r.rs.metrics.total
  skipped := skipped
  updateInterval := r.rs.retrievedDaysAgo env.today

/-- The part of the method that writes. -/
def store (events : Events) (work : Work) (db : Db) : Except Raised Summary × Db :=
  match moment.staleAt with
  | .error e => (.error e, db)
  | .ok staleAt =>
    let rs := r.assigned moment staleAt events
    let db := r.updateData env moment staleAt events work db
    let db := { db with months := rs.updateMonths db.months (monthItems env rs events db.months) }
    match dayItems env rs events work db.days with
    | .error e => (.error e, db)
    | .ok items =>
      (.ok (r.summary env rs false), { db with days := rs.updateDays db.days items })

/-- `perform_get_data`. -/
def performGetData (db : Db) : Except Raised Summary × Db :=
  match r.prepared env web moment adapter db with
  | (.error e, db) => (.error e, db)
  | (.ok none, db) => (.ok (r.summary env r.rs true), db)
  | (.ok (some (parsed, work)), db) => r.store env moment parsed.events work db

end Retrieval

end Lagotto
