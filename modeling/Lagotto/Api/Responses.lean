/-
Lagotto.Api.Responses — what the endpoints answer: the works of v6, v5 and v3,
events and months.

A response is the data the view puts into the JSON. Everything a view shows of
a work or a retrieval status is here, also what does not depend on metrics, so
that two responses are equal only if nothing in them differs. Fragment caches
and `fresh_when` are left out.

The client is admin or staff, or not. v6 and v5 pass that to
`Source.accessible`, v3 asks for `private = false`, and the months do not ask.
-/
import Lagotto.Api.Works
import Lagotto.Relational.Pages
import Mathlib.Algebra.Ring.Int.Defs

namespace Lagotto.Api

open Relational

/-! ## Pages -/

/-- `params[:per_page] && (low..high).include?(…) ? … : high` -/
def perPage (low high : Nat) (param : Option Int) : Nat :=
  match param with
  | some n => if (low : Int) ≤ n ∧ n ≤ high then n.toNat else high
  | none => high

/-- `WillPaginate::PageNumber` -/
def pageNumber (param : Option Int) : Except ApiError Nat :=
  if param.getD 1 < 1 then .error .invalidPage else .ok (param.getD 1).toNat

/-- A list of results, with what is said about it. -/
structure Listing (α : Type) where
  total : Nat
  totalPages : Nat
  page : Nat
  results : List α

/-- `paginate`, and the `meta` of v6. -/
def paginate {α β : Type} (per : Nat) (param : Option Int) (total : Option Nat) (all : List α)
    (view : α → β) : Except ApiError (Listing β) :=
  (pageNumber param).map (fun page =>
    let total := total.getD all.length
    { total
      totalPages := if per = 0 then 1 else totalPages per total
      page := if total = 0 then 1 else page
      results := (pageOf per page all).map view })

/-! ## Retrieval statuses -/

/-- `sum(total)` and so on. -/
def sumMetrics (rows : List Metrics) : Metrics where
  total := (rows.map (·.total)).sum
  pdf := (rows.map (·.pdf)).sum
  html := (rows.map (·.html)).sum
  readers := (rows.map (·.readers)).sum
  comments := (rows.map (·.comments)).sum
  likes := (rows.map (·.likes)).sum

/-- The groups of a list by a key, in the order of the keys. -/
def grouped {κ : Type} [DecidableEq κ] (le : κ → κ → Prop) [DecidableRel le]
    (rows : List (κ × Metrics)) : List (κ × Metrics) :=
  ((rows.map Prod.fst).dedup.insertionSort le).map (fun key =>
    (key, sumMetrics ((rows.filter (fun row => row.1 = key)).map Prod.snd)))

namespace Site

/-- `by_day` -/
def byDay (site : Site) (rs : RetrievalStatus) : List (Int × Int × Int × Metrics) :=
  (rs.days site.days).map (fun row => (row.year, row.month, row.day, row.metrics))

/-- `by_month` -/
def byMonth (site : Site) (rs : RetrievalStatus) : List (Int × Int × Metrics) :=
  (rs.months site.months).map (fun row => (row.year, row.month, row.metrics))

/-- `by_year` -/
def byYear (site : Site) (rs : RetrievalStatus) : List (Int × Metrics) :=
  grouped (· ≤ ·) ((site.byMonth rs).map (fun row => (row.1, row.2.2)))

/-- `sources.pluck(:name, …)` of a work: the retrieval statuses with their
sources. -/
def signposts (site : Site) (work : Work) : List (Source × RetrievalStatus) :=
  (site.statusesOf work).filterMap (fun rs => (site.findSource rs.sourceId).map (·, rs))

/-- `event_count` -/
def eventCount (site : Site) (work : Work) (name : String) : Int :=
  (site.signposts work).foldl
    (fun sum signpost => if signpost.1.name = name then signpost.2.metrics.total else sum) 0

/-- `event_counts` -/
def eventCounts (site : Site) (work : Work) (names : List String) : Int :=
  (names.map (site.eventCount work)).sum

end Site

/-- `ENV[…] ? ENV[…].split(",") : default` -/
def namesFrom (setting : Option String) (default : List String) : List String :=
  match setting with
  | some text => splitComma text
  | none => default

namespace Settings

def viewedNames (cfg : Settings) : List String := namesFrom cfg.viewed ["pmc", "counter"]

def discussedNames (cfg : Settings) : List String :=
  namesFrom cfg.discussed ["facebook", "twitter", "twitter_search"]

def savedNames (cfg : Settings) : List String := namesFrom cfg.saved ["citeulike", "mendeley"]

def citedName (cfg : Settings) : String := cfg.cited.getD "crossref"

end Settings

/-- `views`, `shares`, `bookmarks` and `citations`: over all sources. -/
structure Signposts where
  views : Int
  shares : Int
  bookmarks : Int
  citations : Int
  deriving DecidableEq

def Site.counts (cfg : Settings) (site : Site) (work : Work) : Signposts where
  views := site.eventCounts work cfg.viewedNames
  shares := site.eventCounts work cfg.discussedNames
  bookmarks := site.eventCounts work cfg.savedNames
  citations := site.eventCount work cfg.citedName

/-! ## Works in v6 -/

namespace V6

/-- `csl.present? ? csl[key] : nil` -/
def cslField (work : Work) (key : String) : Value :=
  if work.csl.isBlank then .nil else work.csl.get (.str key)

/-- `Hash[*pairs.flatten]`: a later value takes the place of an earlier one. -/
def toHash {α : Type} (pairs : List (String × α)) : List (String × α) :=
  pairs.foldl (fun hash pair =>
    if hash.any (fun entry => entry.1 = pair.1) then
      hash.map (fun entry => if entry.1 = pair.1 then pair else entry)
    else hash ++ [pair]) []

/-- `events` of the decorator. -/
def events (staff : Bool) (site : Site) (work : Work) : List (String × Int) :=
  let filteredSources :=
    (site.sources.rows.filter (fun s => site.accessible staff s.id)).map (·.name)
  (toHash ((site.signposts work).map (fun signpost =>
    (signpost.1.name, signpost.2.metrics.total)))).filter
      (fun entry => filteredSources.contains entry.1 && decide (0 < entry.2))

structure WorkView where
  id : Option String
  publisherId : Option Int
  author : Value
  title : Option String
  issued : List Int
  containerTitle : Value
  volume : Value
  page : Value
  issue : Value
  doi : Option String
  url : Option String
  pmid : Option String
  pmcid : Option String
  arxiv : Option String
  scp : Option String
  wos : Option String
  ark : Option String
  events : List (String × Int)
  timestamp : Time

def workView (staff : Bool) (site : Site) (work : Work) : WorkView where
  id := work.col .pid
  publisherId := work.publisherId
  author := cslField work "author"
  title := work.title
  issued := [work.year, work.month, work.day].filterMap (fun part => part)
  containerTitle := cslField work "container-title"
  volume := cslField work "volume"
  page := cslField work "page"
  issue := cslField work "issue"
  doi := work.col .doi
  url := work.col .canonicalUrl
  pmid := work.col .pmid
  pmcid := work.col .pmcid
  arxiv := work.col .arxiv
  scp := work.col .scp
  wos := work.col .wos
  ark := work.col .ark
  events := events staff site work
  timestamp := site.workUpdatedAt work.id

/-- `works#index` -/
def index (cfg : Settings) (staff : Bool) (site : Site) (p : WorksParams) :
    Except ApiError (Listing WorkView) :=
  match selected cfg site p with
  | .error e => .error e
  | .ok works =>
    paginate (perPage 0 1000 p.perPage) p.page (total cfg site p) works (workView staff site)

/-- The error of `load_work`. -/
def loadError : LoadError → ApiError
  | .recordNotFound => .recordNotFound "ActiveRecord::RecordNotFound"
  | .raised message => .raised message

/-- `works#show` -/
def showWork (cfg : Settings) (staff : Bool) (site : Site) (id : Option String) :
    Except ApiError WorkView :=
  match loadWork cfg.toEnv site.works id with
  | .error e => .error (loadError e)
  | .ok work => .ok (workView staff site work)

end V6

/-! ## Works in v5 -/

namespace V5

structure SourceView where
  name : String
  displayName : String
  groupName : String
  eventsUrl : Option String
  byDay : List (Int × Int × Int × Metrics)
  byMonth : List (Int × Int × Metrics)
  byYear : List (Int × Metrics)
  metrics : Metrics
  updateDate : Time
  /-- Only for `info=detail`. -/
  events : Option Value

def sourceView (site : Site) (info : Option String) (source : Source) (rs : RetrievalStatus) :
    SourceView where
  name := source.name
  displayName := source.title
  groupName := site.groupName source.groupId
  eventsUrl := rs.eventsUrl
  byDay := site.byDay rs
  byMonth := site.byMonth rs
  byYear := site.byYear rs
  metrics := rs.metrics
  updateDate := site.statusUpdatedAt rs.id
  events := if info = some "detail" then some rs.extra else none

structure WorkView where
  id : Option String
  title : Option String
  issued : List Int
  publisherId : Option Int
  doi : Option String
  url : Option String
  pmid : Option String
  pmcid : Option String
  scp : Option String
  wos : Option String
  ark : Option String
  counts : Signposts
  updateDate : Time
  /-- Not for `info=summary`, and only for a tracked work. -/
  sources : Option (List SourceView)

/-- `source_ids` of the decorator for v5. -/
def sourceIds (cfg : Settings) (staff : Bool) (site : Site) (sourceId : Option String) : List Nat :=
  ((site.sources.rows.filter (fun s => site.accessible staff s.id)).filter (fun s =>
    sourceId.all (fun name => cfg.same (some s.name) (some name)))).map (·.id)

def workView (cfg : Settings) (staff : Bool) (site : Site) (p : WorksParams) (work : Work) :
    WorkView where
  id := work.col .pid
  title := work.title
  issued := [work.year, work.month, work.day].filterMap (fun part => part)
  publisherId := work.publisherId
  doi := work.col .doi
  url := work.col .canonicalUrl
  pmid := work.col .pmid
  pmcid := work.col .pmcid
  scp := work.col .scp
  wos := work.col .wos
  ark := work.col .ark
  counts := site.counts cfg work
  updateDate := site.workUpdatedAt work.id
  sources :=
    if p.info ≠ some "summary" ∧ work.tracked then
      some (((site.signposts work).filter (fun signpost =>
        (sourceIds cfg staff site p.sourceId).contains signpost.2.sourceId)).map (fun signpost =>
          sourceView site p.info signpost.1 signpost.2))
    else none

/-- `works#index`: v5 counts no page where there is nothing. -/
def index (cfg : Settings) (staff : Bool) (site : Site) (p : WorksParams) :
    Except ApiError (Listing WorkView) :=
  match selected cfg site p with
  | .error e => .error e
  | .ok works =>
    (paginate (perPage 1 50 p.perPage) p.page (total cfg site p) works
      (workView cfg staff site p)).map (fun listing =>
        if listing.total = 0 then { listing with totalPages := 0, page := 0 } else listing)

/-- `works#show`: a record has no `includes`. -/
def showWork (cfg : Settings) (site : Site) (id : Option String) : Except ApiError WorkView :=
  match loadWork cfg.toEnv site.works id with
  | .error e => .error (V6.loadError e)
  | .ok _ => .error .noMethodError

end V5

/-! ## Works in v3 -/

namespace V3

structure OldMetrics where
  pdf : Int
  html : Int
  shares : Int
  groups : Int
  comments : Int
  likes : Int
  citations : Int
  total : Int

/-- `old_metrics` -/
def oldMetrics (m : Metrics) : OldMetrics where
  pdf := m.pdf
  html := m.html
  shares := m.readers
  groups := if 0 < m.readers then m.total - m.readers else 0
  comments := m.comments
  likes := m.likes
  citations := if 0 < m.pdf + m.html + m.readers + m.comments + m.likes then 0 else m.total
  total := m.total

structure SourceView where
  name : String
  displayName : String
  eventsUrl : Option String
  updateDate : Time
  metrics : OldMetrics
  /-- For `info=detail` and `info=event`. -/
  events : Option Value

def sourceView (site : Site) (info : Option String) (source : Source) (rs : RetrievalStatus) :
    SourceView where
  name := source.name
  displayName := source.title
  eventsUrl := rs.eventsUrl
  updateDate := site.statusUpdatedAt rs.id
  metrics := oldMetrics rs.metrics
  events := if info = some "detail" ∨ info = some "event" then some rs.extra else none

structure WorkView where
  doi : Option String
  title : Option String
  url : Option String
  mendeley : Option String
  pmid : Option String
  pmcid : Option String
  publicationDate : Option Date
  updateDate : Time
  counts : Signposts
  /-- Not for `info=summary`. -/
  sources : Option (List SourceView)

structure Params where
  ids : Option String := none
  type : Option String := none
  source : Option String := none
  info : Option String := none

def columns : List (String × Column) := [("doi", .doi), ("pmid", .pmid), ("pmcid", .pmcid)]

/-- `get_source_ids`, by name. -/
def getSourceIds (cfg : Settings) (staff : Bool) (site : Site) (names : Option String) :
    List Nat :=
  ((site.sources.rows.filter (fun s => staff || !site.isPrivate s.id)).filter (fun s =>
    names.all (fun names => (splitComma names).any (fun name =>
      cfg.same (some s.name.toLower) (some name))))).map (·.id)

def workView (cfg : Settings) (site : Site) (info : Option String) (sourceIds : List Nat)
    (work : Work) : WorkView where
  doi := work.col .doi
  title := work.title
  url := work.col .canonicalUrl
  mendeley := site.mendeleyUuid work.id
  pmid := work.col .pmid
  pmcid := work.col .pmcid
  publicationDate := work.publishedOn
  updateDate := site.workUpdatedAt work.id
  counts := site.counts cfg work
  sources :=
    if info = some "summary" then none
    else some (((site.signposts work).filter (fun signpost =>
      sourceIds.contains signpost.2.sourceId)).map (fun signpost =>
        sourceView site info signpost.1 signpost.2))

/-- The works with a retrieval status of one of the sources. -/
def withStatuses (site : Site) (sourceIds : List Nat) (works : List Work) : List Work :=
  works.filter (fun w => (site.statusesOf w).any (fun rs => sourceIds.contains rs.sourceId))

/-- `works#index` -/
def index (cfg : Settings) (staff : Bool) (site : Site) (p : Params) :
    Except ApiError (List WorkView) :=
  let column := typeColumn columns .doi p.type
  let matching : Work → Bool :=
    match p.ids with
    | none => fun w => cfg.same (w.col column) none
    | some ids =>
      let ids := ((splitComma ids).take 50).map (getCleanId cfg)
      fun w => ids.any (fun id => cfg.same (w.col column) (some id))
  let sourceIds := getSourceIds cfg staff site p.source
  let works := withStatuses site sourceIds (site.works.rows.filter matching)
  if works.isEmpty then .error (.recordNotFound "Article not found.")
  else
    .ok ((works.insertionSort (fun a b =>
      site.workUpdatedAt b.id ≤ site.workUpdatedAt a.id)).map (workView cfg site p.info sourceIds))

/-- `works#show` -/
def showWork (cfg : Settings) (staff : Bool) (site : Site) (id : String) (p : Params) :
    Except ApiError WorkView :=
  match getIdHash cfg.toEnv (some id) with
  | .error message => .error (.raised message)
  | .ok none => .error .noMethodError
  | .ok (some (key, value)) =>
    let sourceIds := getSourceIds cfg staff site p.source
    let works := withStatuses site sourceIds
      (site.works.rows.filter (fun w => cfg.same (w.col key) (some value)))
    match works.head? with
    | none => .error (.recordNotFound "Article not found.")
    | some work => .ok (workView cfg site p.info sourceIds work)

end V3

/-! ## Events and months in v6 -/

namespace V6

structure EventsParams where
  workId : Option String := none
  workIds : Option String := none
  sourceId : Option String := none
  publisherId : Option String := none
  sort : Option String := none
  page : Option Int := none
  perPage : Option Int := none

structure EventView where
  sourceId : String
  workId : Option String
  metrics : Metrics
  eventsUrl : Option String
  byDay : List (Int × Int × Int × Metrics)
  byMonth : List (Int × Int × Metrics)
  byYear : List (Int × Metrics)
  timestamp : Time

/-- A retrieval status with what it is joined with. -/
structure Event where
  status : RetrievalStatus
  source : Source
  work : Work

/-- `RetrievalStatus.joins(:source, :work)`: the view needs both. -/
def allEvents (site : Site) : List Event :=
  site.retrievalStatuses.rows.filterMap (fun rs =>
    (site.findSource rs.sourceId).bind (fun source =>
      (site.works.first (fun w => w.id == rs.workId)).map (fun work => ⟨rs, source, work⟩)))

/-- The branches of `events#index`: which events are asked for. -/
def eventsFor (cfg : Settings) (p : EventsParams) : Except ApiError (Event → Bool) :=
  match p.workId with
  | some id =>
    match getIdHash cfg.toEnv (some id) with
    | .error message => .error (.raised message)
    | .ok none => .error .noMethodError
    | .ok (some (field, value)) => .ok (fun e => cfg.same (e.work.col field) (some value))
  | none =>
    match p.workIds with
    | some ids => .ok (fun e =>
        (splitComma ids).any (fun id => cfg.same (e.work.col .pid) (some id)))
    | none =>
      match p.sourceId with
      | some name => .ok (fun e => cfg.same (some e.source.name) (some name))
      | none =>
        match p.publisherId with
        | some id => .ok (fun e => e.work.publisherId == some (Value.toI (.str id)))
        | none => .ok (fun _ => true)

/-- The order of `events#index`. -/
def sortEvents (site : Site) (sort : Option String) (events : List Event) : List Event :=
  match sort with
  | some "created_at" => events.insertionSort (fun a b => a.status.id ≤ b.status.id)
  | some sort =>
    let column : Metric :=
      match sort with
      | "pdf" => .pdf
      | "html" => .html
      | "readers" => .readers
      | "comments" => .comments
      | "likes" => .likes
      | _ => .total
    events.insertionSort (fun a b => b.status.metrics.get column ≤ a.status.metrics.get column)
  | none => events.insertionSort (fun a b =>
      site.statusUpdatedAt b.status.id ≤ site.statusUpdatedAt a.status.id)

def eventView (site : Site) (e : Event) : EventView where
  sourceId := e.source.name
  workId := e.work.col .pid
  metrics := e.status.metrics
  eventsUrl := e.status.eventsUrl
  byDay := site.byDay e.status
  byMonth := site.byMonth e.status
  byYear := site.byYear e.status
  timestamp := site.statusUpdatedAt e.status.id

/-- `events#index` -/
def eventsIndex (cfg : Settings) (staff : Bool) (site : Site) (p : EventsParams) :
    Except ApiError (Listing EventView) :=
  match eventsFor cfg p with
  | .error e => .error e
  | .ok asked =>
    paginate (perPage 0 1000 p.perPage) p.page none
      (sortEvents site p.sort (((allEvents site).filter asked).filter (fun e =>
        site.accessible staff e.source.id))) (eventView site)

structure MonthView where
  sourceId : String
  year : Int
  month : Int
  metrics : Metrics
  deriving DecidableEq

/-- `months#index` -/
def monthsIndex (cfg : Settings) (site : Site) (sourceId : Option String) :
    Except ApiError (List MonthView) :=
  match site.sourceNamed cfg sourceId with
  | none => .error (.recordNotFound "ActiveRecord::RecordNotFound")
  | some source =>
    .ok ((grouped (fun a b : Int × Int => a.1 < b.1 ∨ (a.1 = b.1 ∧ a.2 ≤ b.2))
      ((site.months.rows.filter (fun row => row.sourceId == source.id)).map (fun row =>
        ((row.year, row.month), row.metrics)))).map (fun group =>
          ⟨source.name, group.1.1, group.1.2, group.2⟩))

end V6

end Lagotto.Api
