/-
Lagotto.Report.LineItems — reports on works, and the report that combines them
(`app/models/reports`, `app/models/concerns/reportable`).

Each report asks the database for works and makes a line item of each. The
queries for ALM, PMC and Counter ask for works that are tracked; the one for
Mendeley does not. `AlmCombinedStatsReport` merges the line items of four
reports by the pid of the work. A line item that is not there yet is made with
six zeros and nothing else, and that something is missing in it is seen when
the CSV is written.
-/
import Mathlib.Data.List.Sort
import Lagotto.Model.Schema
import Lagotto.Relational.OrderedHash
import Lagotto.Text.Includes

namespace Lagotto.Report

open Relational

/-! ## Line items -/

/-- What stands in a column. -/
inductive Cell where
  | nil
  | text (s : String)
  | date (d : Date)
  | number (n : Int)
  deriving DecidableEq

/-- `LineItem` -/
abbrev LineItem := OrderedHash String Cell

/-- `inspect`, of a key. -/
def inspect (key : String) : String := "\"" ++ key ++ "\""

/-- `line_item.field(key)` -/
def LineItem.field (item : LineItem) (key : String) : Except Raised Cell :=
  match item.get? key with
  | some cell => .ok cell
  | none => .error ⟨"RuntimeError", "Don't have the key " ++ inspect key ++ ", but know about [" ++
      Text.join ", " (item.keys.map inspect) ++ "]"⟩

/-- `line_item.field("pid")`, of a line item that has a pid. -/
def LineItem.pid (item : LineItem) : Cell := (item.get? "pid").getD .nil

/-- The headers and the rows of a CSV file. -/
abbrev Csv := List String × List (List Cell)

/-- `to_csv` -/
def toCsv (headers : List String) (items : List LineItem) : Except Raised Csv :=
  (items.mapM (fun item => headers.mapM (LineItem.field item))).map (fun rows => (headers, rows))

/-! ## Queries -/

/-- A database with its unique indexes on the pid of a work and on the work and
source of a retrieval status. -/
structure Data where
  db : Db
  pids : ∀ w ∈ db.works.rows, ∀ v ∈ db.works.rows, w.col .pid = v.col .pid → w = v
  statuses : ∀ rs ∈ db.retrievalStatuses.rows, ∀ other ∈ db.retrievalStatuses.rows,
    rs.workId = other.workId → rs.sourceId = other.sourceId → rs = other

/-- `ORDER BY works.published_on ASC`; NULL comes first. -/
def notLater (w v : Work) : Bool :=
  match w.publishedOn, v.publishedOn with
  | none, _ => true
  | some _, none => false
  | some d, some e => d.toDays ≤ e.toDays

namespace Data

variable (data : Data)

/-- The works of a query in their order. -/
def worksWhere (p : Work → Bool) : List Work :=
  (data.db.works.rows.filter p).insertionSort (fun w v => notLater w v = true)

/-- The retrieval status of a work for a source. -/
def status (source : Source) (w : Work) : Option RetrievalStatus :=
  data.db.retrievalStatuses.first (fun rs => rs.workId == w.id && rs.sourceId == source.id)

/-- `MAX(CASE WHEN rs.source_id = … THEN rs.total END)` over the retrieval
statuses of a work. -/
def maxTotal (source : Source) (w : Work) : Option Int :=
  ((data.db.retrievalStatuses.rows.filter
    (fun rs => rs.workId == w.id && rs.sourceId == source.id)).map (·.metrics.total)).max?

/-- `source_model.works`, with the retrieval status each is joined with. -/
def joined (source : Option Source) (p : Work → Bool) : List (Work × RetrievalStatus) :=
  match source with
  | none => []
  | some source =>
    (data.worksWhere p).filterMap (fun w => (data.status source w).map (fun rs => (w, rs)))

end Data

/-- The pid of a work in a column. -/
def pidOf (w : Work) : Cell := (w.col .pid).elim .nil .text

/-! ## `AlmStatsReport` -/

/-- The sources of the report. None is called `pid`: the query has a column of
that name. -/
structure AlmStatsReport where
  sources : List Source
  named : ∀ s ∈ sources, s.name ≠ "pid"

namespace AlmStatsReport

variable (alm : AlmStatsReport) (data : Data)

/-- `headers` -/
def headers : List String := ["pid", "publication_date", "title"] ++ alm.sources.map (·.name)

/-- A column of a row of the query. A source with the name of a column comes
after it. -/
def column (w : Work) (name : String) : Cell :=
  match alm.sources.reverse.find? (fun s => s.name == name) with
  | some s => (data.maxTotal s w).elim .nil .number
  | none =>
    match name with
    | "pid" => pidOf w
    | "published_on" => w.publishedOn.elim .nil .date
    | "title" => w.title.elim .nil .text
    | _ => .nil

/-- `cell || 0` -/
def orZero : Cell → Cell
  | .nil => .number 0
  | cell => cell

/-- `build_line_item_for_result` -/
def buildLineItem (w : Work) : LineItem :=
  alm.sources.foldl (fun item s => item.set s.name (orZero (alm.column data w s.name)))
    (((OrderedHash.empty.set "pid" (alm.column data w "pid")).set "publication_date"
      (alm.column data w "published_on")).set "title" (alm.column data w "title"))

/-- The works of the report. -/
def works : List Work := data.worksWhere (·.tracked)

/-- `line_items` -/
def lineItems : List LineItem := (works data).map (alm.buildLineItem data)

end AlmStatsReport

/-! ## `PmcReport`, `CounterReport` and `MendeleyReport` -/

/-- The line item of a `SourceReport`. -/
structure UsageItem where
  pid : Cell
  html : Int
  pdf : Int
  total : Int

/-- `build_line_item_for_result` -/
def UsageItem.build (w : Work) (rs : RetrievalStatus) : UsageItem :=
  ⟨pidOf w, rs.metrics.html, rs.metrics.pdf, rs.metrics.total⟩

/-- `SourceReport#line_items` -/
def sourceReport (data : Data) (source : Option Source) : List UsageItem :=
  (data.joined source (·.tracked)).map (fun e => UsageItem.build e.1 e.2)

/-- The line item of a `MendeleyReport`. -/
structure MendeleyItem where
  pid : Cell
  readers : Int
  groups : Int
  total : Int

/-- `groups_value_for` -/
def groupsValueFor (rs : RetrievalStatus) : Int :=
  if 0 < rs.metrics.readers then rs.metrics.total - rs.metrics.readers else 0

/-- The line item of a result. -/
def MendeleyItem.build (w : Work) (rs : RetrievalStatus) : MendeleyItem :=
  ⟨pidOf w, rs.metrics.readers, groupsValueFor rs, rs.metrics.total⟩

/-- `MendeleyReport#line_items` -/
def mendeleyReport (data : Data) (source : Option Source) : List MendeleyItem :=
  (data.joined source (fun _ => true)).map (fun e => MendeleyItem.build e.1 e.2)

/-! ## `AlmCombinedStatsReport` -/

/-- The reports that are combined, for PMC, Counter and Mendeley with the source
if it is visible. -/
structure AlmCombinedStatsReport where
  alm : AlmStatsReport
  pmc : Option Source
  counter : Option Source
  mendeley : Option Source

namespace AlmCombinedStatsReport

variable (r : AlmCombinedStatsReport) (data : Data)

/-- `headers` -/
def headers : List String :=
  r.alm.headers ++
    ["mendeley_readers", "mendeley_groups", "pmc_html", "pmc_pdf", "counter_html", "counter_pdf"]

/-- The line item of a pid that is not known yet. -/
def defaults : LineItem :=
  ["pmc_html", "pmc_pdf", "counter_html", "counter_pdf", "mendeley_readers",
    "mendeley_groups"].foldl (fun item key => item.set key (.number 0)) OrderedHash.empty

/-- `populate_with_alm`, for a line item; it has all headers of the report. -/
def withAlm (item : LineItem) (line : Option LineItem) : LineItem :=
  r.alm.headers.foldl (fun line header => line.set header ((item.get? header).getD .nil))
    (line.getD defaults)

/-- A line item in which two counts have been set. -/
def withCounts (first second : String) (n m : Int) (line : Option LineItem) : LineItem :=
  ((line.getD defaults).set first (.number n)).set second (.number m)

/-- `populate_with_pmc`, for a line item. -/
def withPmc (item : UsageItem) : Option LineItem → LineItem :=
  withCounts "pmc_html" "pmc_pdf" item.html item.pdf

/-- `populate_with_counter`, for a line item. -/
def withCounter (item : UsageItem) : Option LineItem → LineItem :=
  withCounts "counter_html" "counter_pdf" item.html item.pdf

/-- `populate_with_mendeley`, for a line item. -/
def withMendeley (item : MendeleyItem) : Option LineItem → LineItem :=
  withCounts "mendeley_readers" "mendeley_groups" item.readers item.groups

/-- `line_items_by_pid` -/
def lineItemsByPid : OrderedHash Cell LineItem :=
  (((OrderedHash.empty.alterAll LineItem.pid r.withAlm (r.alm.lineItems data)).alterAll
      UsageItem.pid withPmc (sourceReport data r.pmc)).alterAll
        UsageItem.pid withCounter (sourceReport data r.counter)).alterAll
          MendeleyItem.pid withMendeley (mendeleyReport data r.mendeley)

/-- `line_items` -/
def lineItems : List LineItem := (r.lineItemsByPid data).values

/-- `to_csv` -/
def toCsv : Except Raised Csv := Report.toCsv r.headers (r.lineItems data)

end AlmCombinedStatsReport

end Lagotto.Report
