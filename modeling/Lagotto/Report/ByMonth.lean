/-
Lagotto.Report.ByMonth — the usage of works month by month
(`source_by_month_report.rb`, `counter_by_month_report.rb`,
`block_registrar.rb`).

The query asks for the months of a source from a starting month on and joins
their works. It groups by the pid of the work, and the other columns are not
aggregated, so the database returns one row of each group. A result becomes a
line item with a column for each month from the starting month to the current
one. Which value of a result is shown is up to the format, and what a format
means to the class of the report.
-/
import Lagotto.Model.Dateable
import Lagotto.Relational.Groups
import Lagotto.Report.LineItems

namespace Lagotto.Report

open Relational

/-! ## The query -/

/-- `"#{date[:year]}-#{date[:month]}"`, and `CONCAT(months.year, '-', months.month)`. -/
def dateKey (date : Int × Int) : String := toString date.1 ++ "-" ++ toString date.2

/-- Works have a pid, and there is at most one row for a work, source and month. -/
structure MonthlyData extends Data where
  present : ∀ w ∈ db.works.rows, w.col .pid ≠ none
  monthly : ∀ m ∈ db.months.rows, ∀ other ∈ db.months.rows, m.workId = other.workId →
    m.sourceId = other.sourceId → m.year = other.year → m.month = other.month → m = other

/-- A row of the query. -/
structure Result where
  work : Work
  row : Month

namespace Result

def date (r : Result) : Int × Int := (r.row.year, r.row.month)

/-- `ORDER BY year, month, works.published_on` -/
def notLater (r other : Result) : Bool :=
  r.row.year < other.row.year || (r.row.year == other.row.year &&
    (r.row.month < other.row.month || (r.row.month == other.row.month &&
      Report.notLater r.work other.work)))

/-- `result.send(name)`, for the names of columns. -/
def send (r : Result) (name : String) : Except Raised Cell :=
  match name with
  | "id" => .ok (.number r.row.id)
  | "pid" => .ok (pidOf r.work)
  | "date_key" => .ok (.text (dateKey r.date))
  | "year" => .ok (.number r.row.year)
  | "month" => .ok (.number r.row.month)
  | "html" => .ok (.number r.row.metrics.html)
  | "pdf" => .ok (.number r.row.metrics.pdf)
  | "total" => .ok (.number r.row.metrics.total)
  | "work_id" | "source_id" | "retrieval_status_id" | "readers" | "comments" | "likes"
  | "created_at" | "updated_at" =>
    .error ⟨"ActiveModel::MissingAttributeError", "missing attribute: " ++ name⟩
  | _ => .error ⟨"NoMethodError", "undefined method `" ++ name ++ "'"⟩

end Result

/-- `Query#execute` before the rows are grouped. -/
def MonthlyData.monthsFrom (data : MonthlyData) (source : Source) (start : Int × Int) :
    List Result :=
  data.db.months.rows.filterMap (fun m =>
    if m.sourceId = source.id ∧
        ((start.1 ≤ m.year ∧ start.2 ≤ m.month) ∨ start.1 < m.year) then
      (data.db.works.first (fun w => w.id == m.workId)).map (fun w => ⟨w, m⟩)
    else none)

/-- `Query#execute` -/
def MonthlyData.execute (data : MonthlyData) (pick : Choice Result) (source : Source)
    (start : Int × Int) : List Result :=
  (oneOfEach pick (fun r => r.work.col .pid) (data.monthsFrom source start)).insertionSort
    (fun r other => r.notLater other = true)

/-! ## Values -/

/-- A block that is called with a result and a format. -/
abbrev ValueProvider := Result → String → Except Raised Cell

/-- `BlockRegistrar`, with a default block. -/
structure BlockRegistrar where
  blocks : OrderedHash String ValueProvider
  defaultBlock : ValueProvider

/-- `registrar[key]` -/
def BlockRegistrar.block (registrar : BlockRegistrar) (key : String) : ValueProvider :=
  (registrar.blocks.get? key).getD registrar.defaultBlock

/-- `register_value_provider_for_format` -/
def BlockRegistrar.register (registrar : BlockRegistrar) (format : String)
    (block : ValueProvider) : BlockRegistrar :=
  { registrar with blocks := registrar.blocks.set format block }

/-- `CounterReport.xml_value_for_result` -/
def xmlValueForResult (r : Result) : Int :=
  r.row.metrics.total - (r.row.metrics.pdf + r.row.metrics.html)

/-- The classes of these reports. -/
inductive ByMonthClass where
  | sourceByMonthReport
  | pmcByMonthReport
  | counterByMonthReport
  deriving DecidableEq

/-- `self.class.name` -/
def ByMonthClass.name : ByMonthClass → String
  | sourceByMonthReport => "SourceByMonthReport"
  | pmcByMonthReport => "PmcByMonthReport"
  | counterByMonthReport => "CounterByMonthReport"

/-- `value_provider_block_registrar` -/
def ByMonthClass.registrar : ByMonthClass → BlockRegistrar
  | sourceByMonthReport | pmcByMonthReport => source
  | counterByMonthReport => source.register "xml" (fun r _ => .ok (.number (xmlValueForResult r)))
where
  source : BlockRegistrar :=
    BlockRegistrar.register ⟨OrderedHash.empty, Result.send⟩ "combined"
      (fun r _ => .ok (.number (r.row.metrics.pdf + r.row.metrics.html)))

/-! ## The report -/

/-- A report for a format, from a starting year and month on. -/
structure SourceByMonthReport where
  reportClass : ByMonthClass
  source : Source
  format : String
  year : Int
  month : Int

namespace SourceByMonthReport

variable (r : SourceByMonthReport) (today : Date)

/-- `@dates` -/
def dates : List (Int × Int) :=
  Dateable.dateRange r.reportClass.name (Dateable.ofDate today) (.int r.year) (.int r.month)

/-- `@dates.first` -/
def start : Int × Int := (r.dates today).headD (today.year, today.month)

/-- `formatted_dates` -/
def formattedDates : List String := (r.dates today).map dateKey

/-- `headers` -/
def headers : List String := ["pid"] ++ r.formattedDates today

/-- `value_provider.call(result, @format)` -/
def value (result : Result) : Except Raised Cell :=
  r.reportClass.registrar.block r.format result r.format

/-- A result as a key of a hash: records are the same if their ids are. -/
def recordId (e : Result × Cell) : Nat := e.1.row.id

/-- `results_nested[result][result.date_key] = value` -/
def nest (e : Result × Cell) (old : Option (Result × OrderedHash String Cell)) :
    Result × OrderedHash String Cell :=
  let entry := old.getD (e.1, OrderedHash.empty)
  (entry.1, entry.2.set (dateKey e.1.date) e.2)

/-- `results_nested`, of the results with their values. -/
def resultsNested (valued : List (Result × Cell)) :
    OrderedHash Nat (Result × OrderedHash String Cell) :=
  OrderedHash.empty.alterAll recordId nest valued

/-- The line item of a result. -/
def buildLineItem (entry : Result × OrderedHash String Cell) : LineItem :=
  (r.formattedDates today).foldl
    (fun item key => item.set key (AlmStatsReport.orZero ((entry.2.get? key).getD .nil)))
    (OrderedHash.empty.set "pid" (pidOf entry.1.work))

/-- `line_items` -/
def lineItems (data : MonthlyData) (pick : Choice Result) : Except Raised (List LineItem) :=
  ((data.execute pick r.source (r.start today)).mapM
    (fun result => (r.value result).map (fun cell => (result, cell)))).map
      (fun valued => (resultsNested valued).values.map (r.buildLineItem today))

end SourceByMonthReport

end Lagotto.Report
