/-
Lagotto.Source.Usage — usage counts of a work month by month, from COUNTER and
PubMed Central (`app/models/sources/counter.rb`, `app/models/sources/pmc.rb`,
`app/models/concerns/measurable.rb`).

Both classes find a list of months in the response. `get_sum` adds up one
count over the list, and `get_events_by_month` makes an item of every element.
The counts are strings, numbers or missing, and each of the two functions
converts them by itself.
-/
import Lagotto.Retrieval.PerformGetData
import Lagotto.Text.Includes

namespace Lagotto

/-! ## `Measurable` -/

namespace Measurable

/-- `value[key]` -/
def index (value : Value) (key : String) : Except Raised Value :=
  match value with
  | .hash _ => .ok (value.get (.str key))
  | .str s => .ok (if Text.includes s key then .str key else .nil)
  | .int _ | .arr _ => .error ⟨"TypeError", "no implicit conversion of String into Integer"⟩
  | .nil | .bool _ | .float _ => .error ⟨"NoMethodError", "undefined method `[]'"⟩

/-- `value.to_i` -/
def toI (value : Value) : Except Raised Int :=
  match value with
  | .bool _ | .arr _ | .hash _ => .error ⟨"NoMethodError", "undefined method `to_i'"⟩
  | _ => .ok value.toI

/-- `item[key].to_i`, or `item[key][nested_key].to_i`. -/
def count (key : String) (item : Value) (nestedKey : Option String := none) :
    Except Raised Int := do
  let value ← index item key
  match nestedKey with
  | none => toI value
  | some nested => do
    let value ← index value nested
    toI value

/-- `get_sum` -/
def getSum (items : List Value) (key : String) (nestedKey : Option String := none) :
    Except Raised Int :=
  items.foldlM (fun sum item => do
    let n ← count key item nestedKey
    pure (sum + n)) 0

end Measurable

open Lagotto.Measurable

/-! ## COUNTER -/

namespace Counter

/-- What is made of an item. A count that is missing is `"0"`. -/
def extraOf (item : Value) : Value :=
  .hash
    [(.str "month", item.fetch (.str "month") .nil),
      (.str "year", item.fetch (.str "year") .nil),
      (.str "pdf_views", item.fetch (.str "get_pdf") (.str "0")),
      (.str "xml_views", item.fetch (.str "get_xml") (.str "0")),
      (.str "html_views", item.fetch (.str "get_document") (.str "0"))]

/-- The block of `get_extra`. -/
def extraItem (item : Value) : Except Raised Value :=
  match item with
  | .hash _ => .ok (extraOf item)
  | .arr _ => .error ⟨"TypeError", "no implicit conversion of String into Integer"⟩
  | _ => .error ⟨"NoMethodError", "undefined method `fetch'"⟩

/-- The items of the response: several, one, or none. -/
def items (result : Value) : List Value :=
  let extra := result.deepFetch (["rest", "response", "results", "item"].map Key.str) .nil
  if extra.isHash then [extra] else extra.toArray

/-- `get_extra` -/
def getExtra (result : Value) : Except Raised (List Value) := (items result).mapM extraItem

/-- The block of `get_events_by_month`. -/
def monthItem (month : Value) : Except Raised MonthItem := do
  let html ← count "html_views" month
  let pdf ← count "pdf_views" month
  let xml ← count "xml_views" month
  let number ← count "month" month
  let year ← count "year" month
  pure { year := year, month := number
         counts := { html := some html, pdf := some pdf, total := some (html + pdf + xml) } }

def getEventsByMonth (extra : List Value) : Except Raised (List MonthItem) := extra.mapM monthItem

/-- `parse_data` -/
def parseData (result : Value) : Except Raised Parsed :=
  if (result.get (.sym "error")).truthy then .ok (.ofResult result)
  else do
    let extra ← getExtra result
    let pdf ← getSum extra "pdf_views"
    let html ← getSum extra "html_views"
    let xml ← getSum extra "xml_views"
    let months ← getEventsByMonth extra
    pure { events :=
            { counts := { pdf := some pdf, html := some html, total := some (pdf + html + xml) }
              extra := .arr extra
              months := months } }

end Counter

/-! ## PubMed Central -/

namespace Pmc

/-- A key as an element of an array; symbols are not told apart there. -/
def keyValue : Key → Value
  | .sym name => .str name
  | .str name => .str name

/-- `Array(result["views"])`: the entries of a hash are pairs. -/
def views (result : Value) : List Value :=
  match result.get (.str "views") with
  | .hash entries => entries.map (fun e => .arr [keyValue e.1, e.2])
  | value => value.toArray

/-- The block of `get_events_by_month`. -/
def monthItem (event : Value) : Except Raised MonthItem := do
  let html ← count "full-text" event
  let pdf ← count "pdf" event
  let number ← count "month" event
  let year ← count "year" event
  pure { year := year, month := number
         counts := { html := some html, pdf := some pdf, total := some (html + pdf) } }

def getEventsByMonth (extra : List Value) : Except Raised (List MonthItem) := extra.mapM monthItem

/-- `total > 0 ? get_events_url(work) : nil` -/
def eventsUrlFor (total : Int) (getEventsUrl : Except Raised (Option String)) :
    Except Raised (Option String) :=
  if 0 < total then getEventsUrl else .ok none

/-- `parse_data` behind the check of the status, with what `get_events_url`
answers for the work. -/
def parseFound (getEventsUrl : Except Raised (Option String)) (result : Value) :
    Except Raised Parsed :=
  if (result.get (.sym "error")).truthy then .ok (.ofResult result)
  else do
    let extra := views result
    let html ← getSum extra "full-text"
    let pdf ← getSum extra "pdf"
    let eventsUrl ← eventsUrlFor (html + pdf) getEventsUrl
    let months ← getEventsByMonth extra
    pure { events :=
            { counts := { pdf := some pdf, html := some html, total := some (html + pdf) }
              eventsUrl := eventsUrl
              extra := .arr extra
              months := months } }

/-- `parse_data` -/
def parseData (getEventsUrl : Except Raised (Option String)) (result : Value) :
    Except Raised Parsed :=
  parseFound getEventsUrl
    (if result.isNotFound then .hash [(.str "data", .arr [])] else result)

end Pmc

end Lagotto
