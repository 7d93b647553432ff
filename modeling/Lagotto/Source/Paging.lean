/-
Lagotto.Source.Paging — results that are read page by page: the two classes
for Europe PMC (`app/models/concerns/pmcable.rb`,
`app/models/sources/europe_pmc.rb`, `app/models/sources/europe_pmc_fulltext.rb`)
and Nature OpenSearch (`app/models/sources/nature_opensearch.rb`).

The first page says how many hits there are. If they do not fit on it, the
others are requested in turn and their lists are added to the list of the first
page with `|`, which leaves out what is there already. `get_query_url` is asked
anew for every page and may look up an identifier of the work each time.
-/
import Lagotto.Interaction.Raising
import Lagotto.Relational.Pages
import Lagotto.Source.Wikipedia

namespace Lagotto

open Interaction
open Relational

/-! ## The loop through the pages -/

/-- `a | b`: for nil, true and false this is the logical operation. -/
def Value.union : Value → Value → Except Raised Value
  | .arr items, .arr more => .ok (.arr (unionBy Value.eql items more))
  | .arr _, _ => .error ⟨"TypeError", "no implicit conversion into Array"⟩
  | .nil, v => .ok (.bool v.truthy)
  | .bool b, v => .ok (.bool (b || v.truthy))
  | _, _ => .error ⟨"NoMethodError", "undefined method `|'"⟩

namespace Source

/-- `result[outer][inner] =
result[outer][inner] | paged_result.fetch(outer, {}).fetch(inner, [])`. -/
def mergePage (outer inner : String) (result paged : Value) : Except Raised Value :=
  if !paged.isHash then .error ⟨"NoMethodError", "undefined method `fetch'"⟩
  else if !(result.get (.str outer)).isHash then
    .error ⟨"NoMethodError", "undefined method `[]' for nil:NilClass"⟩
  else
    let list := result.get (.str outer)
    ((list.get (.str inner)).union
      ((paged.fetch (.str outer) (.hash [])).fetch (.str inner) (.arr []))).map fun all =>
        result.set (.str outer) (list.set (.str inner) all)

/-- The first page, and what is done with it; `none` is the empty hash of a work
without a query. -/
def firstPage (query : Fetch (Option String × Work)) (rest : Value → Work → Fetch Value) :
    Fetch Value :=
  query.bind fun
    | (none, _) => .done (.hash [])
    | (some url, work) => (Fetch.get url).bind fun result => rest result work

/-- `(total.to_f / rows).ceil`. -/
def totalPages (rows total : Int) : Nat := ((total + rows - 1) / rows).toNat

/-- The loop, for the pages it is given; `query` is `get_query_url` with the
options of a page. -/
def walkPages (s : Source) (query : Nat → Work → Fetch (Option String × Work))
    (outer inner : String) : List Nat → Value → Work → Fetch Value
  | [], result, _ => .done result
  | page :: pages, result, work =>
    (query page work).bind fun (url, work) =>
      (s.getResult work url).bind fun paged =>
        (Program.ofExcept (mergePage outer inner result paged)).bind fun result =>
          walkPages s query outer inner pages result work

/-- `if total > rows`: the pages from the second on, if there are any. -/
def collectPages (s : Source) (query : Nat → Work → Fetch (Option String × Work))
    (outer inner : String) (rows total : Int) (result : Value) (work : Work) : Fetch Value :=
  if total > rows then
    s.walkPages query outer inner (List.range' 2 (totalPages rows total - 1)) result work
  else .done result

end Source

/-! ## Europe PMC -/

/-- What a class that includes `Pmcable` has of its own. -/
structure Pmcable where
  /-- `result_key` -/
  resultKey : String
  /-- `get_query_url` for a page. -/
  getQueryUrl : Nat → Work → Fetch (Option String × Work)

namespace Pmcable

/-- `rows`. -/
def rows : Int := 25

/-- The key of the hash with the list. -/
def listKey (c : Pmcable) : String := c.resultKey ++ "List"

/-- `"hitCount"`. -/
def hitCount (result : Value) : Int := (result.fetch (.str "hitCount") .nil).toI

/-- `get_data`, with the options of `perform_get_data`, which have no page. -/
def getData (c : Pmcable) (s : Source) (work : Work) : Fetch Value :=
  Source.firstPage (c.getQueryUrl 1 work) fun result work =>
    if !result.isHash then .fail ⟨"NoMethodError", "undefined method `fetch'"⟩
    else s.collectPages c.getQueryUrl c.listKey c.resultKey rows (hitCount result) result work

end Pmcable

/-- The identifiers `get_ids` completes, with the names they go by. -/
def persistentIds : List (Column × String) :=
  [(.doi, "doi"), (.pmid, "pmid"), (.pmcid, "pmcid")]

/-- What a record of the converter has for an identifier, the PMCID without
its `PMC`; `"0"` stands for none. -/
def identifierIn (record : Value) (c : Column) (name : String) : Option String :=
  match record.get (.str name) with
  | .str val =>
    let val := if c = .pmcid then String.ofList (val.toList.drop 3) else val
    if blank val || val == "0" then none else some val
  | _ => none

/-- `work.get_ids`: whether the work has all three identifiers, after asking the
converter for those it lacks. What `get_persistent_identifiers` makes of the
response stands for the answer; `converter` is the URL for an identifier and
its type, with the names of the server and of its administrator in it. -/
def Work.getIds (converter : String → String → String) (work : Work) : Fetch (Bool × Work) :=
  let missing := persistentIds.filter (fun id => !present (work.col id.1))
  if missing.isEmpty then .done (true, work)
  else
    match persistentIds.find? (fun id => present (work.col id.1)) with
    | none => .done (false, work)
    | some (c, name) =>
      (Fetch.get (converter ((work.col c).getD "") name)).bind fun record =>
        if record.isHash && !record.isBlank then
          Fetch.update work
            { col := fun c =>
                (missing.find? (fun id => id.1 = c)).bind fun id =>
                  (identifierIn record c id.2).map some }
        else .done (false, work)

namespace EuropePmc

def urlFor (pmid : String) (page : Nat) : String :=
  "http://www.ebi.ac.uk/europepmc/webservices/rest/MED/" ++ pmid ++ "/citations/" ++
    toString page ++ "/json"

def getQueryUrl (converter : String → String → String) (page : Nat) (work : Work) :
    Fetch (Option String × Work) :=
  (work.getIds converter).bind fun (known, work) =>
    .done
      (if known && present (work.col .pmid) then some (urlFor ((work.col .pmid).getD "") page)
        else none, work)

/-- The class. -/
def pmcable (converter : String → String → String) : Pmcable where
  resultKey := "citation"
  getQueryUrl := getQueryUrl converter

end EuropePmc

/-- `registration_agencies` of the two classes below. -/
def registrationAgencies : List String := ["datacite", "dataone", "cdl", "github", "bitbucket"]

/-- `registration_agencies.include?(work.registration_agency)`. -/
def Work.isRegistered (work : Work) : Bool :=
  registrationAgencies.any (fun agency => some agency == work.registrationAgency)

namespace EuropePmcFulltext

/-- `get_query_string`: the search is not in the reference list. -/
def queryString (work : Work) : Option String :=
  let search := fun id : String => "%22" ++ id ++ "%22%20OR%20REF:%22" ++ id ++ "%22"
  ((presence (work.col .doi)).orElse fun _ => presence (work.col .canonicalUrl)).map search

def urlFor (queryString : String) (page : Nat) : String :=
  "http://www.ebi.ac.uk/europepmc/webservices/rest/search/query=" ++ queryString ++
    "&format=json&page=" ++ toString page

def getQueryUrl (env : Env) (page : Nat) (work : Work) : Fetch (Option String × Work) :=
  (work.getUrl env).bind fun (known, work) =>
    .done
      (if known && work.isRegistered then (queryString work).map (urlFor · page) else none, work)

/-- The class. -/
def pmcable (env : Env) : Pmcable where
  resultKey := "result"
  getQueryUrl := getQueryUrl env

end EuropePmcFulltext

/-! ## Nature OpenSearch -/

namespace NatureOpensearch

/-- `rows`. -/
def rows : Int := 25

def urlFor (queryString : String) (startRecord : Nat) : String :=
  "http://www.nature.com/opensearch/request?query=" ++ queryString ++
    "&httpAccept=application/json&startRecord=" ++ toString startRecord

/-- `get_query_url`; the query string is that of most classes. -/
def getQueryUrl (env : Env) (startRecord : Nat) (work : Work) : Fetch (Option String × Work) :=
  (work.getUrl env).bind fun (known, work) =>
    .done
      (if (known || present (work.col .doi)) && work.isRegistered then
        some (urlFor (Wikipedia.queryString work) startRecord)
      else none, work)

/-- `"opensearch:totalResults"`. -/
def totalResults (result : Value) : Int :=
  ((result.fetch (.str "feed") (.hash [])).fetch (.str "opensearch:totalResults") .nil).toI

/-- `options[:start_record]` of a page after the first. -/
def startRecord (page : Nat) : Nat := page * 25 + 1

/-- `get_data`, with the options of `perform_get_data`. -/
def getData (env : Env) (s : Source) (work : Work) : Fetch Value :=
  Source.firstPage (getQueryUrl env 1 work) fun result work =>
    let result := if result.isHash then result else .hash [(.str "data", result)]
    s.collectPages (fun page => getQueryUrl env (startRecord page)) "feed" "entry" rows
      (totalResults result) result work

end NatureOpensearch

end Lagotto
