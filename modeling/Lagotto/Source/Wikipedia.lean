/-
Lagotto.Source.Wikipedia — searches in the Wikipedias of several languages
(`app/models/sources/wikipedia.rb`).

`get_data` asks every language in turn and collects the hits under the name of
the language. A failed request is a hash like any other to it, one without
hits. The further pages of a language are requested with the options of the
caller, which have no host in them.
-/
import Lagotto.Interaction.Raising
import Lagotto.Source.Adapter

namespace Lagotto

open Interaction

namespace Wikipedia

/-- An event of `parse_related_works`. -/
structure Hit where
  title : String
  url : String
  timestamp : Option String
  deriving DecidableEq, Repr

def Hit.toValue (hit : Hit) : Value :=
  .hash
    [(.str "title", .str hit.title), (.str "url", .str hit.url),
     (.str "timestamp", match hit.timestamp with | some t => .str t | none => .nil)]

/-- `title.gsub(" ", "_")`. -/
def underscored (title : String) : String :=
  String.ofList (title.toList.map (fun c => if c = ' ' then '_' else c))

/-- One element of `"search"`; a hit without a title raises. -/
def parseHit (host : String) (event : Value) : Except Raised Hit :=
  match event.fetch (.str "title") .nil with
  | .str title =>
    .ok
      { title := title
        url := "http://" ++ host ++ "/wiki/" ++ underscored title
        timestamp :=
          match event.fetch (.str "timestamp") .nil with
          | .str t => some t
          | _ => none }
  | _ => .error ⟨"NoMethodError", "undefined method `gsub' for nil:NilClass"⟩

/-- `parse_related_works`. -/
def parseRelatedWorks (result : Value) (host : String) : Except Raised (List Hit) :=
  if result.isHash then
    (((result.fetch (.str "query") (.hash [])).fetch (.str "search") (.arr [])).toArray).mapM
      (parseHit host)
  else .error ⟨"NoMethodError", "undefined method `fetch'"⟩

/-- `"totalhits"`. -/
def totalHits (result : Value) : Int :=
  (((result.fetch (.str "query") (.hash [])).fetch (.str "searchinfo") (.hash [])).fetch
    (.str "totalhits") .nil).toI

/-- Hits per page. -/
def rows : Int := 50

/-- The options of a query, with the defaults of `get_query_url`. -/
structure Query where
  host : String := "en.wikipedia.org"
  namespaceId : String := "0"
  sroffset : Int := 0
  continueAt : String := ""

/-- `get_query_string`. -/
def queryString (work : Work) : String :=
  Text.join "+OR+"
    (([work.col .doi, work.col .canonicalUrl].filterMap id).map (fun i => "%22" ++ i ++ "%22"))

/-- The URL of a query. -/
def urlFor (q : Query) (work : Work) : String :=
  "http://" ++ q.host ++ "/w/api.php?action=query&list=search&format=json&srsearch=" ++
    queryString work ++ "&srnamespace=" ++ q.namespaceId ++
    "&srwhat=text&srinfo=totalhits&srprop=timestamp&srlimit=50&sroffset=" ++
    toString q.sroffset ++ "&continue=" ++ q.continueAt

/-- `get_query_url`: nothing to ask for a work without a URL. -/
def getQueryUrl (env : Env) (q : Query) (work : Work) : Fetch (Option String × Work) :=
  (work.getUrl env).bind fun
    | (true, work) => .done (some (urlFor q work), work)
    | (false, work) => .done (none, work)

/-- The host of a language. -/
def hostOf (lang : String) : String :=
  if lang = "commons" then "commons.wikimedia.org" else lang ++ ".wikipedia.org"

/-- The pages after the first. The query of a page has an offset and the
`continue` of the first page, and otherwise the defaults. -/
def morePages (env : Env) (s : Source) (host continueAt : String) :
    List Int → List Hit → Work → Fetch (List Hit × Work)
  | [], hits, work => .done (hits, work)
  | page :: pages, hits, work =>
    (getQueryUrl env { sroffset := page * 50, continueAt := continueAt } work).bind
      fun (url, work) =>
      (s.getResult work url).bind fun result =>
        (Program.ofExcept (parseRelatedWorks result host)).bind fun more =>
          morePages env s host continueAt pages ((hits ++ more).eraseDups) work

/-- The hits of one language. -/
def searchLanguage (env : Env) (s : Source) (lang : String) (work : Work) :
    Fetch (List Hit × Work) :=
  let host := hostOf lang
  (getQueryUrl env { host := host, namespaceId := if lang = "commons" then "6" else "0" } work).bind
    fun
    | (none, work) => .done ([], work)
    | (some url, work) =>
      (Fetch.get url).bind fun result =>
        if result.isHash then
          (Program.ofExcept (parseRelatedWorks result host)).bind fun hits =>
            if totalHits result > rows then
              let totalPages := (totalHits result + rows - 1) / rows
              let continueAt :=
                match (result.fetch (.str "continue") (.hash [])).fetch (.str "continue")
                  (.str "") with
                | .str c => c
                | _ => ""
              morePages env s host continueAt
                ((List.range' 1 (totalPages.toNat - 1)).map (fun n : Nat => (n : Int))) hits work
            else .done (hits, work)
        else .done ([], work)

/-- `sum[lang] = hits`. -/
def setHits (sum : List (String × List Hit)) (lang : String) (hits : List Hit) :
    List (String × List Hit) :=
  if sum.any (fun entry => entry.1 == lang) then
    sum.map (fun entry => if entry.1 == lang then (lang, hits) else entry)
  else sum ++ [(lang, hits)]

/-- The loop through the languages. -/
def searchAll (env : Env) (s : Source) : List String → List (String × List Hit) → Work →
    Fetch (List (String × List Hit))
  | [], sum, _ => .done sum
  | lang :: langs, sum, work =>
    (searchLanguage env s lang work).bind fun (hits, work) =>
      searchAll env s langs (setHits sum lang hits) work

/-- The hash with the languages as keys. -/
def toData (sum : List (String × List Hit)) : Value :=
  .hash (sum.map (fun (lang, hits) => (.str lang, .arr (hits.map Hit.toValue))))

/-- `languages`. -/
def languages (s : Source) : List String :=
  match (s.config.fields.find? (fun field => field.1 == "languages")).map Prod.snd with
  | some (.str langs) => (langs.splitOn " ").filter (· != "")
  | _ => ["en", "nl", "de", "sv", "fr", "it", "es", "pl", "war", "ceb", "ja", "vi", "pt", "zh",
      "uk", "ca", "no", "fi", "fa", "id", "cs", "ko", "hu", "ar", "commons"]

/-- `get_data`. -/
def getData (env : Env) (s : Source) (work : Work) : Fetch Value :=
  if !present (work.col .doi) then .done (.hash [])
  else (searchAll env s (languages s) [] work).bind fun sum => .done (toData sum)

/-! ## Parsing -/

/-- `result.values.flatten`. -/
def allHits (result : Value) : List Value :=
  match result with
  | .hash entries => entries.flatMap (fun entry => entry.2.toArray)
  | _ => []

def string? : Value → Option String
  | .str s => some s
  | _ => none

/-- `get_date_parts`. -/
def dateParts : Option String → List Int
  | none => []
  | some t => [Source.part 0 4 t, Source.part 5 2 t, Source.part 8 2 t].filter (· ≠ 0)

/-- What an item of `get_related_works` is made of. -/
def mention (item : Value) : Mention :=
  let timestamp := string? (item.fetch (.str "timestamp") .nil)
  { link := string? (item.fetch (.str "url") .nil)
    title := string? (item.fetch (.str "title") (.str ""))
    dateParts := dateParts timestamp
    author := .nil
    containerTitle := .str "Wikipedia" }

/-- An element of `get_extra`. -/
def extraFor (item : Value) : Value :=
  let eventTime := item.fetch (.str "timestamp") .nil
  let url := item.fetch (.str "url") .nil
  .hash
    [(.sym "event", item), (.sym "event_time", eventTime), (.sym "event_url", url),
     (.sym "event_csl", .hash
       [(.str "title", item.fetch (.str "title") (.str "")),
        (.str "container-title", .str "Wikipedia"),
        (.str "issued", .hash
          [(.str "date-parts", .arr [.arr ((dateParts (string? eventTime)).map Value.int)])]),
        (.str "url", url), (.str "type", .str "entry-encyclopedia")])]

/-- `parse_data`. -/
def parseData (env : Env) (s : Source) (result : Value) (work : Work) : Fetch (Parsed × Work) :=
  if (result.get (.sym "error")).truthy then .done (.ofResult result, work)
  else
    let items := allHits result
    let relatedWorks := s.getRelatedWorks env work (items.map mention)
    let total := relatedWorks.length
    let timestamps := items.filterMap (fun item => string? (item.fetch (.str "timestamp") .nil))
    (Program.ofExcept (Source.getEventsByDay .total work.publishedOn timestamps)).bind fun days =>
      .done
        ({ works := relatedWorks
           events :=
             { counts := { total := some total }
               eventsUrl :=
                 if total > 0 then
                   some ("http://en.wikipedia.org/w/index.php?search=" ++ queryString work)
                 else none
               extra := .arr (items.map extraFor)
               months := Source.getEventsByMonth .total timestamps
               days := days } }, work)

/-- The class. -/
def adapter (env : Env) : Adapter where
  getData := getData env
  parseData := parseData env

end Wikipedia

end Lagotto
