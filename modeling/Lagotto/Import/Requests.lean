/-
Lagotto.Import.Requests — what the import classes ask for
(`app/models/import.rb`, `app/models/imports`, `lib/tasks/db.rake`).

`queue_work_import` steps through the results by a thousand and makes the
options of one `get_data` for every step. How many records that `get_data`
asks for is decided elsewhere: by a default of `get_data` in the classes that
read a file, by a default of `get_text` in `FileImport`, and by a default of
`query_url` in the classes that ask a server. A request is kept as the
parameters it is made of; `Url.window` reads off the records it asks for.
-/
import Lagotto.Api.Site
import Lagotto.Relational.Windows

namespace Lagotto.Import

open Relational

/-- `Import` and its subclasses. -/
inductive ImportClass where
  | base | file | doi | csl | crossref | datacite | dataone | plos
  deriving DecidableEq, Repr

/-- The attributes of an import. -/
structure Importer where
  importClass : ImportClass
  sample : Nat := 0
  member : Option String := none
  fromUpdateDate : Option String := none
  untilUpdateDate : Option String := none
  fromPubDate : Option String := none
  untilPubDate : Option String := none
  file : List String := []
  filepath : Option String := none
  type : Option String := none
  issn : Option String := none

/-- The options of `get_data`. Nothing that is queued has `:rows`. -/
structure Options where
  fromUpdateDate : Option String := none
  untilUpdateDate : Option String := none
  fromPubDate : Option String := none
  untilPubDate : Option String := none
  file : List String := []
  filepath : Option String := none
  member : Option String := none
  sample : Nat := 0
  offset : Nat := 0
  rows : Option Nat := none
  type : Option String := none
  issn : Option String := none

/-- `queue_work_import` -/
def queueWorkImport (i : Importer) (totalResults : Nat) : List Options :=
  (offsets 1000 totalResults).map fun offset =>
    { fromUpdateDate := i.fromUpdateDate
      untilUpdateDate := i.untilUpdateDate
      fromPubDate := i.fromPubDate
      untilPubDate := i.untilPubDate
      file := i.file
      filepath := i.filepath
      member := i.member
      sample := i.sample
      offset := offset
      type := i.type
      issn := i.issn }

/-! ## Files -/

/-- `offset...offset + rows` in `Import#get_data` and `DoiImport#get_data`. -/
def fileWindow (options : Options) : Window := ⟨options.offset, options.rows.getD 1000⟩

/-- `offset...(offset + rows)` in `FileImport#get_text`. -/
def textWindow (offset : Nat) (rows : Nat := 500) : Window := ⟨offset, rows⟩

/-! ## Servers -/

inductive Param where
  | text (s : String)
  | number (n : Nat)
  | list (items : List String)

/-- A URL before its parameters are encoded. -/
structure Url where
  base : String
  params : List (String × Param)

def Url.number (url : Url) (name : String) : Option Nat :=
  match (url.params.find? (fun param => param.1 == name)).map Prod.snd with
  | some (.number n) => some n
  | _ => none

/-- The records a request asks for. -/
def Url.window (url : Url) : Option Window :=
  match (url.number "start").or (url.number "offset"), url.number "rows" with
  | some start, some rows => some ⟨start, rows⟩
  | _, _ => none

/-- `#{…}` -/
def text (value : Option String) : String := value.getD ""

/-- `"#{name}#{value}" if value` -/
def ifGiven (name : String) (value : Option String) : String :=
  match value with
  | some value => name ++ value
  | none => ""

/-- `member.split(",") if member.present?` -/
def members (i : Importer) : List String :=
  if present i.member then Api.splitComma (text i.member) else []

/-- `CrossrefImport#query_url` -/
def crossrefQueryUrl (i : Importer) (offset : Nat := 0) (rows : Nat := 10) : Url :=
  let filter := "from-update-date:" ++ text i.fromUpdateDate ++
    ",until-update-date:" ++ text i.untilUpdateDate ++
    ",until-pub-date:" ++ text i.untilPubDate ++
    ifGiven ",from-pub-date:" i.fromPubDate ++
    ifGiven ",type:" i.type ++
    ifGiven ",issn:" i.issn ++
    (members i).foldl (fun sum m => sum ++ ",member:" ++ m) ""
  { base := "http://api.crossref.org/works?"
    params :=
      if 0 < i.sample then [("filter", .text filter), ("sample", .number i.sample)]
      else [("filter", .text filter), ("offset", .number offset), ("rows", .number rows)] }

/-- The parameters of a Solr query. -/
def solrParams (q : String) (offset rows : Nat) (fl : String) : List (String × Param) :=
  [("q", .text q), ("start", .number offset), ("rows", .number rows), ("fl", .text fl)]

/-- `field:[first TO last]`, from the beginning of one day to the end of the
other. -/
def dateRange (field : String) (first last : Option String) : String :=
  field ++ ":[" ++ text first ++ "T00:00:00Z TO " ++ text last ++ "T23:59:59Z]"

/-- `DataciteImport#query_url`; `yearOf` is `Date.parse(_).year`. -/
def dataciteQueryUrl (yearOf : String → Int) (i : Importer) (offset : Nat := 0)
    (rows : Nat := 1000) : Url :=
  let publicationYear := "publicationYear:[" ++ toString (yearOf (text i.fromPubDate)) ++ " TO " ++
    toString (yearOf (text i.untilPubDate)) ++ "]"
  let datacentreSymbol :=
    if (members i).isEmpty then none
    else some ("datacentre_symbol:" ++ Text.join "+OR+" (members i))
  { base := "http://search.datacite.org/api?"
    params :=
      solrParams "*:*" offset rows
        ("doi,creator,title,publisher,publicationYear,resourceTypeGeneral,datacentre," ++
          "datacentre_symbol,prefix,relatedIdentifier,updated") ++
      [("fq", .list
          ([some (dateRange "updated" i.fromUpdateDate i.untilUpdateDate), some publicationYear,
            i.type.map ("resourceTypeGeneral:" ++ ·), datacentreSymbol,
            some "has_metadata:true", some "is_active:true"].filterMap (fun part => part))),
       ("wt", .text "json")] }

/-- `DataoneImport#query_url` -/
def dataoneQueryUrl (i : Importer) (offset : Nat := 0) (rows : Nat := 1000) : Url where
  base := "https://cn.dataone.org/cn/v1/query/solr/?"
  params :=
    solrParams
      (Text.join "+" [dateRange "datePublished" i.fromPubDate i.untilPubDate,
        dateRange "dateModified" i.fromUpdateDate i.untilUpdateDate, "formatType:METADATA"])
      offset rows "id,title,author,datePublished,authoritativeMN,dateModified" ++
    [("wt", .text "json")]

/-- `PlosImport#query_url` -/
def plosQueryUrl (i : Importer) (offset : Nat := 0) (rows : Nat := 1000) : Url where
  base := "http://api.plos.org/search?"
  params :=
    solrParams "*:*" offset rows
      ("id,publication_date,title_display,cross_published_journal_name,author_display,volume," ++
        "issue,elocation_id") ++
    [("fq", .text ("+" ++ dateRange "publication_date" i.fromPubDate i.untilPubDate ++
        " +doc_type:full -article_type:\"Issue Image\"")),
     ("wt", .text "json")]

/-! ## All classes -/

/-- The records `get_data` asks for. -/
def requested (yearOf : String → Int) (i : Importer) (options : Options) : Option Window :=
  match i.importClass with
  | .base | .csl | .doi => some (fileWindow options)
  | .file => some (textWindow options.offset)
  | .crossref => (crossrefQueryUrl i options.offset).window
  | .datacite => (dataciteQueryUrl yearOf i options.offset).window
  | .dataone => (dataoneQueryUrl i options.offset).window
  | .plos => (plosQueryUrl i options.offset).window

/-- The windows of an import with `totalResults` results. -/
def requestedWindows (yearOf : String → Int) (i : Importer) (totalResults : Nat) : List Window :=
  (queueWorkImport i totalResults).filterMap (requested yearOf i)

end Lagotto.Import
