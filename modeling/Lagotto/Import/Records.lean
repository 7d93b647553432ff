/-
Lagotto.Import.Records — the records made from files of identifiers and of
CSL items (`app/models/imports/file_import.rb`, `doi_import.rb`,
`csl_import.rb`).

`get_data` reads a window of the file, and `next` leaves nil in the list for a
line that it skips. `parse_data` asks every element of the list for its keys,
nil included. What the registries of DOIs answer is given as `Registries`;
their metadata always have one list of date parts, because `get_metadata` puts
it there.

Lines are text, so `tidy_bytes` leaves them as they are.
-/
import Mathlib.Data.List.DropRight
import Lagotto.Import.Requests
import Lagotto.Work.Dates

namespace Lagotto.Import

open Relational
open Text

/-! ## What is looked up -/

structure Publisher where
  id : Nat := 0
  title : Option String
  memberId : Option Int
  name : String
  prefixes : List Value := []
  otherNames : List Value := []
  service : Option String := none

instance : Row Publisher := ⟨(·.id), fun n r => { r with id := n }, fun _ _ => rfl, fun _ => rfl⟩

def orNil (s : Option String) : Value :=
  match s with
  | some s => .str s
  | none => .nil

/-- The publisher as it is stored in `csl`. -/
def Publisher.toValue (p : Publisher) : Value :=
  .hash
    [(.str "id", .int p.id), (.str "title", orNil p.title),
     (.str "member_id", match p.memberId with | some n => .int n | none => .nil),
     (.str "name", .str p.name), (.str "prefixes", .arr p.prefixes),
     (.str "other_names", .arr p.otherNames), (.str "service", orNil p.service)]

/-- The tables `parse_data` reads. -/
structure Catalogue where
  workTypes : Table WorkType := .empty
  publishers : Table Publisher := .empty

namespace Catalogue

/-- `WorkType.where(name: type).pluck(:id).first` -/
def workTypeId (env : Env) (cat : Catalogue) (type : Option String) : Option Nat :=
  (cat.workTypes.first (fun t => env.same (some t.name) type)).map (·.id)

/-- `Publisher.where(member_id: member_id).first` -/
def publisher (cat : Catalogue) (memberId : Option Int) : Option Publisher :=
  cat.publishers.first (fun p => p.memberId == memberId)

end Catalogue

/-- A string in an integer column. -/
def memberNumber (member : Option String) : Option Int :=
  if present member then member.map (fun m => (Value.str m).toI) else none

/-! ## Lines of a file -/

/-- The white space of `strip` and `split`. -/
def asciiSpace (c : Char) : Bool := c == ' ' || (9 ≤ c.toNat && c.toNat ≤ 13)

/-- `strip`: null characters go as well, at the end. -/
def strip (cs : List Char) : List Char :=
  (cs.dropWhile asciiSpace).rdropWhile (fun c => asciiSpace c || c.toNat == 0)

/-- `split(" ", limit)` -/
def splitFields : Nat → List Char → List (List Char)
  | 0, _ => []
  | limit + 1, cs =>
    let rest := cs.dropWhile asciiSpace
    if rest.isEmpty then []
    else if limit = 0 then [rest]
    else
      rest.takeWhile (fun c => !asciiSpace c) ::
        splitFields limit (rest.dropWhile (fun c => !asciiSpace c))

/-- `chomp('.')` -/
def chompDot (cs : List Char) : List Char :=
  match cs.reverse with
  | '.' :: rest => rest.reverse
  | _ => cs

namespace FileImport

/-- An element of `"items"`. A DOI whose bytes are no text is `none` here; only
the database would refuse it. -/
structure TextItem where
  doi : Option String
  dateParts : List Int
  title : String
  member : Option String

/-- `get_id_hash(raw_doi.strip).values.first`. A DOI that starts with `10.` is
not put in lower case, which is what raises on bytes that are no text. -/
def readId (env : Env) (rawDoi : List Char) : Except Raised (Option String) :=
  let id := restoreId (strip rawDoi)
  match idRule id with
  | .doiAsIs => .ok ((unescape id).map String.ofList)
  | rule =>
    match rule.apply env id with
    | .ok entry => .ok (some entry.2)
    | .error message =>
      if rule = .url then .error ⟨"Addressable::URI::InvalidURIError", message⟩
      else .error ⟨"ArgumentError", message⟩

/-- `raw_published_on.split("-")`, with `to_i` -/
def dashNumbers (rawPublishedOn : List Char) : List Int :=
  (rawPublishedOn.splitOn '-').map (fun part => (Value.str (String.ofList part)).toI)

/-- `date_parts`: the numbers above 0. -/
def dateParts (rawPublishedOn : Option (List Char)) : List Int :=
  match rawPublishedOn with
  | some raw => (dashNumbers raw).filter (fun n => 0 < n)
  | none => []

/-- The block of `get_text`. -/
def lineItem (env : Env) (i : Importer) (line : String) : Except Raised (Option TextItem) :=
  match splitFields 3 (strip line.toList) with
  | [] => .ok none
  | rawDoi :: rest =>
    (readId env rawDoi).map fun doi =>
      some
        { doi := doi
          dateParts := dateParts rest[0]?
          title :=
            match rest[1]? with
            | some rawTitle => String.ofList (chompDot (strip rawTitle))
            | none => ""
          member := i.member }

/-- `get_text` -/
def getText (env : Env) (i : Importer) (offset : Nat := 0) (rows : Nat := 500) :
    Except Raised (List (Option TextItem)) :=
  match (textWindow offset rows).slice i.file with
  | none => .error ⟨"NoMethodError", "undefined method `map' for nil:NilClass"⟩
  | some text => text.mapM (lineItem env i)

/-- `get_data` -/
def getData (env : Env) (i : Importer) (options : Options) :
    Except Raised (List (Option TextItem)) :=
  getText env i options.offset

/-- The record for an item. -/
def record (env : Env) (cat : Catalogue) (item : TextItem) : Params where
  col := fun
    | .doi => some item.doi
    | _ => none
  title := some (some item.title)
  year := some item.dateParts[0]?
  month := some item.dateParts[1]?
  day := some item.dateParts[2]?
  publisherId := some (memberNumber item.member)
  workTypeId := some (cat.workTypeId env (some "article-journal"))
  tracked := some (.bool true)
  csl := some (.hash
    [(.str "issued", datePartsHash item.dateParts), (.str "title", .str item.title),
     (.str "type", .str "article-journal"), (.str "DOI", orNil item.doi),
     (.str "publisher",
       match cat.publisher (memberNumber item.member) with
       | some publisher => publisher.toValue
       | none => .nil)])

/-- `item.fetch("doi", nil)` and what follows. -/
def parseItem (env : Env) (cat : Catalogue) : Option TextItem → Except Raised Params
  | none => .error ⟨"NoMethodError", "undefined method `fetch' for nil:NilClass"⟩
  | some item => .ok (record env cat item)

/-- `parse_data` -/
def parseData (env : Env) (cat : Catalogue) (items : List (Option TextItem)) :
    Except Raised (List Params) :=
  items.mapM (parseItem env cat)

/-- `get_data` and then `parse_data`. -/
def pipeline (env : Env) (cat : Catalogue) (i : Importer) (options : Options) :
    Except Raised (List Params) :=
  (getData env i options).bind (parseData env cat)

end FileImport

/-! ## Registries -/

/-- What `get_metadata` returns. -/
structure Metadata where
  title : Option String := none
  type : Option String := none
  dateParts : List Int := []
  publisherId : Option Int := none
  author : Value := .arr []
  containerTitle : Value := .nil
  page : Value := .nil
  issue : Value := .nil
  publisher : Value := .nil
  volume : Value := .nil

/-- What the registries know; `none` is a hash with an `:error`. -/
structure Registries where
  getDoiRa : String → Option String
  getCrossrefMetadata : String → Option Metadata
  getDataciteMetadata : String → Option Metadata
  getPubmedMetadata : String → Option Metadata

/-- `get_metadata` -/
def Registries.getMetadata (registries : Registries) (id : String) (service : Option String) :
    Option Metadata :=
  match service with
  | some "crossref" => registries.getCrossrefMetadata id
  | some "datacite" => registries.getDataciteMetadata id
  | some "pubmed" => registries.getPubmedMetadata id
  | _ => none

namespace DoiImport

/-- `content.split("\n")`: without the empty lines at the end. -/
def splitLines (content : String) : List String :=
  (((content.toList.splitOn '\n').map String.ofList).reverse.dropWhile (· == "")).reverse

/-- `chomp` -/
def chomp (line : String) : String :=
  match line.toList.reverse with
  | '\n' :: '\r' :: rest => String.ofList rest.reverse
  | '\n' :: rest => String.ofList rest.reverse
  | '\r' :: rest => String.ofList rest.reverse
  | _ => line

/-- The block of `get_data`: the DOI of a line. -/
def lineItem (line : String) : Option String :=
  if blank (chomp line) then none else some (chomp line)

/-- What `get_data` returns: an empty array if there is no file. -/
inductive Result where
  | array
  | items (items : List (Option String))

/-- `get_data` -/
def getData (content : Option String) (options : Options) : Except Raised Result :=
  match content with
  | none => .ok .array
  | some content =>
    match (fileWindow options).slice (splitLines content) with
    | none => .error ⟨"NoMethodError", "undefined method `map' for nil:NilClass"⟩
    | some lines => .ok (.items (lines.map lineItem))

/-- The record for a DOI with metadata. -/
def record (env : Env) (cat : Catalogue) (registrationAgency : Option String) (doi : String)
    (metadata : Metadata) : Params where
  col := fun
    | .doi => some (some doi)
    | _ => none
  title := some metadata.title
  year := some metadata.dateParts[0]?
  month := some metadata.dateParts[1]?
  day := some metadata.dateParts[2]?
  publisherId := some metadata.publisherId
  workTypeId := some (cat.workTypeId env metadata.type)
  registrationAgency := some registrationAgency
  tracked := some (.bool true)
  csl := some (.hash
    [(.str "issued", datePartsHash metadata.dateParts), (.str "author", metadata.author),
     (.str "container-title", metadata.containerTitle), (.str "page", metadata.page),
     (.str "issue", metadata.issue), (.str "title", orNil metadata.title),
     (.str "type", orNil metadata.type), (.str "DOI", .str doi),
     (.str "publisher", metadata.publisher), (.str "volume", metadata.volume)])

/-- What the registries make of a DOI. -/
def lookUp (env : Env) (cat : Catalogue) (registries : Registries) (doi : String) :
    Option Params :=
  (registries.getMetadata doi (registries.getDoiRa doi)).map
    (record env cat (registries.getDoiRa doi) doi)

/-- `item.fetch("doi", nil)` and what follows. -/
def parseItem (env : Env) (cat : Catalogue) (registries : Registries) :
    Option String → Except Raised (Option Params)
  | none => .error ⟨"NoMethodError", "undefined method `fetch' for nil:NilClass"⟩
  | some doi => .ok (lookUp env cat registries doi)

/-- `parse_data` -/
def parseData (env : Env) (cat : Catalogue) (registries : Registries) :
    Result → Except Raised (List Params)
  | .array => .error ⟨"TypeError", "no implicit conversion of String into Integer"⟩
  | .items items =>
    (items.mapM (parseItem env cat registries)).map (List.filterMap (fun record => record))

/-- `get_data` and then `parse_data`. -/
def pipeline (env : Env) (cat : Catalogue) (registries : Registries) (content : Option String)
    (options : Options) : Except Raised (List Params) :=
  (getData content options).bind (parseData env cat registries)

end DoiImport

/-! ## CSL items -/

namespace CslImport

/-- An item of the file. `dateParts` is the first list under `"date-parts"`, of
numbers or numerals. -/
structure CslItem where
  doi : Option String := none
  url : Option String := none
  dateParts : Option (List Value) := none
  title : Option String := none
  publisher : Value := .nil
  type : Option String := none
  author : Value := .arr []
  containerTitle : Value := .nil
  page : Value := .nil
  issue : Value := .nil
  volume : Value := .nil

/-- `date_parts[k].to_i`: a part that is missing is nil, and `nil.to_i` is 0. -/
def partAt (dateParts : List Value) (k : Nat) : Int := (dateParts[k]?.getD Value.nil).toI

/-- The record for an item. -/
def record (env : Env) (cat : Catalogue) (i : Importer) (item : CslItem) (dateParts : List Value) :
    Params :=
  let memberId := (members i).head?
  { col := fun
      | .doi => some item.doi
      | .canonicalUrl => some item.url
      | _ => none
    title := some item.title
    year := some (some (partAt dateParts 0))
    month := some (some (partAt dateParts 1))
    day := some (some (partAt dateParts 2))
    publisherId := some (memberNumber memberId)
    workTypeId := some (cat.workTypeId env item.type)
    tracked := some (.bool true)
    csl := some (.hash
      [(.str "issued", .hash [(.str "date-parts", .arr [.arr dateParts])]),
       (.str "author", item.author), (.str "container-title", item.containerTitle),
       (.str "page", item.page), (.str "issue", item.issue), (.str "title", orNil item.title),
       (.str "type", orNil item.type), (.str "DOI", orNil item.doi), (.str "URL", orNil item.url),
       (.str "publisher",
         match memberId with
         | none => item.publisher
         | some _ =>
           match cat.publisher (memberNumber memberId) with
           | some publisher => publisher.toValue
           | none => .nil),
       (.str "volume", item.volume)]) }

/-- The block of `parse_data`: `date_parts[0]` needs a list. -/
def parseItem (env : Env) (cat : Catalogue) (i : Importer) (item : CslItem) :
    Except Raised Params :=
  match item.dateParts with
  | none => .error ⟨"NoMethodError", "undefined method `[]' for nil:NilClass"⟩
  | some dateParts => .ok (record env cat i item dateParts)

/-- `parse_data` -/
def parseData (env : Env) (cat : Catalogue) (i : Importer) (items : List CslItem) :
    Except Raised (List Params) :=
  items.mapM (parseItem env cat i)

end CslImport

end Lagotto.Import
