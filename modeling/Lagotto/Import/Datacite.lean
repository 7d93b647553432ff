/-
Lagotto.Import.Datacite — publishers and records from DataCite
(`app/models/imports/datacite_import.rb`).

A data centre is stored as a publisher. Its `member_id` is the symbol of the
data centre read as a number in base 36, as far as it is one, and
`first_or_create` looks the publisher up by that number. A publisher that is
not valid is not stored, and nothing is raised; a number that does not fit the
column raises before the database is asked.
-/
import Lagotto.Import.Records
import Lagotto.Text.Radix

namespace Lagotto.Import

open Relational
open Text

/-! ## Symbols -/

/-- The characters of a symbol. -/
def symbolChar (c : Char) : Bool := c.isUpper || c.isDigit || c == '.' || c == '-'

/-- A `datacentre_symbol`. -/
@[ext] structure Symbol where
  text : String
  valid : text.toList.all symbolChar = true
  deriving DecidableEq

/-- A digit in base 36. -/
def digit36 (c : Char) : Option Nat :=
  if c.isDigit then some (c.toNat - 48) else if c.isUpper then some (c.toNat - 55) else none

/-- The longest row of digits. -/
def leadingDigits : List Char → List Nat
  | [] => []
  | c :: rest =>
    match digit36 c with
    | some d => d :: leadingDigits rest
    | none => []

namespace Symbol

/-- A dash at the beginning is a sign. -/
def negative (s : Symbol) : Bool := s.text.toList.head? == some '-'

/-- The characters behind the sign. -/
def unsigned (s : Symbol) : List Char :=
  if s.negative then s.text.toList.tail else s.text.toList

/-- `publisher_name.to_i(36)`. A symbol has no underscores and no blanks, which
`to_i` skips. -/
def memberId (s : Symbol) : Int :=
  if s.negative then -(ofNumeral 36 (leadingDigits s.unsigned) : Int)
  else ofNumeral 36 (leadingDigits s.unsigned)

end Symbol

/-! ## Publishers -/

namespace DataciteImport

/-- A document of the response; `author` is what `get_authors` makes of the
creators. -/
structure Item where
  doi : Option String := none
  publicationYear : Value := .nil
  title : List String := []
  publisher : Option String := none
  datacentreSymbol : Option Symbol := none
  prefixes : Value := .nil
  datacentre : Value := .nil
  resourceTypeGeneral : Option String := none
  author : Value := .arr []

/-- The range of `publishers.member_id`. -/
def fitsColumn (memberId : Int) : Bool :=
  decide (-2147483648 ≤ memberId) && decide (memberId ≤ 2147483647)

/-- `validates :title, presence: true` and
`validates :name, :member_id, presence: true, uniqueness: true` -/
def isValid (publishers : Table Publisher) (p : Publisher) : Bool :=
  present p.title && !blank p.name && p.memberId.isSome &&
    publishers.rows.all (fun other => other.name != p.name && other.memberId != p.memberId)

/-- The publisher of an item. -/
def newPublisher (item : Item) (s : Symbol) : Publisher where
  title := item.publisher
  memberId := some s.memberId
  name := s.text
  prefixes := item.prefixes.toArray
  otherNames := item.datacentre.toArray
  service := some "datacite"

/-- `Publisher.where(member_id: member_id).first` -/
def stored (publishers : Table Publisher) (memberId : Int) : Option Publisher :=
  publishers.first (fun p => p.memberId == some memberId)

/-- `Publisher.where(member_id: member_id).first_or_create(…)` -/
def firstOrCreate (item : Item) (s : Symbol) (publishers : Table Publisher) : Table Publisher :=
  match stored publishers s.memberId with
  | some _ => publishers
  | none =>
    if isValid publishers (newPublisher item s) then publishers.insert (newPublisher item s)
    else publishers

/-- `DATACITE_TYPE_TRANSLATIONS` -/
def typeTranslations : String → Option String
  | "Audiovisual" => some "motion_picture"
  | "Dataset" => some "dataset"
  | "Image" => some "graphic"
  | "Sound" => some "song"
  | "Text" => some "report"
  | _ => none

/-- The record for an item. -/
def record (env : Env) (cat : Catalogue) (item : Item) : Params :=
  let year := item.publicationYear.toI
  let type := item.resourceTypeGeneral.bind typeTranslations
  { col := fun
      | .doi => some item.doi
      | _ => none
    title := some item.title.head?
    year := some (some year)
    month := some none
    day := some none
    publisherId := some (item.datacentreSymbol.map Symbol.memberId)
    workTypeId := some (cat.workTypeId env type)
    registrationAgency := some (some "datacite")
    tracked := some (.bool true)
    csl := some (.hash
      [(.str "issued", datePartsHash [year]), (.str "author", item.author),
       (.str "container-title", .nil), (.str "title", orNil item.title.head?),
       (.str "type", orNil type), (.str "DOI", orNil item.doi),
       (.str "publisher", orNil item.publisher)]) }

/-- The block of `parse_data`. -/
def parseItem (env : Env) (cat : Catalogue) (item : Item) (publishers : Table Publisher) :
    Except Raised Params × Table Publisher :=
  match item.datacentreSymbol with
  | none => (.ok (record env cat item), publishers)
  | some s =>
    if fitsColumn s.memberId then (.ok (record env cat item), firstOrCreate item s publishers)
    else
      (.error ⟨"RangeError", toString s.memberId ++
        " is out of range for ActiveRecord::Type::Integer with limit 4"⟩, publishers)

/-- The loop of `parse_data`. -/
def parseItems (env : Env) (cat : Catalogue) :
    List Item → Table Publisher → Except Raised (List Params) × Table Publisher
  | [], publishers => (.ok [], publishers)
  | item :: items, publishers =>
    match parseItem env cat item publishers with
    | (.error e, publishers) => (.error e, publishers)
    | (.ok first, publishers) =>
      match parseItems env cat items publishers with
      | (.error e, publishers) => (.error e, publishers)
      | (.ok more, publishers) => (.ok (first :: more), publishers)

/-- `parse_data`; `none` is a response without a status. -/
def parseData (env : Env) (cat : Catalogue) (result : Option (List Item)) :
    Except Raised (List Params) × Table Publisher :=
  match result with
  | none => (.ok [], cat.publishers)
  | some items => parseItems env cat items cat.publishers

end DataciteImport

end Lagotto.Import
