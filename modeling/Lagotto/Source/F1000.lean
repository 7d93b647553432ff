/-
Lagotto.Source.F1000 — recommendations from F1000Prime
(`app/models/sources/f1000.rb`).

The feed is a list of articles in XML. `Hash.from_xml` makes an array of two or
more articles, a hash of a single one and nil of none, and an element without
content is nil as well. `Array()` turns a hash into the pairs it has, so the
loop of `parse_feed` does not see the single article of a feed but its fields.
The loop ends at the first article without a DOI.
-/
import Lagotto.Documents.Latest
import Lagotto.Source.Couchable

namespace Lagotto.F1000

open Documents

/-! ## Feeds -/

/-- An `Article` element with its child elements and their texts. -/
structure Article where
  fields : List (String × Option String)
  distinct : (fields.map Prod.fst).Nodup

namespace Article

/-- `item[key]` -/
def get (a : Article) (key : String) : Option String := (a.fields.lookup key).join

/-- `item['Doi']` -/
def doi (a : Article) : Option String := a.get "Doi"

end Article

/-- What the block of `parse_feed` is given. -/
inductive Item where
  | article (a : Article)
  | pair (key : String) (value : Option String)
  | nil

/-- An article in an array. -/
def Article.item (a : Article) : Item := if a.fields.isEmpty then .nil else .article a

/-- `Array(document.deep_fetch('ObjectList', 'Article') { nil })` -/
def recommendations : List Article → List Item
  | [] => []
  | [a] => a.fields.map (fun e => .pair e.1 e.2)
  | articles => articles.map Article.item

/-! ## `parse_feed` -/

/-- An entry of `recommendations` in a document. -/
structure Recommendation where
  year : Int
  month : Int
  doi : String
  f1000Id : Option String
  url : Option String
  score : Int
  classifications : List String
  updatedAt : String
  deriving DecidableEq, Repr

/-- The month an entry is for. -/
def Recommendation.period (r : Recommendation) : Int × Int := (r.month, r.year)

/-- The time of the import: `Time.zone.now` and `Time.now.utc.iso8601`. -/
structure Clock where
  year : Int
  month : Int
  updatedAt : String

/-- `text.downcase.split(", ")`, which drops empty texts at the end. -/
def classificationsOf (text : String) : List String :=
  ((text.toLower.splitOn ", ").reverse.dropWhile (· == "")).reverse

/-- The recommendation for an article. -/
def recommendation (clock : Clock) (a : Article) (doi : String) : Recommendation where
  year := clock.year
  month := clock.month
  doi := doi
  f1000Id := a.get "Id"
  url := a.get "Url"
  score := ((a.get "TotalScore").elim Value.nil Value.str).toI
  classifications := ((a.get "Classifications").map classificationsOf).getD []
  updatedAt := clock.updatedAt

/-- `item['Doi']`, of an article, an array and nil. -/
def Item.doi : Item → Except Raised (Option (Article × String))
  | .article a => .ok (a.doi.map (fun doi => (a, doi)))
  | .pair _ _ => .error ⟨"TypeError", "no implicit conversion of String into Integer"⟩
  | .nil => .error ⟨"NoMethodError", "undefined method `[]' for nil:NilClass"⟩

/-- The data for a document, with their `_rev`. -/
def updated (found : Except Couchable.ErrorHash (Document (List Recommendation)))
    (r : Recommendation) : Option Nat × List Recommendation :=
  match found with
  | .error _ => (none, [r])
  | .ok document => (some document.rev, replace Recommendation.period r document.body)

/-- The loop of `parse_feed`. -/
def parseItems (urlDb : String) (clock : Clock) :
    List Item → Couch (List Recommendation) → Except Raised Unit × Couch (List Recommendation)
  | [], couch => (.ok (), couch)
  | item :: rest, couch =>
    match item.doi with
    | .error e => (.error e, couch)
    | .ok none => (.ok (), couch)
    | .ok (some (a, doi)) =>
      let url := Couchable.documentUrl urlDb doi
      match Couchable.getResult couch url none with
      | .error e => (.error e, couch)
      | .ok found =>
        let (rev, data) := updated found (recommendation clock a doi)
        parseItems urlDb clock rest (Couchable.putLagottoData couch url rev data none).2

/-- `parse_feed` -/
def parseFeed (urlDb : String) (clock : Clock) (articles : List Article)
    (couch : Couch (List Recommendation)) : Except Raised Unit × Couch (List Recommendation) :=
  parseItems urlDb clock (recommendations articles) couch

end Lagotto.F1000
