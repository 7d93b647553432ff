/-
Lagotto.Source.Pmc — usage statistics from PubMed Central
(`app/models/sources/pmc.rb`).

PMC gives the usage of a journal as one file for each month. `parse_feed` goes
through the articles of the file, and adds the usage of each article to the
document of its work: `parse_work` reads the document and replaces the entry
for the month, `save_work` writes it back.

What the network does to the three requests for an article is a part of the
input. The state has the documents, and beside them, for each DOI, the entries
whose save has succeeded.
-/
import Lagotto.Documents.Latest
import Lagotto.Source.Couchable
import Lagotto.StateMachine.Runs

namespace Lagotto.Pmc

open Documents
open StateMachine

/-! ## Feeds -/

/-- An entry of `views`; `usage` has the attributes other than year and month. -/
structure View where
  year : String
  month : String
  usage : List (String × String)
  deriving DecidableEq, Repr

/-- The month an entry is for. -/
def View.period (v : View) : String × String := (v.month, v.year)

/-- An `article` element. -/
structure Article where
  doi : Option String
  usage : Option (List (String × String))

/-- The failures of the requests for an article, if they fail. -/
structure Network where
  get : Option Failure := none
  head : Option Failure := none
  put : Option Failure := none

/-- An article of the feed for a month, and the fate of its requests; `month`
and `year` are what `to_s` gives. -/
structure Visit where
  month : String
  year : String
  article : Article
  network : Network := {}

/-- A file from PMC. A status other than 0 comes with an error. -/
structure Feed where
  month : String
  year : String
  error : Option String := none
  articles : List (Article × Network)

/-! ## `parse_feed` -/

/-- The documents, and the entries that have been saved. -/
structure State where
  couch : Couch (List View) := Store.empty
  saved : String → List View := fun _ => []

variable (urlDb : String)

/-- `parse_work`: the DOI, the data for its document with their `_rev`, and the
entry among them. -/
def parseWork (couch : Couch (List View)) (v : Visit) :
    Except Raised (Option (String × Option Nat × List View × View)) :=
  match presence v.article.doi with
  | none => .ok none
  | some doi =>
    match v.article.usage with
    | none => .error ⟨"NoMethodError", "undefined method `[]=' for nil:NilClass"⟩
    | some usage =>
      let view : View := ⟨v.year, v.month, usage⟩
      match Couchable.getResult couch (Couchable.documentUrl urlDb doi) v.network.get with
      | .error e => .error e
      | .ok (.error _) => .ok (some (doi, none, [view], view))
      | .ok (.ok document) =>
        .ok (some (doi, some document.rev, replace View.period view document.body, view))

/-- The block of `parse_feed`. -/
def visit (v : Visit) (s : State) : Except Raised Unit × State :=
  match parseWork urlDb s.couch v with
  | .error e => (.error e, s)
  | .ok none => (.ok (), s)
  | .ok (some (doi, rev, data, view)) =>
    match Couchable.saveLagottoData s.couch (Couchable.documentUrl urlDb doi) rev data
        v.network.head v.network.put with
    | (.error e, _) => (.error e, s)
    | (.ok (.error _), couch) => (.ok (), { s with couch := couch })
    | (.ok (.ok _), couch) =>
      (.ok (), { couch := couch
                 saved := fun d => if d = doi then s.saved d ++ [view] else s.saved d })

/-- The loop of `parse_feed`. -/
def visits : List Visit → State → Except Raised Unit × State
  | [], s => (.ok (), s)
  | v :: rest, s =>
    match visit urlDb v s with
    | (.error e, s) => (.error e, s)
    | (.ok (), s) => visits rest s

/-- The visits a feed asks for. -/
def Feed.visits (feed : Feed) : List Visit :=
  match feed.error with
  | some _ => []
  | none => feed.articles.map (fun a => ⟨feed.month, feed.year, a.1, a.2⟩)

/-- `parse_feed`; the alert for a feed with an error is left out. -/
def parseFeed (feed : Feed) (s : State) : Except Raised Unit × State :=
  Pmc.visits urlDb feed.visits s

end Lagotto.Pmc
