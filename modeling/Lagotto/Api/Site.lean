/-
Lagotto.Api.Site — what the API reads: the database, with the columns no job
looks at, and the settings of the application.

The cached counts are not here. They are taken as up to date, so a cached
count is the count itself, and of the `status` table only its being empty
matters. Time stamps are kept beside the rows they belong to.
-/
import Lagotto.Model.Schema
import Lagotto.Retrieval.Periods
import Lagotto.Work.IdHash
import Mathlib.Data.List.Sort

namespace Lagotto.Api

open Relational

structure Publisher where
  name : String
  memberId : Int

/-- The tables behind the API. -/
structure Site extends Db where
  publishers : List Publisher := []
  /-- Whether `Status.first` is there. -/
  hasStatus : Bool := true
  /-- `sources.private` -/
  isPrivate : Nat → Bool := fun _ => false
  /-- `groups.name` -/
  groupName : Nat → String := fun _ => ""
  workCreatedAt : Nat → Time := fun _ => Time.epoch
  workUpdatedAt : Nat → Time := fun _ => Time.epoch
  statusUpdatedAt : Nat → Time := fun _ => Time.epoch
  mendeleyUuid : Nat → Option String := fun _ => none

/-- The libraries, the database's `LIKE` and what `ENV` says. -/
structure Settings extends Env where
  /-- `Addressable::URI.unencode` -/
  unencode : String → String
  /-- `value LIKE pattern` -/
  like : String → String → Bool
  viewed : Option String := none
  discussed : Option String := none
  saved : Option String := none
  cited : Option String := none

/-- What a request can fail with. -/
inductive ApiError where
  | recordNotFound (message : String)
  | statementInvalid
  | invalidPage
  | noMethodError
  | raised (message : String)
  deriving DecidableEq

/-- `text.split(",")`: without the empty strings at the end. -/
def splitComma (text : String) : List String :=
  (((text.toList.splitOn ',').map String.ofList).reverse.dropWhile (· == "")).reverse

/-- `get_clean_id` -/
def getCleanId (cfg : Settings) (id : String) : String :=
  if "10.".toList.isPrefixOf id.toList then cfg.unencode id
  else if "PMC".toList.isPrefixOf id.toList then String.ofList (id.toList.drop 3)
  else id

namespace Site

/-- `Source.accessible(role)`, for a client that is admin or staff or not. -/
def accessible (site : Site) (staff : Bool) (sourceId : Nat) : Bool :=
  !site.isPrivate sourceId || staff

/-- `Source.where(name: name).first` -/
def sourceNamed (cfg : Settings) (site : Site) (name : Option String) : Option Source :=
  site.sources.first (fun s => cfg.same (some s.name) name)

/-- The rows of `retrieval_statuses` a work is joined with. -/
def statusesOf (site : Site) (work : Work) : List RetrievalStatus :=
  site.retrievalStatuses.rows.filter (fun rs => rs.workId == work.id)

/-- Those of one source. -/
def statusesFor (site : Site) (sourceId : Nat) (work : Work) : List RetrievalStatus :=
  site.retrievalStatuses.rows.filter (fun rs => rs.workId == work.id && rs.sourceId == sourceId)

/-- `has_events.by_source` -/
def hasEvents (site : Site) (sourceId : Nat) (work : Work) : Bool :=
  (site.statusesFor sourceId work).any (fun rs => 0 < rs.metrics.total)

end Site

end Lagotto.Api
