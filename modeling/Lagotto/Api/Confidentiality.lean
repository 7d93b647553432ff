/-
Lagotto.Api.Confidentiality — what a client who is neither admin nor staff may
learn about the metrics of private sources: nothing.

`respond` puts the endpoints together. Two states of the database that differ
only in the metrics of private sources are a `Site` and the same site with
other `Measurements` (`SameInPublic`). `Confidential` says of one kind of
request that its responses do not tell such states apart. A kind keeps the
endpoint and the two parameters that name a source for the query, `source_id`
and `sort`; the other parameters are free.
-/
import Lagotto.Api.Responses
import Lagotto.Api.TotalsTheorems
import Lagotto.Relational.Visibility

namespace Lagotto.Api

open Relational

/-! ## Requests -/

inductive Request where
  | worksV6 (p : WorksParams)
  | workV6 (id : Option String)
  | eventsV6 (p : V6.EventsParams)
  | monthsV6 (sourceId : Option String)
  | worksV5 (p : WorksParams)
  | workV5 (id : Option String)
  | worksV3 (p : V3.Params)
  | workV3 (id : String) (p : V3.Params)

inductive Response where
  | worksV6 (listing : Listing V6.WorkView)
  | workV6 (work : V6.WorkView)
  | eventsV6 (listing : Listing V6.EventView)
  | monthsV6 (months : List V6.MonthView)
  | worksV5 (listing : Listing V5.WorkView)
  | workV5 (work : V5.WorkView)
  | worksV3 (works : List V3.WorkView)
  | workV3 (work : V3.WorkView)

def respond (cfg : Settings) (staff : Bool) (site : Site) : Request → Except ApiError Response
  | .worksV6 p => (V6.index cfg staff site p).map .worksV6
  | .workV6 id => (V6.showWork cfg staff site id).map .workV6
  | .eventsV6 p => (V6.eventsIndex cfg staff site p).map .eventsV6
  | .monthsV6 sourceId => (V6.monthsIndex cfg site sourceId).map .monthsV6
  | .worksV5 p => (V5.index cfg staff site p).map .worksV5
  | .workV5 id => (V5.showWork cfg site id).map .workV5
  | .worksV3 p => (V3.index cfg staff site p).map .worksV3
  | .workV3 id p => (V3.showWork cfg staff site id p).map .workV3

/-- The endpoint, and the sources the query is about. -/
inductive Kind where
  | worksV6 (sourceId sort : Option String)
  | workV6
  | eventsV6
  | monthsV6 (sourceId : Option String)
  | worksV5 (sourceId order : Option String)
  | workV5
  | worksV3
  | workV3

def Request.kind : Request → Kind
  | .worksV6 p => .worksV6 p.sourceId p.sort
  | .workV6 _ => .workV6
  | .eventsV6 _ => .eventsV6
  | .monthsV6 sourceId => .monthsV6 sourceId
  | .worksV5 p => .worksV5 p.sourceId p.sort
  | .workV5 _ => .workV5
  | .worksV3 _ => .worksV3
  | .workV3 _ _ => .workV3

/-! ## States -/

/-- The sources, and which of them are private. -/
structure Registry where
  sources : Table Source
  isPrivate : Nat → Bool

namespace Registry

def named (cfg : Settings) (registry : Registry) (name : Option String) : Option Source :=
  registry.sources.first (fun s => cfg.same (some s.name) name)

/-- The unique index on `sources.name`. -/
def UniqueNames (registry : Registry) : Prop := (registry.sources.rows.map (·.name)).Nodup

end Registry

def Site.registry (site : Site) : Registry := ⟨site.sources, site.isPrivate⟩

/-- The tables that hold metrics. -/
structure Measurements where
  retrievalStatuses : Table RetrievalStatus
  months : Table Month
  days : Table Day

def Site.withMeasurements (site : Site) (m : Measurements) : Site :=
  { site with retrievalStatuses := m.retrievalStatuses, months := m.months, days := m.days }

/-- A retrieval status without its metrics and its extra. -/
def RetrievalStatus.unmeasured (rs : RetrievalStatus) : RetrievalStatus :=
  { rs with metrics := {}, extra := .nil }

/-- The site has other measurements at most for private sources. -/
structure SameInPublic (site : Site) (m : Measurements) : Prop where
  unmeasured : m.retrievalStatuses.rows.map RetrievalStatus.unmeasured =
    site.retrievalStatuses.rows.map RetrievalStatus.unmeasured
  statuses : Agree (fun rs => !site.isPrivate rs.sourceId) m.retrievalStatuses.rows
    site.retrievalStatuses.rows
  months : Agree (fun row => !site.isPrivate row.sourceId) m.months.rows site.months.rows
  days : Agree (fun row => !site.isPrivate row.sourceId) m.days.rows site.days.rows

/-- Rows that hang on a retrieval status and repeat its source. -/
def Belong {ρ : Type} (statuses : Table RetrievalStatus) (statusId sourceId : ρ → Nat)
    (rows : List ρ) : Prop :=
  ∀ row ∈ rows, ∃ rs ∈ statuses.rows, rs.id = statusId row ∧ rs.sourceId = sourceId row

/-- What the schema enforces of the tables with metrics, and that a month or
a day has the source of its retrieval status. -/
structure Consistent (site : Site) : Prop where
  unique : UniqueStatuses site
  source : ∀ rs ∈ site.retrievalStatuses.rows, ∃ s ∈ site.sources.rows, s.id = rs.sourceId
  work : ∀ rs ∈ site.retrievalStatuses.rows, ∃ w ∈ site.works.rows, w.id = rs.workId
  months : Belong site.retrievalStatuses (·.retrievalStatusId) (·.sourceId) site.months.rows
  days : Belong site.retrievalStatuses (·.retrievalStatusId) (·.sourceId) site.days.rows

/-- No client but admin and staff can tell the states apart by requests of
this kind, whatever else is in the database and in the request. -/
def Confidential (cfg : Settings) (registry : Registry) (kind : Kind) : Prop :=
  ∀ request : Request, request.kind = kind → ∀ (site : Site) (m : Measurements),
    site.registry = registry → Consistent site → Consistent (site.withMeasurements m) →
    SameInPublic site m →
    respond cfg false (site.withMeasurements m) request = respond cfg false site request

/-! ## When nothing is learned -/

/-- The names the signposts are summed up over. -/
def Settings.signpostNames (cfg : Settings) : List String :=
  cfg.viewedNames ++ cfg.discussedNames ++ cfg.savedNames ++ [cfg.citedName]

namespace Registry

/-- The works are neither chosen nor ordered by a private source. -/
def PublicQuery (cfg : Settings) (registry : Registry) (sourceId sort : Option String) : Prop :=
  (∀ s ∈ registry.named cfg sourceId, registry.isPrivate s.id = false) ∧
  (registry.named cfg sourceId = none → ∀ name ∈ sort, ∀ s ∈ registry.named cfg (some name),
    registry.isPrivate s.id = false)

/-- No private source is one of those the signposts are summed up over. -/
def PublicSignposts (cfg : Settings) (registry : Registry) : Prop :=
  ∀ s ∈ registry.sources.rows, registry.isPrivate s.id = true → s.name ∉ cfg.signpostNames

end Registry

def Discreet (cfg : Settings) (registry : Registry) : Kind → Prop
  | .worksV6 sourceId sort => registry.PublicQuery cfg sourceId sort
  | .workV6 => True
  | .eventsV6 => True
  | .monthsV6 sourceId => ∀ s ∈ registry.named cfg sourceId, registry.isPrivate s.id = false
  | .worksV5 sourceId order =>
    registry.PublicQuery cfg sourceId order ∧ registry.PublicSignposts cfg
  | .workV5 => True
  | .worksV3 => registry.PublicSignposts cfg ∨
      ∀ s ∈ registry.sources.rows, registry.isPrivate s.id = true
  | .workV3 => registry.PublicSignposts cfg ∨
      ∀ s ∈ registry.sources.rows, registry.isPrivate s.id = true

end Lagotto.Api
