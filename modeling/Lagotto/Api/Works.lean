/-
Lagotto.Api.Works — which works the index of v6 and of v5 selects, in which
order, and the total it reports.

The query is built in three steps, as in the controllers: `get_ids` chooses
the works, `get_class_name` keeps those with an unresolved alert, and
`get_sort` (`get_order` in v5) orders them, which may join them with the
retrieval statuses of a source and so choose again. A query under
construction is a `Collection`: the rows, and whether they are joined. An
`ORDER BY` on a table that is not joined is an error of the database.

The total does not come from the query. `get_total_entries` has a `case` of
its own over the same parameters.
-/
import Lagotto.Api.Site

namespace Lagotto.Api

open Relational

/-- The parameters of the index; v5 calls `sort` `order`. -/
structure WorksParams where
  ids : Option String := none
  type : Option String := none
  q : Option String := none
  sourceId : Option String := none
  publisherId : Option String := none
  className : Option String := none
  sort : Option String := none
  info : Option String := none
  page : Option Int := none
  perPage : Option Int := none

/-- A query: works, with the retrieval status they are joined with. -/
structure Collection where
  joined : Bool
  hits : List (Work × Option RetrievalStatus)

namespace Collection

def of (works : List Work) : Collection := ⟨false, works.map (fun w => (w, none))⟩

/-- `where` -/
def filter (c : Collection) (p : Work × Option RetrievalStatus → Bool) : Collection :=
  { c with hits := c.hits.filter p }

/-- `joins(:retrieval_statuses).where("retrieval_statuses.source_id = ?", id)` -/
def join (site : Site) (c : Collection) (sourceId : Nat) : Collection where
  joined := true
  hits := c.hits.flatMap (fun hit =>
    (site.statusesFor sourceId hit.1).map (fun rs => (hit.1, some rs)))

/-- The `total` of the row joined with. -/
def total (hit : Work × Option RetrievalStatus) : Int := (hit.2.map (·.metrics.total)).getD 0

/-- `order("retrieval_statuses.total DESC")` -/
def orderByTotal (c : Collection) : Except ApiError Collection :=
  if c.joined then .ok { c with hits := c.hits.insertionSort (fun a b => total b ≤ total a) }
  else .error .statementInvalid

/-- NULL comes last. -/
def publishedLater (a b : Option Date) : Bool :=
  match a, b with
  | _, none => true
  | none, some _ => false
  | some a, some b => b.toDays ≤ a.toDays

/-- `order("works.published_on DESC")` -/
def orderByPublishedOn (c : Collection) : Collection :=
  let later := fun a b : Work × Option RetrievalStatus =>
    publishedLater a.1.publishedOn b.1.publishedOn
  { c with hits := c.hits.insertionSort (fun a b => later a b) }

/-- `order("works.created_at ASC")` -/
def orderByCreatedAt (site : Site) (c : Collection) : Collection :=
  let createdAt := fun hit : Work × Option RetrievalStatus => site.workCreatedAt hit.1.id
  { c with hits := c.hits.insertionSort (fun a b => createdAt a ≤ createdAt b) }

end Collection

/-! ## The steps -/

/-- `["doi", …].find { |t| t == params[:type] } || default`, as a column. -/
def typeColumn (columns : List (String × Column)) (default : Column) (type : Option String) :
    Column :=
  ((columns.find? (fun entry => some entry.1 == type)).map Prod.snd).getD default

/-- The branches of `get_ids` for `ids`, `q` and a source that is found. -/
def listed (cfg : Settings) (site : Site) (column : Column) (p : WorksParams)
    (source : Option Source) (fallback : Collection) : Collection :=
  match p.ids with
  | some ids =>
    let ids := (splitComma ids).map (getCleanId cfg)
    .of (site.works.rows.filter (fun w => ids.any (fun id => cfg.same (w.col column) (some id))))
  | none =>
    match p.q with
    | some q =>
      .of (site.works.rows.filter (fun w => (w.col .pid).any (cfg.like ("%" ++ q ++ "%"))))
    | none =>
      match source with
      | some source =>
        ((Collection.of site.works.rows).join site source.id).filter
          (fun hit => 0 < Collection.total hit)
      | none => fallback

/-- `get_class_name`, if there is the parameter. -/
def getClassName (cfg : Settings) (site : Site) (p : WorksParams) (c : Collection) : Collection :=
  match p.className with
  | none => c
  | some className =>
    c.filter (fun hit => site.alerts.rows.any (fun alert =>
      alert.workId == some hit.1.id && alert.unresolved &&
        (className == "All Alerts" || cfg.same (some alert.className) (some className))))

/-- The first two branches of `get_sort` and `get_order`: by the total of a
source. -/
def sortBySource (cfg : Settings) (site : Site) (p : WorksParams) (source : Option Source)
    (c : Collection) : Option (Except ApiError Collection) :=
  match p.sort, source with
  | none, _ => none
  | some sort, some _ => if p.sourceId = some sort then some c.orderByTotal else none
  | some sort, none =>
    (site.sourceNamed cfg (some sort)).map (fun other => (c.join site other.id).orderByTotal)

/-- `get_total_entries`: nil for what cannot be cached. -/
def totalEntries (site : Site) (p : WorksParams) (source : Option Source)
    (publisher : Option Publisher) : Option Nat :=
  if p.ids.isSome || p.q.isSome || p.className.isSome then none
  else
    let ofPublisher := fun (publisher : Publisher) (w : Work) =>
      w.publisherId == some publisher.memberId
    match source, publisher with
    | some source, some publisher =>
      some (site.works.rows.filter
        (fun w => ofPublisher publisher w && site.hasEvents source.id w)).length
    | some source, none => some (site.works.rows.filter (site.hasEvents source.id)).length
    | none, some publisher => some (site.works.rows.filter (ofPublisher publisher)).length
    | none, none =>
      if site.hasStatus then some (site.works.rows.filter (·.tracked)).length else none

/-! ## v6 -/

namespace V6

def columns : List (String × Column) :=
  [("doi", .doi), ("pmid", .pmid), ("pmcid", .pmcid), ("arxiv", .arxiv), ("wos", .wos),
   ("scp", .scp), ("ark", .ark), ("dataone", .dataone), ("url", .canonicalUrl)]

/-- `Publisher.where(name: params[:publisher_id]).first` -/
def publisher (cfg : Settings) (site : Site) (p : WorksParams) : Option Publisher :=
  site.publishers.find? (fun publisher => cfg.same (some publisher.name) p.publisherId)

def getIds (cfg : Settings) (site : Site) (p : WorksParams) : Collection :=
  listed cfg site (typeColumn columns .pid p.type) p (site.sourceNamed cfg p.sourceId)
    (match publisher cfg site p with
    | some publisher =>
      .of (site.works.rows.filter (fun w => w.publisherId == some publisher.memberId))
    | none => .of (site.works.rows.filter (·.tracked)))

def getSort (cfg : Settings) (site : Site) (p : WorksParams) (c : Collection) :
    Except ApiError Collection :=
  match sortBySource cfg site p (site.sourceNamed cfg p.sourceId) c with
  | some sorted => sorted
  | none =>
    if p.sort = some "created_at" then .ok (c.orderByCreatedAt site) else .ok c.orderByPublishedOn

/-- The works of the index, in order. -/
def selected (cfg : Settings) (site : Site) (p : WorksParams) : Except ApiError (List Work) :=
  (getSort cfg site p (getClassName cfg site p (getIds cfg site p))).map
    (fun c => c.hits.map Prod.fst)

/-- The `total_entries` of the index, nil for the number of works selected. -/
def total (cfg : Settings) (site : Site) (p : WorksParams) : Option Nat :=
  totalEntries site p (site.sourceNamed cfg p.sourceId) (publisher cfg site p)

end V6

/-! ## v5 -/

namespace V5

def columns : List (String × Column) :=
  [("doi", .doi), ("pmid", .pmid), ("pmcid", .pmcid), ("arxiv", .arxiv), ("wos", .wos),
   ("scp", .scp), ("url", .canonicalUrl)]

/-- `Publisher.where(member_id: params[:publisher_id]).first` -/
def publisher (site : Site) (p : WorksParams) : Option Publisher :=
  p.publisherId.bind (fun id => site.publishers.find? (fun publisher =>
    publisher.memberId == Value.toI (.str id)))

def getIds (cfg : Settings) (site : Site) (p : WorksParams) : Collection :=
  listed cfg site (typeColumn columns .doi p.type) p (site.sourceNamed cfg p.sourceId)
    (.of site.works.rows)

def getOrder (cfg : Settings) (site : Site) (p : WorksParams) (c : Collection) :
    Except ApiError Collection :=
  match sortBySource cfg site p (site.sourceNamed cfg p.sourceId) c with
  | some sorted => sorted
  | none => .ok c.orderByPublishedOn

/-- The works of the index, in order; those of the publisher if it is found. -/
def selected (cfg : Settings) (site : Site) (p : WorksParams) : Except ApiError (List Work) :=
  (getOrder cfg site p (getClassName cfg site p (getIds cfg site p))).map (fun c =>
    let c := match publisher site p with
      | some publisher => c.filter (fun hit => hit.1.publisherId == some publisher.memberId)
      | none => c
    c.hits.map Prod.fst)

def total (cfg : Settings) (site : Site) (p : WorksParams) : Option Nat :=
  totalEntries site p (site.sourceNamed cfg p.sourceId) (publisher site p)

end V5

end Lagotto.Api
