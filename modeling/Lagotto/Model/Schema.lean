/-
Lagotto.Model.Schema — the rows of `db/schema.rb` the models read and write.

Column names are the schema's. The bookkeeping columns `created_at` and
`updated_at` are kept only where a query reads them (`alerts.updated_at`).
Columns no modelled function touches are left out: `works.mendeley_uuid`,
`works.pid_type`, `sources.run_at`, `sources.description`, the trace and
request columns of `alerts`, the titles of `relation_types`.

Foreign keys matter where rows are deleted: every one of the five tables
below `works`, `sources` and `retrieval_statuses` is declared with
`on_delete: :cascade`, so `Db.deleteWorks` and `Db.deleteRetrievalStatuses`
take the dependent rows along.
-/
import Lagotto.Relational.Table
import Lagotto.Model.Calendar
import Lagotto.Model.SourceClass
import Lagotto.Model.Value

namespace Lagotto

open Relational

/-! ## Metrics -/

/-- The six counters of a retrieval status and of a month or day row. -/
structure Metrics where
  total : Int := 0
  pdf : Int := 0
  html : Int := 0
  readers : Int := 0
  comments : Int := 0
  likes : Int := 0
  deriving DecidableEq, Repr

inductive Metric where
  | total | pdf | html | readers | comments | likes
  deriving DecidableEq, Repr

def Metrics.get (m : Metrics) : Metric → Int
  | .total => m.total
  | .pdf => m.pdf
  | .html => m.html
  | .readers => m.readers
  | .comments => m.comments
  | .likes => m.likes

/-- Counter by counter, as the code subtracts two sets of counters. -/
instance : Sub Metrics where
  sub a b :=
    { total := a.total - b.total
      pdf := a.pdf - b.pdf
      html := a.html - b.html
      readers := a.readers - b.readers
      comments := a.comments - b.comments
      likes := a.likes - b.likes }

@[simp] theorem Metrics.get_sub (a b : Metrics) (m : Metric) :
    (a - b).get m = a.get m - b.get m := by
  cases m <;> rfl

@[simp] theorem Metrics.get_zero (m : Metric) : ({} : Metrics).get m = 0 := by
  cases m <;> rfl

/-- The counters of a hash that may lack some of the six keys. -/
structure Counts where
  total : Option Int := none
  pdf : Option Int := none
  html : Option Int := none
  readers : Option Int := none
  comments : Option Int := none
  likes : Option Int := none
  deriving DecidableEq, Repr

/-- `item.fetch(:total, 0)` and so on for all six. -/
def Counts.fetch (c : Counts) : Metrics where
  total := c.total.getD 0
  pdf := c.pdf.getD 0
  html := c.html.getD 0
  readers := c.readers.getD 0
  comments := c.comments.getD 0
  likes := c.likes.getD 0

/-- A hash with all six keys. -/
def Metrics.toCounts (m : Metrics) : Counts where
  total := some m.total
  pdf := some m.pdf
  html := some m.html
  readers := some m.readers
  comments := some m.comments
  likes := some m.likes

@[simp] theorem Metrics.fetch_toCounts (m : Metrics) : m.toCounts.fetch = m := rfl

/-! ## Rows -/

structure RetrievalStatus where
  id : Nat := 0
  workId : Nat
  sourceId : Nat
  queuedAt : Option Time := none
  retrievedAt : Time := Time.epoch
  scheduledAt : Time := Time.epoch
  metrics : Metrics := {}
  eventsUrl : Option String := none
  extra : Value := .nil

/-- Not marked as queued. -/
def RetrievalStatus.Unqueued (rs : RetrievalStatus) : Prop := rs.queuedAt = none

structure Month where
  id : Nat := 0
  retrievalStatusId : Nat
  workId : Nat
  sourceId : Nat
  year : Int
  month : Int
  metrics : Metrics
  deriving DecidableEq, Repr

structure Day where
  id : Nat := 0
  retrievalStatusId : Nat
  workId : Nat
  sourceId : Nat
  year : Int
  month : Int
  day : Int
  metrics : Metrics
  deriving DecidableEq, Repr

/-- The string columns of `works` that hold an identifier. -/
inductive Column where
  | doi | pmid | pmcid | arxiv | ark | canonicalUrl | wos | scp | dataone | pid
  deriving DecidableEq, Repr

/-- A work; `col` holds its identifier columns, with `none` for NULL. -/
@[ext] structure Work where
  id : Nat := 0
  col : Column → Option String := fun _ => none
  title : Option String := none
  year : Option Int := some 1970
  month : Option Int := none
  day : Option Int := none
  publishedOn : Option Date := none
  publisherId : Option Int := none
  workTypeId : Option Nat := none
  registrationAgency : Option String := none
  csl : Value := .nil
  tracked : Bool := false

structure WorkType where
  id : Nat := 0
  name : String

structure RelationType where
  id : Nat := 0
  name : String
  inverseName : Option String
  level : Int := 1

structure Relation where
  id : Nat := 0
  workId : Nat
  relatedWorkId : Nat
  sourceId : Option Nat
  relationTypeId : Nat
  level : Int
  deriving DecidableEq, Repr

structure Alert where
  id : Nat := 0
  message : String
  className : String
  targetUrl : Option String := none
  status : Option Int := none
  level : Int := 3
  sourceId : Option Nat := none
  workId : Option Nat := none
  unresolved : Bool := true
  updatedAt : Time := Time.epoch
  deriving DecidableEq, Repr

/-- The states of `Statable`, with the values stored in `sources.state`. -/
inductive SourceState where
  | available | retired | inactive | disabled | waiting | working
  deriving DecidableEq, Repr

def SourceState.value : SourceState → Nat
  | .available => 0
  | .retired => 1
  | .inactive => 2
  | .disabled => 3
  | .waiting => 5
  | .working => 6

/-- `active?` as `Statable` defines it per state: a disabled source is still
active. -/
def SourceState.active : SourceState → Bool
  | .available | .retired | .inactive => false
  | .disabled | .waiting | .working => true

/-- `installed?`. -/
def SourceState.installed : SourceState → Bool
  | .available => false
  | _ => true

/-- The serialised `config`: `none` and `nil` are settings never made, for
which `Configurable` has defaults. `fields` holds the current value of every
field of the source's `config_fields`. -/
structure SourceConfig where
  timeout : Option Int := none
  maxFailedQueries : Option Int := none
  rateLimiting : Option Int := none
  jobBatchSize : Option Int := none
  stalenessWeek : Option Int := none
  stalenessMonth : Option Int := none
  stalenessYear : Option Int := none
  stalenessAll : Option Int := none
  cronLine : Option String := none
  tracked : Value := .nil
  obsolete : Value := .nil
  fields : List (String × Value) := []

structure Source where
  id : Nat := 0
  type : SourceClass
  name : String
  title : String
  groupId : Nat := 1
  state : SourceState := .available
  config : SourceConfig := {}

/-! ## Keys -/

instance : Row RetrievalStatus :=
  ⟨(·.id), fun n r => { r with id := n }, fun _ _ => rfl, fun _ => rfl⟩
instance : Row Month := ⟨(·.id), fun n r => { r with id := n }, fun _ _ => rfl, fun _ => rfl⟩
instance : Row Day := ⟨(·.id), fun n r => { r with id := n }, fun _ _ => rfl, fun _ => rfl⟩
instance : Row Work := ⟨(·.id), fun n r => { r with id := n }, fun _ _ => rfl, fun _ => rfl⟩
instance : Row WorkType := ⟨(·.id), fun n r => { r with id := n }, fun _ _ => rfl, fun _ => rfl⟩
instance : Row RelationType := ⟨(·.id), fun n r => { r with id := n }, fun _ _ => rfl, fun _ => rfl⟩
instance : Row Relation := ⟨(·.id), fun n r => { r with id := n }, fun _ _ => rfl, fun _ => rfl⟩
instance : Row Alert := ⟨(·.id), fun n r => { r with id := n }, fun _ _ => rfl, fun _ => rfl⟩
instance : Row Source := ⟨(·.id), fun n r => { r with id := n }, fun _ _ => rfl, fun _ => rfl⟩

/-! ## The database -/

/-- What is put on the job queue, with its arguments. -/
inductive Job where
  | insertRetrieval (sourceId : Nat)
  | cache (sourceId : Nat)
  | source (rsIds : List Nat) (sourceId : Nat)
  | couchdbImport (rsIds : List Nat)
  deriving DecidableEq, Repr

/-- The arguments of a `SourceJob`. -/
def Job.sourceArguments : Job → Option (List Nat × Nat)
  | .source rsIds sourceId => some (rsIds, sourceId)
  | _ => none

structure Db where
  sources : Table Source := .empty
  works : Table Work := .empty
  workTypes : Table WorkType := .empty
  relationTypes : Table RelationType := .empty
  relations : Table Relation := .empty
  retrievalStatuses : Table RetrievalStatus := .empty
  months : Table Month := .empty
  days : Table Day := .empty
  alerts : Table Alert := .empty
  queue : List Job := []

namespace Db

/-- `Source.find`, if there is one. -/
def findSource (db : Db) (id : Nat) : Option Source := db.sources.first (fun s => s.id == id)

/-- The state stored for a source. -/
def stateOf (db : Db) (id : Nat) : Option SourceState := (db.findSource id).map (·.state)

/-- The `SourceJob`s on the queue, as their arguments. -/
def sourceJobs (db : Db) : List (List Nat × Nat) := db.queue.filterMap Job.sourceArguments

/-- `Alert.where(message: …).where(unresolved: true).first_or_create(…)`, with
the key by which the database compares strings. -/
def fileAlert (collate : String → String) (db : Db) (alert : Alert) : Db :=
  { db with
    alerts := (db.alerts.firstOrCreate
      (fun a => a.unresolved && collate a.message == collate alert.message) alert).1 }

/-- `DELETE FROM retrieval_statuses WHERE p`, with the months and days that
hang on the deleted rows. -/
def deleteRetrievalStatuses (db : Db) (p : RetrievalStatus → Bool) : Db :=
  let gone := (db.retrievalStatuses.rows.filter p).map (·.id)
  { db with
    retrievalStatuses := db.retrievalStatuses.deleteAll p
    months := db.months.deleteAll (fun m => gone.contains m.retrievalStatusId)
    days := db.days.deleteAll (fun d => gone.contains d.retrievalStatusId) }

/-- `DELETE FROM works WHERE p`: relations hang on a work from either side. -/
def deleteWorks (db : Db) (p : Work → Bool) : Db :=
  let gone := (db.works.rows.filter p).map (·.id)
  { db.deleteRetrievalStatuses (fun r => gone.contains r.workId) with
    works := db.works.deleteAll p
    relations := db.relations.deleteAll
      (fun r => gone.contains r.workId || gone.contains r.relatedWorkId)
    months := (db.deleteRetrievalStatuses (fun r => gone.contains r.workId)).months.deleteAll
      (fun m => gone.contains m.workId)
    days := (db.deleteRetrievalStatuses (fun r => gone.contains r.workId)).days.deleteAll
      (fun d => gone.contains d.workId) }

/-- `destroy_all` on works: the unresolved alerts of a work are destroyed with
it (`has_many :alerts, dependent: :destroy` under the default scope of
`Alert`), the rest is left to the foreign keys. -/
def destroyWorks (db : Db) (p : Work → Bool) : Db :=
  let gone := (db.works.rows.filter p).map (·.id)
  { db.deleteWorks p with
    alerts := db.alerts.deleteAll
      (fun a => a.unresolved && gone.any (fun id => a.workId == some id)) }

end Db

/-- A Ruby exception. -/
structure Raised where
  className : String
  message : String
  deriving DecidableEq, Repr

end Lagotto
