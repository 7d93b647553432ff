/-
Lagotto.Source.Queueing — putting retrieval statuses on the job queue
(`app/models/source.rb`, `lib/tasks/queue.rake`).

`queue_all_works` selects ids, `queue_work_jobs` cuts a list of ids into
slices, marks each slice with `queued_at` and enqueues a job for it. The mark
is what keeps a retrieval status from being selected again, but only the
`stale` scope looks at it: with the option `:all` the scope is left out.

Both `queue_work_jobs` and `queue_import_jobs` fire `wait` on an empty list.
`toSlices` is what the two have in common; what they do with a slice differs.
`Lagotto.Jobs.Application` goes through the slices one by one.
-/
import Mathlib.Data.List.Sort
import Lagotto.Interaction.Batch
import Lagotto.Source.Statable

namespace Lagotto

open Interaction

/-- The options of `queue_all_works`. -/
structure QueueOptions where
  all : Bool := false
  startDate : Option Date := none
  endDate : Option Date := none

/-- `where("works.published_on" => start_date..end_date)`, if both are given. -/
def QueueOptions.covers (options : QueueOptions) (work : Work) : Bool :=
  match options.startDate, options.endDate with
  | some startDate, some endDate =>
    match work.publishedOn with
    | some date => startDate.toDays ≤ date.toDays && date.toDays ≤ endDate.toDays
    | none => false
  | _, _ => true

/-- `scope :stale`: not queued, and due. -/
def RetrievalStatus.stale (rs : RetrievalStatus) (now : Time) : Bool :=
  rs.queuedAt.isNone && rs.scheduledAt ≤ now

namespace Source

/-- The conditions of the query: `tracked` joins the work. -/
def selects (s : Source) (options : QueueOptions) (now : Time) (db : Db)
    (rs : RetrievalStatus) : Bool :=
  rs.sourceId == s.id &&
    match db.works.first (fun work => work.id == rs.workId) with
    | none => false
    | some work => work.tracked && options.covers work && (options.all || rs.stale now)

/-- The ids `queue_all_works` plucks. The order of `stale` comes before that
by id. -/
def worksToQueue (s : Source) (options : QueueOptions) (now : Time) (db : Db) : List Nat :=
  let rows := db.retrievalStatuses.rows.filter (s.selects options now db)
  let rows :=
    if options.all then rows
    else rows.insertionSort (fun a b => a.scheduledAt < b.scheduledAt ∨
      (a.scheduledAt = b.scheduledAt ∧ a.id ≤ b.id))
  rows.map (·.id)

/-- The ids `import_from_couchdb` plucks. -/
def worksToImport (s : Source) (db : Db) : List Nat :=
  (db.retrievalStatuses.rows.filter (fun rs => rs.sourceId == s.id)).map (·.id)

/-- What stands before the loop of `queue_work_jobs` and `queue_import_jobs`,
and the slices the loop is over. -/
def toSlices (validCron : String → Bool) (s : Source) (rsIds : List Nat) (w : World) :
    Except Raised (List (List Nat)) × Source × World :=
  if !s.state.active then (.ok [], s, w)
  else if rsIds.length = 0 then
    let (_, s, w) := s.fireEvent validCron .wait w
    (.ok [], s, w)
  else if s.jobBatchSize ≤ 0 then (.error ⟨"ArgumentError", "invalid slice size"⟩, s, w)
  else (.ok (Batch.eachSlice s.jobBatchSize.toNat rsIds), s, w)

/-- The body of the loop of `queue_work_jobs`. -/
def queueSlice (s : Source) (now : Time) (rsIds : List Nat) (db : Db) : Db :=
  { db with
    retrievalStatuses := db.retrievalStatuses.updateAll (fun rs => rsIds.contains rs.id)
      (fun rs => { rs with queuedAt := some now })
    queue := db.queue ++ [.source rsIds s.id] }

/-- The body of the loop of `queue_import_jobs`. -/
def importSlice (rsIds : List Nat) (db : Db) : Db :=
  { db with queue := db.queue ++ [.couchdbImport rsIds] }

/-- `queue:reset`, for one of the active sources. -/
def resetQueue (s : Source) (db : Db) : Db :=
  { db with
    retrievalStatuses := db.retrievalStatuses.updateAll
      (fun rs => rs.sourceId == s.id && rs.queuedAt.isSome)
      (fun rs => { rs with queuedAt := none }) }

end Source

end Lagotto
