/-
Lagotto.Jobs.SourceJob — the job that updates a batch of retrieval statuses
(`app/jobs/source_job.rb`).

For every id the job fires `work_after_check`, gives up unless that leaves the
source working, gives up if the source's wait time is above 5 seconds, and
otherwise has the retrieval status fetch its data. It holds one `Source`
object from beginning to end; the retrieval status loads its own.

Nothing between two items is caught: the first exception ends the batch and is
left to the `rescue_from` handlers. They are searched from the last one
declared to the first, and the last one declared takes every `StandardError`.
-/
import Lagotto.Interaction.Batch
import Lagotto.Retrieval.PerformGetData
import Lagotto.Source.Statable

namespace Lagotto

open Interaction
open Relational

namespace SourceJob

/-- What `perform_get_data` meets when it is called: the collaborators of the
models, the servers, the moment, and the source classes' own methods. -/
structure Occasion where
  env : Env
  web : Web
  moment : Moment
  adapter : SourceClass → Adapter

/-- A job under way: its `Source` object, the world, and the occasions to
come. -/
structure Progress where
  source : Source
  world : World
  occasions : Nat → Occasion

def notWorking (s : Source) : Raised :=
  ⟨"CustomError::SourceInactiveError", s.title ++ " is not in working state"⟩

def waitTooLong (s : Source) (wait : ℚ) : Raised :=
  ⟨"CustomError::TooManyRequestsError",
    "Wait time too long (" ++ toString ⌊wait⌋ ++ " sec) for " ++ s.title⟩

def recordNotFound : Raised := ⟨"ActiveRecord::RecordNotFound", "ActiveRecord::RecordNotFound"⟩

/-- The two checks before a request. What happens while the job sleeps is part
of the world's next change. -/
def check (validCron : String → Bool) (p : Progress) : Except Raised Unit × Progress :=
  let (_, s, w) := p.source.fireEvent validCron .workAfterCheck p.world
  if s.state ≠ .working then (.error (notWorking s), { p with source := s, world := w })
  else
    let (wait, w) := s.waitTime w
    if 5 < wait then (.error (waitTooLong s wait), { p with source := s, world := w })
    else (.ok (), { p with source := s, world := w })

/-- `RetrievalStatus.where(id: rs_id).first` and its work. -/
def lookup (rsId : Nat) (db : Db) : Except Raised (RetrievalStatus × Work) :=
  match db.retrievalStatuses.first (fun rs => rs.id == rsId) with
  | none => .error recordNotFound
  | some rs =>
    match db.works.first (fun work => work.id == rs.workId) with
    | none => .error recordNotFound
    | some work => .ok (rs, work)

/-- What comes before `perform_get_data` in an iteration. -/
def prepare (validCron : String → Bool) (rsId : Nat) (p : Progress) :
    Except Raised (RetrievalStatus × Work) × Progress :=
  match check validCron p with
  | (.error e, p) => (.error e, p)
  | (.ok (), p) => (lookup rsId p.world.db, p)

/-- Whether the iteration calls `perform_get_data`. -/
def requests (validCron : String → Bool) (rsId : Nat) (p : Progress) : Bool :=
  (prepare validCron rsId p).1.isOk

/-- `rs.perform_get_data`, on the source the retrieval status belongs to. A
foreign key keeps that source in the table. -/
def request (occasion : Occasion) (rs : RetrievalStatus) (work : Work) (db : Db) :
    Except Raised Summary × Db :=
  match db.sources.first (fun source => source.id == rs.sourceId) with
  | none => (.error ⟨"NoMethodError", "undefined method `timeout' for nil:NilClass"⟩, db)
  | some source =>
    Retrieval.performGetData occasion.env occasion.web occasion.moment
      (occasion.adapter source.type) { rs := rs, source := source, work := work } db

/-- The body of the loop. -/
def iteration (validCron : String → Bool) (rsId : Nat) (p : Progress) :
    Except Raised Unit × Progress :=
  match prepare validCron rsId p with
  | (.error e, p) => (.error e, p)
  | (.ok (rs, work), p) =>
    let (result, db) := request (p.occasions 0) rs work p.world.db
    (result.map fun _ => (),
      { p with
        world := { p.world with db := db }
        occasions := fun n => p.occasions (n + 1) })

/-- `perform`, with the iterations it has begun. -/
def perform (validCron : String → Bool) (rsIds : List Nat) (p : Progress) :
    List (Nat × Progress) × Except Raised Unit × Progress :=
  Batch.run (iteration validCron) rsIds p

/-! ## Callbacks -/

/-- The three `rescue_from` declarations. -/
inductive Handler where
  | ignore | retry | report
  deriving DecidableEq, Repr

namespace Handler

/-- In the order of the file. -/
def declared : List Handler := [.ignore, .retry, .report]

def classes : Handler → List String
  | ignore => ["CustomError::SourceInactiveError"]
  | retry =>
    ["CustomError::TooManyRequestsError", "ActiveRecord::ConnectionTimeoutError",
     "Net::ReadTimeout"]
  | report => ["StandardError"]

/-- `exception.is_a?` for one of the classes; what the models raise is a
`StandardError`. -/
def handles (h : Handler) (e : Raised) : Bool :=
  h.classes.any (fun className => className == "StandardError" || className == e.className)

/-- `handler_for_rescue`. -/
def handlerFor (e : Raised) : Option Handler := declared.reverse.find? (·.handles e)

end Handler

/-- `RetrievalStatus.where("id in (?)", rs_ids).update_all(queued_at: nil)`. -/
def clearQueuedAt (rsIds : List Nat) (db : Db) : Db :=
  { db with
    retrievalStatuses := db.retrievalStatuses.updateAll (fun rs => rsIds.contains rs.id)
      (fun rs => { rs with queuedAt := none }) }

/-- The block of a handler. -/
def Handler.rescue (rsIds : List Nat) (s : Source) (e : Raised) (w : World) : Handler → Db
  | .ignore => w.db
  | .retry => { w.db with queue := w.db.queue ++ [.source rsIds s.id] }
  | .report =>
    (clearQueuedAt rsIds w.db).fileAlert w.collate
      { message := e.message, className := e.className, sourceId := some s.id
        updatedAt := ⌊w.now⌋ }

/-- `after_perform`. -/
def afterPerform (validCron : String → Bool) (rsIds : List Nat) (p : Progress) : Progress :=
  let w := { p.world with db := clearQueuedAt rsIds p.world.db }
  let (_, s, w) := p.source.fireEvent validCron .waitAfterCheck w
  { p with source := s, world := w }

/-- `perform_now`: the job with its callbacks. -/
def performNow (validCron : String → Bool) (rsIds : List Nat) (p : Progress) :
    Except Raised Unit × Progress :=
  match (perform validCron rsIds p).2 with
  | (.ok (), p) => (.ok (), afterPerform validCron rsIds p)
  | (.error e, p) =>
    match Handler.handlerFor e with
    | none => (.error e, p)
    | some h =>
      (.ok (), { p with world := { p.world with db := h.rescue rsIds p.source e p.world } })

end SourceJob

end Lagotto
