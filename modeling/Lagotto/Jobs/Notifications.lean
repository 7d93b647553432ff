/-
Lagotto.Jobs.Notifications — the API responses a `SourceJob` leaves behind
(`config/initializers/notifications.rb`, `app/jobs/source_job.rb`).

The job calls `perform_get_data` in a block given to `instrument`, and a
subscriber writes the row from the payload that the block fills in at its end.
`instrument` notifies the subscribers also when the block raises. The payload
is empty then, and the row gets the defaults of the subscriber.

`recordedIteration` is `SourceJob.iteration` with the table of API responses
beside it.
-/
import Lagotto.Filter.ApiResponse
import Lagotto.Jobs.SourceJob

namespace Lagotto

open Interaction
open Relational

namespace SourceJob

/-- When an instrumented block was entered and left, in seconds, and the time
stamp of the row. -/
structure Timing where
  start : ℚ
  finish : ℚ
  createdAt : Time

/-- The payload of `api_response.get`. -/
structure Payload where
  workId : Option Nat := none
  sourceId : Option Nat := none
  retrievalStatusId : Option Nat := none
  skipped : Option Bool := none
  total : Option Int := none
  previousTotal : Option Int := none
  html : Option Int := none
  pdf : Option Int := none
  updateInterval : Option Int := none
  deriving DecidableEq, Repr

/-- `response.merge!(rs.perform_get_data)` and `payload.merge!(response)` -/
def Payload.merge (rs : RetrievalStatus) (summary : Summary) : Payload where
  workId := some rs.workId
  sourceId := some rs.sourceId
  retrievalStatusId := some rs.id
  skipped := some summary.skipped
  total := some summary.total
  previousTotal := some summary.previousTotal
  html := some summary.html
  pdf := some summary.pdf
  updateInterval := some summary.updateInterval

/-- The row the subscriber creates. -/
def subscriber (timing : Timing) (payload : Payload) : ApiResponse where
  workId := payload.workId
  sourceId := payload.sourceId
  retrievalStatusId := payload.retrievalStatusId
  skipped := payload.skipped.getD false
  total := payload.total.getD 0
  previousTotal := some (payload.previousTotal.getD 0)
  html := payload.html.getD 0
  pdf := payload.pdf.getD 0
  updateInterval := some (payload.updateInterval.getD 0)
  duration := some ((timing.finish - timing.start) * 1000)
  createdAt := timing.createdAt

/-- `instrument`: what the block has put into the payload, or nothing if it
has raised. -/
def instrument (timing : Timing) (rs : RetrievalStatus) (result : Except Raised Summary)
    (responses : Table ApiResponse) : Table ApiResponse :=
  let payload := (result.toOption.map (Payload.merge rs)).getD {}
  responses.insert (subscriber timing payload)

/-- A job under way, with the API responses and the timings to come. -/
structure Recorded where
  progress : Progress
  responses : Table ApiResponse
  timings : Nat → Timing

/-- The body of the loop. -/
def recordedIteration (validCron : String → Bool) (rsId : Nat) (q : Recorded) :
    Except Raised Unit × Recorded :=
  match prepare validCron rsId q.progress with
  | (.error e, p) => (.error e, { q with progress := p })
  | (.ok (rs, work), p) =>
    let (result, db) := request (p.occasions 0) rs work p.world.db
    (result.map fun _ => (),
      { progress :=
          { p with
            world := { p.world with db := db }
            occasions := fun n => p.occasions (n + 1) }
        responses := instrument (q.timings 0) rs result q.responses
        timings := fun n => q.timings (n + 1) })

/-- `perform`, with the iterations it has begun. -/
def recordedPerform (validCron : String → Bool) (rsIds : List Nat) (q : Recorded) :
    List (Nat × Recorded) × Except Raised Unit × Recorded :=
  Batch.run (recordedIteration validCron) rsIds q

end SourceJob

end Lagotto
