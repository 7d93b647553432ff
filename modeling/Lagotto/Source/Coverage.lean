/-
Lagotto.Source.Coverage — who creates the retrieval statuses of a work
(`app/models/source.rb`, `app/jobs/insert_retrieval_job.rb`,
`app/controllers/api/v6/works_controller.rb`).

A tracked work gets a retrieval status for every installed source when it is
created, and a source that is installed gets one for every work from an
`InsertRetrievalJob`. `CoverageAction` are the operations that change works,
sources or the queue of these jobs.
-/
import Lagotto.Source.Statable
import Lagotto.Work.FindOrCreate

namespace Lagotto

open Relational

/-- `insert_retrievals`: `insert into … select … where id not in (…)`. -/
def insertRetrievals (sourceId : Nat) (db : Db) : Db :=
  let missing := db.works.rows.filter (fun work =>
    !((db.retrievalStatuses.rows.filter (fun r => r.sourceId == sourceId)).map
      (·.workId)).contains work.id)
  { db with
    retrievalStatuses := missing.foldl
      (fun t work => t.insert { workId := work.id, sourceId := sourceId }) db.retrievalStatuses }

inductive CoverageAction where
  /-- The API's `create`. -/
  | create (p : Params)
  /-- `Work.find_or_create`. -/
  | findOrCreate (p : Params)
  /-- The API's `update`. -/
  | update (workId : Nat) (p : Params)
  /-- An event of a source. -/
  | fire (event : Source.Event) (sourceId : Nat)
  /-- An `InsertRetrievalJob` that waits is performed. -/
  | insertRetrieval (sourceId : Nat)

namespace CoverageAction

def apply (env : Env) : CoverageAction → World → World
  | .create p, w =>
    match createWork env p w.db with
    | .ok (_, db) => { w with db := db }
    | .error _ => w
  | .findOrCreate p, w => { w with db := (Lagotto.findOrCreate env p w.db).2 }
  | .update workId p, w =>
    match w.db.works.first (fun work => work.id == workId) with
    | none => w
    | some work =>
      match updateAttributes env work p w.db with
      | .ok (some db) => { w with db := db }
      | _ => w
  | .fire event sourceId, w =>
    match w.db.findSource sourceId with
    | none => w
    | some s => (s.fireEvent env.validCron event w).2.2
  | .insertRetrieval sourceId, w =>
    if w.db.queue.contains (.insertRetrieval sourceId) then
      let taken := { w.db with queue := w.db.queue.erase (.insertRetrieval sourceId) }
      { w with db := insertRetrievals sourceId taken }
    else w

end CoverageAction

end Lagotto
