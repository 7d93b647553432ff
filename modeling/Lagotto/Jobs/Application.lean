/-
Lagotto.Jobs.Application — queueing calls, running jobs and an administrator,
in any order of their steps.

An `App` is the database with the calls of `queue_work_jobs` and
`queue_import_jobs` under way and the `SourceJob`s that have started. A
queueing call reads what it is going to queue and then works through its
slices. A job loads its source once, when it starts, and from then on takes
two steps for every id: the check that may end it, and the request. When its
ids are used up it runs `after_perform`; when a step raises, the handlers. An
administrator's event loads the source, fires and saves.

Every step that reads the clock, the cache or the alerts brings its own
`Weather`, and a request its own `Occasion`, so nothing is assumed of what
happens outside.
-/
import Lagotto.Jobs.SourceJob
import Lagotto.Source.Queueing
import Lagotto.StateMachine.Runs

namespace Lagotto

open Relational

/-- The clock, the cache, and what other processes do to cache and alerts
during a step. -/
structure Weather where
  collate : String → String := id
  now : ℚ := 0
  rateLimits : String → RateLimit := fun _ => {}
  changes : Nat → Change := fun _ => { now := 0 }

def Weather.world (x : Weather) (db : Db) : World where
  db := db
  collate := x.collate
  now := x.now
  rateLimits := x.rateLimits
  changes := x.changes

namespace Application

open SourceJob

/-- A `SourceJob` that has started: its own object of the source, the ids it
has been through, those to come, and whether the first of these has passed the
check. -/
structure Running where
  source : Source
  done : List Nat := []
  todo : List Nat
  cleared : Bool := false

/-- The ids the job was given. -/
def Running.rsIds (j : Running) : List Nat := j.done ++ j.todo

/-- A call of `queue_work_jobs` or `queue_import_jobs` with the slices it has
yet to enqueue. -/
structure Call where
  imports : Bool
  source : Source
  slices : List (List Nat)

structure App where
  db : Db
  calls : List Call := []
  running : List Running := []

/-- The ids of every `SourceJob` that is on the queue or running. -/
def App.unfinished (a : App) : List (List Nat) :=
  a.db.sourceJobs.map (·.1) ++ a.running.map (·.rsIds)

/-! ## Jobs -/

/-- `rescue_with_handler`. -/
def rescueWithHandler (rsIds : List Nat) (s : Source) (e : Raised) (w : World) : Db :=
  match Handler.handlerFor e with
  | none => w.db
  | some h => h.rescue rsIds s e w

/-- The state of the job as `SourceJob` has it. -/
def Running.progress (j : Running) (x : Weather) (occasion : Occasion) (db : Db) : Progress where
  source := j.source
  world := x.world db
  occasions := fun _ => occasion

@[simp] theorem Running.source_progress (j : Running) (x : Weather) (occasion : Occasion)
    (db : Db) : (j.progress x occasion db).source = j.source := rfl

@[simp] theorem Running.world_progress (j : Running) (x : Weather) (occasion : Occasion) (db : Db) :
    (j.progress x occasion db).world = x.world db := rfl

/-- The first half of an iteration: `work_after_check` and the wait. -/
def Running.check (validCron : String → Bool) (x : Weather) (occasion : Occasion) (j : Running)
    (db : Db) : Option Running × Db :=
  match SourceJob.check validCron (j.progress x occasion db) with
  | (.error e, p) => (none, rescueWithHandler j.rsIds p.source e p.world)
  | (.ok (), p) => (some { j with source := p.source, cleared := true }, p.world.db)

/-- The second half: the lookup and `perform_get_data`. -/
def Running.request (x : Weather) (occasion : Occasion) (j : Running) (rsId : Nat)
    (rest : List Nat) (db : Db) : Option Running × Db :=
  match lookup rsId db with
  | .error e => (none, rescueWithHandler j.rsIds j.source e (x.world db))
  | .ok (rs, work) =>
    match SourceJob.request occasion rs work db with
    | (.error e, db) => (none, rescueWithHandler j.rsIds j.source e (x.world db))
    | (.ok _, db) => (some { j with done := j.done ++ [rsId], todo := rest, cleared := false }, db)

/-- One step of a job; `none` if it ends. -/
def Running.step (validCron : String → Bool) (x : Weather) (occasion : Occasion) (j : Running)
    (db : Db) : Option Running × Db :=
  match j.todo with
  | [] => (none, (afterPerform validCron j.rsIds (j.progress x occasion db)).world.db)
  | rsId :: rest =>
    if j.cleared then j.request x occasion rsId rest db else j.check validCron x occasion db

/-! ## Actions -/

/-- What an administrator does to a source. -/
inductive AdminEvent where
  | install | uninstall | activate | inactivate
  deriving DecidableEq, Repr

def AdminEvent.event : AdminEvent → Source.Event
  | install => .install
  | uninstall => .uninstall
  | activate => .activate
  | inactivate => .inactivate

/-- A step of the application. Calls and jobs are named by their position. -/
inductive Action where
  | queueAllWorks (sourceId : Nat) (options : QueueOptions) (x : Weather)
  | queueWorkJobs (sourceId : Nat) (rsIds : List Nat) (x : Weather)
  | importFromCouchdb (sourceId : Nat) (x : Weather)
  | queueImportJobs (sourceId : Nat) (rsIds : List Nat) (x : Weather)
  | slice (n : Nat) (now : Time)
  | reset (sourceId : Nat)
  | admin (sourceId : Nat) (event : AdminEvent) (x : Weather)
  | start (n : Nat)
  | job (n : Nat) (x : Weather) (occasion : Occasion)

namespace App

/-- What loads a source and finds none does nothing. -/
def withSource (a : App) (sourceId : Nat) (f : Source → App) : App :=
  match a.db.findSource sourceId with
  | none => a
  | some s => f s

/-- The beginning of a queueing call. -/
def beginCall (validCron : String → Bool) (imports : Bool) (x : Weather) (a : App) (s : Source)
    (rsIds : List Nat) : App :=
  match s.toSlices validCron rsIds (x.world a.db) with
  | (.error _, _, w) => { a with db := w.db }
  | (.ok slices, s, w) =>
    { a with
      db := w.db
      calls := a.calls ++ [{ imports := imports, source := s, slices := slices }] }

/-- A call works on its next slice. -/
def slice (n : Nat) (now : Time) (a : App) : App :=
  match a.calls[n]? with
  | none => a
  | some c =>
    match c.slices with
    | [] => a
    | rsIds :: rest =>
      { a with
        db := if c.imports then Source.importSlice rsIds a.db
          else c.source.queueSlice now rsIds a.db
        calls := a.calls.set n { c with slices := rest } }

/-- A `SourceJob` leaves the queue and loads its source. Without its source it
cannot be deserialised. -/
def start (n : Nat) (a : App) : App :=
  match a.db.queue[n]? with
  | some (.source rsIds sourceId) =>
    let started := { a with db := { a.db with queue := a.db.queue.eraseIdx n } }
    started.withSource sourceId fun s =>
      { started with running := a.running ++ [{ source := s, todo := rsIds }] }
  | _ => a

/-- A job takes a step. -/
def job (validCron : String → Bool) (n : Nat) (x : Weather) (occasion : Occasion) (a : App) : App :=
  match a.running[n]? with
  | none => a
  | some j =>
    match j.step validCron x occasion a.db with
    | (none, db) => { a with db := db, running := a.running.eraseIdx n }
    | (some j, db) => { a with db := db, running := a.running.set n j }

/-- One action. -/
def step (validCron : String → Bool) : Action → App → App
  | .queueAllWorks sourceId options x, a => a.withSource sourceId fun s =>
    a.beginCall validCron false x s (s.worksToQueue options ⌊x.now⌋ a.db)
  | .queueWorkJobs sourceId rsIds x, a => a.withSource sourceId fun s =>
    a.beginCall validCron false x s rsIds
  | .importFromCouchdb sourceId x, a => a.withSource sourceId fun s =>
    a.beginCall validCron true x s (s.worksToImport a.db)
  | .queueImportJobs sourceId rsIds x, a => a.withSource sourceId fun s =>
    a.beginCall validCron true x s rsIds
  | .slice n now, a => a.slice n now
  | .reset sourceId, a => a.withSource sourceId fun s =>
    if s.state.active then { a with db := s.resetQueue a.db } else a
  | .admin sourceId event x, a => a.withSource sourceId fun s =>
    { a with db := (s.fireEvent validCron event.event (x.world a.db)).2.2.db }
  | .start n, a => a.start n
  | .job n x occasion, a => a.job validCron n x occasion

/-- The application after a list of actions. -/
def run (validCron : String → Bool) (actions : List Action) (a : App) : App :=
  StateMachine.run (step validCron) actions a

end App

end Application

end Lagotto
