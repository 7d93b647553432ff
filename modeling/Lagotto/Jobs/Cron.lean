/-
Lagotto.Jobs.Cron — the task cron starts every day, and the tables it clears
(`lib/tasks/cron.rake`, `lib/tasks/filter.rake`, `lib/tasks/mailer.rake`,
`lib/tasks/db.rake`).

`cron:daily` invokes five tasks in a row: the filters, the error report, and
the deletion of old API requests, of old API responses and of low-level
alerts. A task that raises ends it, and those behind are not run. Nothing is
locked meanwhile: jobs record API responses and visitors make API requests
between any two statements, as they do for the filters alone.

The API responses are deleted by their age only, whether they are resolved
or not. `State.days` is kept for the record: what the filters have queried in
each of the daily tasks.
-/
import Mathlib.Data.List.Sort
import Lagotto.Filter.Run
import Lagotto.Interaction.Embedding

namespace Lagotto

open Interaction
open Relational

/-- A row of `api_requests`. -/
structure ApiRequest where
  id : Nat := 0
  createdAt : Time
  deriving DecidableEq

instance : Row ApiRequest := ⟨(·.id), fun n r => { r with id := n }, fun _ _ => rfl, fun _ => rfl⟩

/-- `1.day` -/
def Time.day : Int := 86400

namespace Cron

/-! ## Calls -/

inductive Call where
  | filter (c : Filter.Call)
  /-- `Report.where(name: "error_report").first` and its `send_error_report`. -/
  | errorReport
  | countRequests
  /-- `ApiRequest.order("created_at DESC").offset(n).first`, for its time. -/
  | requestAt (offset : Nat)
  | deleteRequests (createdAt : Time)
  | countResponses
  | deleteResponses
  | countAlerts
  | resolveAlerts
  | unresolveResponses
  | lastResponse

@[reducible] def Call.Answer : Call → Type
  | .filter c => c.Answer
  | .errorReport => Unit
  | .countRequests => Nat
  | .requestAt _ => Option Time
  | .deleteRequests _ => Unit
  | .countResponses => Nat
  | .deleteResponses => Unit
  | .countAlerts => Nat
  | .resolveAlerts => Unit
  | .unresolveResponses => Nat
  | .lastResponse => Option Nat

abbrev CronM (α : Type) := Program Call Call.Answer Raised α

def call (c : Call) : CronM c.Answer := Program.call c

/-! ## Tasks -/

/-- `filter:all` -/
def filterAll (toS : ℚ → String) : CronM (Option Nat) :=
  (Filter.run toS).embed Call.filter (fun _ x => x)

/-- What a task that deletes prints: the difference of two counts, and the second one. -/
def report (what left : String) (before after : Nat) : String :=
  "Deleted " ++ toString ((before : Int) - after) ++ " " ++ what ++ ", " ++ toString after ++ " " ++
    left ++ " remaining"

/-- `db:api_requests:delete` -/
def deleteApiRequests : CronM String :=
  (call .countRequests).bind fun (before : Nat) =>
    (call (.requestAt 100000)).bind fun (request : Option Time) =>
      Program.bind
        (match request with
        | none => .done ()
        | some createdAt => call (.deleteRequests createdAt))
        fun _ => (call .countRequests).bind fun (after : Nat) =>
          .done (report "API requests" "API requests" before after)

/-- `db:api_responses:delete` -/
def deleteApiResponses : CronM String :=
  (call .countResponses).bind fun (before : Nat) =>
    (call .deleteResponses).bind fun _ =>
      (call .countResponses).bind fun (after : Nat) =>
        .done (report "API responses" "API responses" before after)

/-- `db:alerts:resolve`. It deletes nothing, whatever it prints. -/
def resolveAlerts : CronM String :=
  (call .countAlerts).bind fun (before : Nat) =>
    (call .resolveAlerts).bind fun _ =>
      (call .countAlerts).bind fun (after : Nat) =>
        .done (report "resolved alerts" "unresolved alerts" before after)

/-- The tasks behind `filter:all`. -/
def clear : CronM (List String) :=
  (call .errorReport).bind fun _ =>
    deleteApiRequests.bind fun requests =>
      deleteApiResponses.bind fun responses =>
        resolveAlerts.bind fun alerts => .done [requests, responses, alerts]

/-- `cron:daily` -/
def daily (toS : ℚ → String) : CronM (List String) := (filterAll toS).bind fun _ => clear

/-- `filter:unresolve`: how many there are, and the id of the last. -/
def unresolve : CronM (Nat × Option Nat) :=
  (call .unresolveResponses).bind fun (output : Nat) =>
    (call .lastResponse).bind fun (id : Option Nat) => .done (output, id)

/-! ## Surroundings -/

/-- What the filters of one daily task have queried. -/
structure Day where
  filters : List Filter
  ranged : List (String × List ApiResponse)

structure State where
  filter : Filter.State := {}
  requests : Table ApiRequest := .empty
  days : List Day := []

/-- Besides what the filters find: the time of each call, and the times of the
API requests that are recorded before it. -/
structure Surroundings extends Filter.Surroundings where
  clock : Nat → Time
  requests : Nat → List Time := fun _ => []
  /-- Whether there is an `error_report`. -/
  hasErrorReport : Bool := true

def insertRequests (times : List Time) (t : Table ApiRequest) : Table ApiRequest :=
  times.foldl (fun t time => t.insert { createdAt := time }) t

/-- What other processes do before the next call. -/
def State.arrive (sur : Surroundings) (s : State) : State :=
  { s with
    filter := s.filter.arrive sur.toSurroundings
    requests := insertRequests (sur.requests s.filter.calls) s.requests }

/-- The times of the API requests, the latest first. -/
def latestFirst (t : Table ApiRequest) : List Time :=
  (t.rows.map (·.createdAt)).insertionSort (· ≥ ·)

/-- A call that does not raise, at the time `now`. -/
def answer (sur : Surroundings) (now : Time) (s : State) :
    (c : Call) → Except Raised c.Answer × State
  | .filter c =>
    let answered := Filter.answer sur.toSurroundings s.filter c
    (answered.1, { s with filter := answered.2 })
  | .errorReport =>
    if sur.hasErrorReport then (.ok (), s)
    else (.error ⟨"NoMethodError", "undefined method `send_error_report' for nil"⟩, s)
  | .countRequests => (.ok s.requests.rows.length, s)
  | .requestAt offset => (.ok (latestFirst s.requests)[offset]?, s)
  | .deleteRequests createdAt =>
    (.ok (), { s with requests := s.requests.deleteAll (fun r => r.createdAt ≤ createdAt) })
  | .countResponses => (.ok s.filter.responses.rows.length, s)
  | .deleteResponses =>
    (.ok (), { s with
      filter.responses := s.filter.responses.deleteAll (fun r => r.createdAt < now - Time.day) })
  | .countAlerts => (.ok s.filter.alerts.rows.length, s)
  | .resolveAlerts =>
    (.ok (), { s with
      filter.alerts := s.filter.alerts.updateAll (fun a => a.level < 3)
        (fun a => { a with unresolved := false }) })
  | .unresolveResponses =>
    (.ok s.filter.responses.rows.length, { s with
      filter.responses := s.filter.responses.updateAll (fun _ => true)
        (fun r => { r with unresolved := true }) })
  | .lastResponse => (.ok (s.filter.responses.rows.map (·.id)).max?, s)

/-- The database, with other processes at work. -/
def handle (sur : Surroundings) (c : Call) (s : State) : Except Raised c.Answer × State :=
  match sur.faults s.filter.calls with
  | some e => (.error e, s.arrive sur)
  | none => answer sur (sur.clock s.filter.calls) (s.arrive sur) c

/-- What is started, by cron or by hand; the filters may be different every
day. -/
inductive Task where
  | daily (filters : List Filter)
  | unresolve

/-- A task is run, to its end or to what raises. -/
def step (sur : Surroundings) (toS : ℚ → String) : Task → State → State
  | .daily filters, s =>
    let after := ((daily toS).run (handle { sur with filters := filters })
      { s with filter.ranged := [] }).2
    { after with days := after.days ++ [⟨filters, after.filter.ranged⟩] }
  | .unresolve, s => (unresolve.run (handle sur) s).2

end Cron

end Lagotto
