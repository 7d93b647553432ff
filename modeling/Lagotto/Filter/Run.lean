/-
Lagotto.Filter.Run — the filters and `Filter.run` (`app/models/filter.rb`,
`app/models/filters/`).

`Filter.run` reads the highest id of the unresolved API responses, lets every
active filter look at the responses up to that id, and marks these as resolved.
Every query is a statement of its own and no transaction spans them, so the
code is a program over calls, and other processes insert rows between any two of
them (`Surroundings.arrivals`). A call may raise (`Surroundings.faults`), and
nothing rescues it.

`State.ranged` is kept for the record only: which rows a filter's query
ranged over, before its own scope was applied.
-/
import Mathlib.Data.List.Sort
import Lagotto.Filter.ApiResponse
import Lagotto.Interaction.Program
import Lagotto.Relational.Upsert
import Lagotto.Work.Attributes

namespace Lagotto

open Interaction
open Relational

/-- The subclasses of `Filter`, and the class itself. -/
inductive FilterClass where
  | apiResponseTooSlowError | citationMilestoneAlert | eventCountDecreasingError
  | eventCountIncreasingTooFastError | htmlRatioTooHighError | sourceNotUpdatedError
  | workNotUpdatedError | filter
  deriving DecidableEq, Repr

structure Filter where
  type : FilterClass
  name : String
  title : String
  active : Bool := true
  /-- `config.limit` -/
  configLimit : Option ℚ := none
  /-- `config.source_ids` -/
  configSourceIds : Option (List Nat) := none

structure Review where
  id : Nat := 0
  name : String
  stateId : Nat
  input : Nat
  output : Nat
  startedAt : Option Time
  endedAt : Option Time
  unresolved : Bool := true
  deriving DecidableEq

instance : Row Review := ⟨(·.id), fun n r => { r with id := n }, fun _ _ => rfl, fun _ => rfl⟩

namespace Filter

/-! ## Alerts -/

/-- An element of `responses`, as `raise_alerts` gets it. -/
structure Finding where
  sourceId : Option Nat
  workId : Option Nat := none
  level : Option Int := none
  message : Option String := none
  deriving DecidableEq

/-- `response[:level] || 3` -/
def Finding.alertLevel (finding : Finding) : Int := finding.level.getD 3

def Finding.alertMessage (finding : Finding) : String :=
  finding.message.getD "An API response error occured"

/-- `Alert.where(class_name: name, source_id: …, work_id: …)`, under the default
scope of `Alert`. -/
def finds (env : Env) (name : String) (sourceId workId : Option Nat) (alert : Alert) : Bool :=
  alert.unresolved && env.same (some alert.className) (some name) && alert.sourceId == sourceId &&
    alert.workId == workId

/-- `alert.update_attributes(…)`, which saves what has changed. -/
def revise (now : Time) (finding : Finding) (alert : Alert) : Alert :=
  if alert.level = finding.alertLevel ∧ alert.message = finding.alertMessage then alert
  else
    { alert with level := finding.alertLevel, message := finding.alertMessage, updatedAt := now }

/-- One turn of the loop of `raise_alerts`. -/
def raiseAlert (env : Env) (now : Time) (name : String) (alerts : Table Alert) (finding : Finding) :
    Table Alert :=
  alerts.upsert (finds env name finding.sourceId finding.workId)
    { className := name, sourceId := finding.sourceId, workId := finding.workId
      level := finding.alertLevel, message := finding.alertMessage, updatedAt := now }
    (revise now finding)

/-! ## Calls -/

inductive Call where
  | maximumId
  | countUnresolved
  | minimumCreatedAt
  | maximumCreatedAt
  | active
  /-- `Source.active` in the groups; `none` for all but `pmc`. -/
  | activeSources (groups : Option (List String))
  | count (name : String) (id : Nat) (scope : ApiResponse → Bool)
  | load (name : String) (id : Nat) (scope : ApiResponse → Bool)
  | groupBySource (name : String) (id : Nat)
  | staleSourceReport (sourceIds : List Nat)
  | raiseAlert (name : String) (finding : Finding)
  | createReview (review : Review)
  | resolve (id : Nat)

@[reducible] def Call.Answer : Call → Type
  | .maximumId => Option Nat
  | .countUnresolved => Nat
  | .minimumCreatedAt => Option Time
  | .maximumCreatedAt => Option Time
  | .active => List Filter
  | .activeSources _ => List Nat
  | .count _ _ _ => Nat
  | .load _ _ _ => List ApiResponse
  | .groupBySource _ _ => List (Option Nat)
  | .staleSourceReport _ => Unit
  | .raiseAlert _ _ => Unit
  | .createReview _ => Unit
  | .resolve _ => Nat

abbrev FilterM (α : Type) := Program Call Call.Answer Raised α

def call (c : Call) : FilterM c.Answer := Program.call c

/-! ## The filters -/

/-- `raise_alerts` -/
def raiseAlerts (name : String) : List Finding → FilterM Unit
  | [] => .done ()
  | finding :: findings => (call (.raiseAlert name finding)).bind fun _ => raiseAlerts name findings

/-- `run_filter` of most classes: the responses a scope selects are reported.
Without any, `responses` is still a query, and the last line counts again. -/
def runScope (name : String) (id : Nat) (scope : ApiResponse → Bool)
    (report : ApiResponse → Finding) : FilterM Nat :=
  (call (.count name id scope)).bind fun (count : Nat) =>
    if 0 < count then
      (call (.load name id scope)).bind fun (responses : List ApiResponse) =>
        (raiseAlerts name (responses.map report)).bind fun _ => .done responses.length
    else call (.count name id scope)

/-- `limit`, with the default of the class. -/
def limit (filter : Filter) (default : ℚ) : ℚ := filter.configLimit.getD default

/-- `source_ids`, with the groups the class looks at by default. -/
def sourceIds (filter : Filter) (groups : Option (List String)) : FilterM (List Nat) :=
  match filter.configSourceIds with
  | some ids => .done ids
  | none => call (.activeSources groups)

namespace ApiResponseTooSlowError

def report (toS : ℚ → String) (r : ApiResponse) : Finding where
  sourceId := r.sourceId
  workId := r.workId
  level := some 2
  message := some ("API response took " ++ (r.duration.map toS).getD "" ++ " ms")

def runFilter (toS : ℚ → String) (filter : Filter) (id : Nat) : FilterM Nat :=
  runScope filter.name id (ApiResponse.slow (filter.limit 30)) (report toS)

end ApiResponseTooSlowError

namespace CitationMilestoneAlert

def report (r : ApiResponse) : Finding where
  sourceId := r.sourceId
  workId := r.workId
  level := some 1
  message := some ("Work has been cited " ++ toString r.total ++ " times")

def runFilter (filter : Filter) (id : Nat) : FilterM Nat :=
  (filter.sourceIds (some ["cited", "saved"])).bind fun ids =>
    runScope filter.name id (ApiResponse.citationMilestone (filter.limit 50) ids) report

end CitationMilestoneAlert

/-- A nullable number in a text. -/
def textOf (n : Option Int) : String := (n.map toString).getD ""

namespace EventCountDecreasingError

def report (r : ApiResponse) : Finding where
  sourceId := r.sourceId
  workId := r.workId
  level := some 1
  message := some ("Event count decreased from " ++ textOf r.previousTotal ++ " to " ++
    toString r.total)

def runFilter (filter : Filter) (id : Nat) : FilterM Nat :=
  (filter.sourceIds (some ["cited", "saved", "recommended", "viewed"])).bind fun ids =>
    runScope filter.name id (ApiResponse.decreasing ids) report

end EventCountDecreasingError

namespace EventCountIncreasingTooFastError

def report (r : ApiResponse) : Finding where
  sourceId := r.sourceId
  workId := r.workId
  level := some 1
  message := some ("Event count increased by " ++ textOf (r.previousTotal.map (r.total - ·)) ++
    " in " ++ textOf r.updateInterval ++ " day(s)")

def runFilter (filter : Filter) (id : Nat) : FilterM Nat :=
  (filter.sourceIds (some ["viewed", "discussed"])).bind fun ids =>
    runScope filter.name id (ApiResponse.increasing (filter.limit 500) ids) report

end EventCountIncreasingTooFastError

namespace HtmlRatioTooHighError

def report (r : ApiResponse) : Finding where
  sourceId := r.sourceId
  workId := r.workId
  level := some 1
  message :=
    -- the division of two integers, without a remainder
    let ratio := if 0 < r.pdf then r.html / r.pdf else r.html
    some ("HTML/PDF ratio is " ++ toString ratio ++ " with " ++ toString r.html ++ " views")

def runFilter (filter : Filter) (id : Nat) : FilterM Nat :=
  runScope filter.name id (ApiResponse.slow (filter.limit 50)) report

end HtmlRatioTooHighError

namespace SourceNotUpdatedError

def report (sourceId : Nat) : Finding where
  sourceId := some sourceId
  message := some "Source not updated for 24 hours"

def runFilter (filter : Filter) (id : Nat) : FilterM Nat :=
  (call (.groupBySource filter.name id)).bind fun (responsesBySource : List (Option Nat)) =>
    (filter.sourceIds none).bind fun ids =>
      let stale := ids.filter (fun id => !responsesBySource.contains (some id))
      if 0 < stale.length then
        (call (.staleSourceReport stale)).bind fun _ =>
          (raiseAlerts filter.name (stale.map report)).bind fun _ => .done stale.length
      else .done stale.length

end SourceNotUpdatedError

namespace WorkNotUpdatedError

def report (r : ApiResponse) : Finding where
  sourceId := r.sourceId
  workId := r.workId
  level := some 3
  message := some ("Work not updated for " ++ textOf r.updateInterval ++ " days")

def runFilter (filter : Filter) (id : Nat) : FilterM Nat :=
  runScope filter.name id (ApiResponse.workNotUpdated (filter.limit 40)) report

end WorkNotUpdatedError

/-- `run_filter`; `toS` is how a decimal is written. -/
def runFilter (toS : ℚ → String) (filter : Filter) (id : Nat) : FilterM Nat :=
  match filter.type with
  | .apiResponseTooSlowError => ApiResponseTooSlowError.runFilter toS filter id
  | .citationMilestoneAlert => CitationMilestoneAlert.runFilter filter id
  | .eventCountDecreasingError => EventCountDecreasingError.runFilter filter id
  | .eventCountIncreasingTooFastError => EventCountIncreasingTooFastError.runFilter filter id
  | .htmlRatioTooHighError => HtmlRatioTooHighError.runFilter filter id
  | .sourceNotUpdatedError => SourceNotUpdatedError.runFilter filter id
  | .workNotUpdatedError => WorkNotUpdatedError.runFilter filter id
  | .filter =>
    .fail ⟨"NotImplementedError", "Children classes should override run_filter method"⟩

/-! ## The run -/

/-- The loop through the active filters. -/
def runFilters (toS : ℚ → String) (id input : Nat) (startedAt endedAt : Option Time) :
    List Filter → FilterM Unit
  | [] => .done ()
  | filter :: filters =>
    (filter.runFilter toS id).bind fun output =>
      (call (.createReview
        { name := filter.name, stateId := id, input := input, output := output
          startedAt := startedAt, endedAt := endedAt })).bind fun _ =>
        runFilters toS id input startedAt endedAt filters

/-- `Filter.run`: `none` if there is nothing unresolved, otherwise the number
of responses that were resolved. -/
def run (toS : ℚ → String) : FilterM (Option Nat) :=
  (call .maximumId).bind fun (id : Option Nat) =>
    (call .countUnresolved).bind fun input =>
      (call .minimumCreatedAt).bind fun startedAt =>
        (call .maximumCreatedAt).bind fun endedAt =>
          match id with
          | none => .done none
          | some id =>
            (call .active).bind fun filters =>
              (runFilters toS id input startedAt endedAt filters).bind fun _ =>
                (call (.resolve id)).bind fun output => .done (some output)

/-! ## Surroundings -/

/-- What the calls work on. -/
structure State where
  responses : Table ApiResponse := .empty
  alerts : Table Alert := .empty
  reviews : Table Review := .empty
  /-- The number of calls made. -/
  calls : Nat := 0
  /-- The names of filters that have queried, with the rows up to the id. -/
  ranged : List (String × List ApiResponse) := []

/-- What does not change during a run, what other processes insert before each
call, and which calls raise. -/
structure Surroundings where
  env : Env
  filters : List Filter
  sources : List Source := []
  groupName : Nat → String := fun _ => ""
  /-- Whether there is a `stale_source_report`. -/
  hasReport : Bool := true
  arrivals : Nat → List ApiResponse := fun _ => []
  faults : Nat → Option Raised := fun _ => none

/-- `ApiResponse.create!`: a new row is unresolved. -/
def insertResponses (rows : List ApiResponse) (t : Table ApiResponse) : Table ApiResponse :=
  rows.foldl (fun t r => t.insert { r with unresolved := true }) t

/-- What other processes do before the next call. -/
def State.arrive (sur : Surroundings) (s : State) : State :=
  { s with responses := insertResponses (sur.arrivals s.calls) s.responses, calls := s.calls + 1 }

namespace State

def unresolved (s : State) : List ApiResponse := s.responses.rows.filter (·.unresolved)

/-- The rows of `ApiResponse.filter(id)`. -/
def upTo (s : State) (id : Nat) : List ApiResponse :=
  s.responses.rows.filter (ApiResponse.filter id)

/-- A query of a filter, on record. -/
def range (s : State) (name : String) (id : Nat) : State :=
  { s with ranged := s.ranged ++ [(name, s.upTo id)] }

/-- `Review.where(…).first_or_initialize`, updated. A resolved review of the
same name and state makes the new one invalid, and nothing is saved. -/
def createReview (s : State) (review : Review) : State :=
  let same := fun r : Review => r.name == review.name && r.stateId == review.stateId
  if s.reviews.rows.any (fun r => same r && r.unresolved) || !s.reviews.rows.any same then
    { s with
      reviews := s.reviews.upsert (fun r => same r && r.unresolved) review
        (fun r => { review with id := r.id }) }
  else s

end State

/-- `Source.active`, which is by state. -/
def activeSources (sur : Surroundings) (groups : Option (List String)) : List Nat :=
  (sur.sources.filter (fun s => s.state.value > 2 &&
    match groups with
    | some groups => groups.contains (sur.groupName s.groupId)
    | none => s.name != "pmc")).map (·.id)

/-- A call that does not raise. -/
def answer (sur : Surroundings) (s : State) : (c : Call) → Except Raised c.Answer × State
  | .maximumId => (.ok (s.unresolved.map (·.id)).max?, s)
  | .countUnresolved => (.ok s.unresolved.length, s)
  | .minimumCreatedAt => (.ok (s.unresolved.map (·.createdAt)).min?, s)
  | .maximumCreatedAt => (.ok (s.unresolved.map (·.createdAt)).max?, s)
  | .active => (.ok ((sur.filters.filter (·.active)).insertionSort (fun a b => a.name ≤ b.name)), s)
  | .activeSources groups => (.ok (activeSources sur groups), s)
  | .count name id scope => (.ok ((s.upTo id).filter scope).length, s.range name id)
  | .load name id scope => (.ok ((s.upTo id).filter scope), s.range name id)
  | .groupBySource name id => (.ok ((s.upTo id).map (·.sourceId)).eraseDups, s.range name id)
  | .staleSourceReport _ =>
    if sur.hasReport then (.ok (), s)
    else (.error ⟨"NoMethodError", "undefined method `send_stale_source_report' for nil"⟩, s)
  | .raiseAlert name finding =>
    (.ok (), { s with alerts := raiseAlert sur.env sur.env.now name s.alerts finding })
  | .createReview review => (.ok (), s.createReview review)
  | .resolve id =>
    (.ok (s.upTo id).length,
      { s with
        responses := s.responses.updateAll (ApiResponse.filter id)
          (fun r => { r with unresolved := false }) })

/-- The database, with other processes at work. -/
def handle (sur : Surroundings) (c : Call) (s : State) : Except Raised c.Answer × State :=
  match sur.faults s.calls with
  | some e => (.error e, s.arrive sur)
  | none => answer sur (s.arrive sur) c

end Filter

end Lagotto
