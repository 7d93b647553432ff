/-
Lagotto.Source.Statable — the state machine of a source
(`app/models/concerns/statable.rb`) with the checks its events consult
(`app/models/source.rb`).

The checks read records that other processes write: the alerts, and the rate
limits in the cache. A `World` carries what happens to those records between
one read and the next as a stream of arbitrary `Change`s, and every check
lets one change pass before it reads. A result about every world is therefore
a result about every interleaving with other jobs.

`remove_all_retrievals` is a guard with a `DELETE` in it. Its condition is
written `:retrieved_at == '1970-01-01'`, a comparison of a symbol with a
string, so `where` is handed `false`, and a blank condition filters nothing.
-/
import Mathlib.Data.Rat.Floor
import Lagotto.Source.Configurable
import Lagotto.StateMachine.Guarded

namespace Lagotto

open Relational
open StateMachine

/-! ## The world of a source -/

/-- What the cache holds under `<name>/rate_limit_remaining` and
`<name>/rate_limit_reset`. -/
structure RateLimit where
  remaining : Option Int := none
  reset : Option Time := none

/-- What other processes do to the shared records between two reads, and the
time of the second one. -/
structure Change where
  now : ℚ
  alerts : Table Alert → Table Alert := id
  rateLimits : (String → RateLimit) → String → RateLimit := id

structure World where
  db : Db
  /-- The key by which the database compares strings. -/
  collate : String → String := id
  now : ℚ := 0
  rateLimits : String → RateLimit := fun _ => {}
  changes : Nat → Change := fun _ => { now := 0 }

/-- The next change takes place. -/
def World.pass (w : World) : World where
  db := { w.db with alerts := (w.changes 0).alerts w.db.alerts }
  collate := w.collate
  now := (w.changes 0).now
  rateLimits := (w.changes 0).rateLimits w.rateLimits
  changes := fun n => w.changes (n + 1)

/-- `end_of_hour`, as `iso8601` and `to_i` cut it off. -/
def endOfHour (now : ℚ) : Time := ⌊now⌋ / 3600 * 3600 + 3599

namespace Source

/-! ## Checks -/

/-- The alerts `check_for_failures` counts: unresolved by the default scope of
`Alert`, at level WARN or above, of the last 24 hours. -/
def failedQueries (s : Source) (w : World) : Nat :=
  (w.db.alerts.rows.filter (fun a => a.unresolved && a.sourceId == some s.id && 1 < a.level &&
    w.now - maxFailedQueryTimeInterval < a.updatedAt)).length

/-- `rate_limit_remaining`. -/
def rateLimitRemaining (s : Source) (w : World) : Int :=
  (w.rateLimits s.name).remaining.getD s.rateLimiting

/-- `rate_limit_reset`: the end of the hour unless the cache has it. -/
def rateLimitReset (s : Source) (w : World) : Time :=
  (w.rateLimits s.name).reset.getD (endOfHour w.now)

/-- `check_for_failures`. -/
def checkForFailures (s : Source) (w : World) : Bool × World :=
  let w := w.pass
  (s.maxFailedQueries < s.failedQueries w, w)

/-- `check_for_rate_limits`. -/
def checkForRateLimits (s : Source) (w : World) : Bool × World :=
  let w := w.pass
  (s.rateLimitRemaining w < 10, w)

/-- `wait_time`, in seconds. -/
def waitTime (s : Source) (w : World) : ℚ × World :=
  let w := w.pass
  (if s.rateLimitRemaining w < 50 then max (s.rateLimitReset w - w.now) (1 / 1000)
    else 3600 / s.rateLimiting, w)

/-- `remove_all_retrievals`. -/
def removeAllRetrievals (s : Source) (w : World) : Bool × World :=
  -- `where(false)` is the association itself, so its `delete_all` has no further condition
  let db := w.db.deleteRetrievalStatuses (fun r => r.sourceId == s.id)
  ((db.retrievalStatuses.rows.filter (fun r => r.sourceId == s.id)).length == 0,
    { w with db := db })

/-! ## Events -/

inductive Event where
  | install | uninstall | activate | inactivate | disable | workAfterCheck | work
  | waitAfterCheck | wait
  deriving DecidableEq, Repr

/-- `any`. -/
def any : SourceState → Bool := fun _ => true

/-- `any - [states]`. -/
def anyBut (states : List SourceState) : SourceState → Bool := fun state => !states.contains state

/-- `[states]`. -/
def among (states : List SourceState) : SourceState → Bool := fun state => states.contains state

/-- The transitions of an event in the order `Statable` lists them. -/
def transitions (s : Source) : Event → List (Transition SourceState World)
  | .install =>
    [{ applies := among [.available], target := some .retired, guard := fun w => (s.obsolete, w) },
     { applies := among [.available], target := some .inactive }]
  | .uninstall =>
    [{ applies := anyBut [.available], target := some .available,
       guard := s.removeAllRetrievals },
     { applies := anyBut [.available, .retired], target := some .retired }]
  | .activate =>
    [{ applies := among [.available], target := some .retired, guard := fun w => (s.obsolete, w) },
     { applies := among [.available, .inactive], target := some .waiting },
     { applies := any, target := none }]
  | .inactivate => [{ applies := any, target := some .inactive }]
  | .disable => [{ applies := any, target := some .disabled }]
  | .workAfterCheck =>
    [{ applies := among [.available, .retired, .inactive], target := none },
     { applies := any, target := some .disabled, guard := s.checkForFailures },
     { applies := any, target := some .disabled, guard := s.checkForRateLimits },
     { applies := any, target := some .working }]
  | .work =>
    [{ applies := among [.waiting], target := some .working },
     { applies := any, target := none }]
  | .waitAfterCheck =>
    [{ applies := among [.disabled], target := none },
     { applies := any, target := some .waiting }]
  | .wait => [{ applies := any, target := some .waiting }]

/-- `create_retrievals` and the cache job. -/
def enqueueInstallJobs (s : Source) (w : World) : World :=
  { w with db := { w.db with queue := w.db.queue ++ [.insertRetrieval s.id, .cache s.id] } }

/-- `remove_queues`. -/
def removeQueues (s : Source) (w : World) : World :=
  { w with db := { w.db with
      retrievalStatuses := w.db.retrievalStatuses.updateAll (fun r => r.sourceId == s.id)
        (fun r => { r with queuedAt := none }) } }

/-- The alert that reports a source as disabled; the rate limit is read once
more to choose the text. -/
def reportDisabled (s : Source) (w : World) : World :=
  let (limited, w) := s.checkForRateLimits w
  let className := if limited then "Net::HTTPTooManyRequests" else "TooManyErrorsBySourceError"
  let message :=
    if limited then
      s.title ++ " has exceeded the rate-limiting of requests. Disabling the source."
    else
      s.title ++ " has exceeded maximum failed queries. Disabling the source."
  let alert : Alert :=
    { message := message, className := className, sourceId := some s.id, level := 4
      updatedAt := ⌊w.now⌋ }
  { w with db := w.db.fileAlert w.collate alert }

/-- The three `after_transition` hooks, in order. A transition back to
`inactive` counts as one to `inactive`. -/
def afterTransition (s : Source) (source dest : SourceState) (w : World) : World :=
  let w :=
    if source = .available ∧ dest ≠ .available ∧ dest ≠ .retired then s.enqueueInstallJobs w
    else w
  let w := if dest = .inactive then s.removeQueues w else w
  if source ≠ .disabled ∧ dest = .disabled then s.reportDisabled w else w

/-- `UPDATE sources SET state`. The attribute counts as changed in every
transition, also in one back to the state the object has. -/
def writeState (s : Source) (dest : SourceState) (w : World) : World :=
  { w with db := { w.db with
      sources := w.db.sources.updateAll (fun row => row.id == s.id)
        (fun row => { row with state := dest }) } }

/-- `save` with the new state: refused if the source is not valid in it. -/
def saveState (validCron : String → Bool) (s : Source) (dest : SourceState) (w : World) :
    Option World :=
  if ({ s with state := dest } : Source).errors validCron = [] then some (s.writeState dest w)
  else none

def hooks (validCron : String → Bool) (s : Source) : Hooks SourceState World where
  save := fun _ dest w => s.saveState validCron dest w
  after := s.afterTransition

/-- `source.<event>`: its result, the object and the world afterwards. -/
def fireEvent (validCron : String → Bool) (event : Event) (s : Source) (w : World) :
    Bool × Source × World :=
  let (ok, state, w) := fire (s.transitions event) (s.hooks validCron) s.state w
  (ok, { s with state := state }, w)

end Source

end Lagotto
