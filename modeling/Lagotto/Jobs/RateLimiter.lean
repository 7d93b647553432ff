/-
Lagotto.Jobs.RateLimiter — the jobs of one source and the rate limit they
share (`perform` in `app/jobs/source_job.rb`, `wait_time` in
`app/models/source.rb`, `get_result` in `app/models/concerns/networkable.rb`,
`rate_limit_remaining=` in `app/models/concerns/configurable.rb`).

Any number of jobs run at the same time. For every retrieval status a job
checks the number of calls remaining, works out how long to wait, sleeps and
calls `get_data`, which makes any number of requests (`Action.request`): none
where there is nothing to ask for, one, or one for each page or language. Each
response, which has no rate-limit headers, is recorded before the next
request. Every read and every write of the cache is a step of its own (`Phase`
says which one is next), and the jobs take their steps in any order. The clock
does not go back.

A request with an error status, or without any response, is not recorded
(`Action.fail`). A job that stops for another reason is one that takes no
further steps.
-/
import Lagotto.Source.RateLimits
import Lagotto.StateMachine.Runs

namespace Lagotto.RateLimiter

open StateMachine

/-! ## One job -/

/-- What a job does next. -/
inductive Phase where
  /-- `work_after_check`, for the next retrieval status. -/
  | ready
  /-- `wait_time`: read `rate_limit_remaining`. -/
  | checked
  /-- `wait_time`: the limit is close, read `rate_limit_reset`. -/
  | nearLimit
  /-- `sleep`. -/
  | asleep (wakeUp : ℚ)
  /-- `get_data`: before its first request, or when it has asked before. -/
  | fetching (asked : Bool)
  /-- `rate_limit_remaining=`: the response is here, read `rate_limit_reset`. -/
  | sent
  /-- `rate_limit_remaining=`: the window is open, read `rate_limit_remaining`. -/
  | counting
  /-- `rate_limit_remaining=`: write the value. -/
  | writing (value : Int)
  /-- `rate_limit_reset=`: write the end of the hour. -/
  | written
  /-- An exception has ended the job. -/
  | ended
  deriving DecidableEq, Repr

namespace Phase

/-- The job sleeps for the wait time, unless it is too long. -/
def fallAsleep (wait : ℚ) (w : World) : Phase := if 5 < wait then .ended else .asleep (w.now + wait)

/-- The next step of a job. -/
def step (s : Source) (w : World) : Phase → Phase × World
  | .ready => (if (s.checkForRateLimits w).1 then .ended else .checked, w)
  | .checked =>
    (if s.rateLimitRemaining w < 50 then .nearLimit else fallAsleep (3600 / s.rateLimiting) w, w)
  | .nearLimit => (fallAsleep (max (s.rateLimitReset w - w.now) (1 / 1000)) w, w)
  | .asleep wakeUp => (if wakeUp ≤ w.now then .fetching false else .asleep wakeUp, w)
  -- `get_data` makes no further request
  | .fetching _ => (.ready, w)
  | .sent => (if w.now < s.rateLimitReset w then .counting else .writing s.rateLimiting, w)
  | .counting => (.writing (s.rateLimitRemaining w - 1), w)
  | .writing value => (.written, s.writeRateLimitRemaining value w)
  | .written => (.fetching true, s.setRateLimitReset none w)
  | .ended => (.ended, w)

end Phase

/-! Taken in a row, the steps are the methods they are parts of. -/

/-- Some steps of one job, with nothing in between. -/
def inARow (s : Source) : Nat → Phase × World → Phase × World
  | 0, job => job
  | n + 1, job => inARow s n (job.1.step s job.2)

theorem waitTime_inARow (s : Source) (w : World) (now : ℚ) :
    inARow s (if s.rateLimitRemaining w < 50 then 2 else 1) (.checked, w.laterAt now) =
      (Phase.fallAsleep (s.waitTime (w.laterAt now)).1 (w.laterAt now), w.laterAt now) := by
  have hremaining : s.rateLimitRemaining (w.laterAt now) = s.rateLimitRemaining w := rfl
  have hwait : (s.waitTime (w.laterAt now)).1 =
      if s.rateLimitRemaining w < 50 then
        max ((s.rateLimitReset (w.laterAt now) : ℚ) - now) (1 / 1000)
      else 3600 / s.rateLimiting := rfl
  by_cases hnear : s.rateLimitRemaining w < 50
  · simp only [inARow, Phase.step, hremaining, hwait, if_pos hnear]
    rfl
  · simp only [inARow, Phase.step, hremaining, hwait, if_neg hnear]

theorem recordResponse_inARow (s : Source) (w : World) (now : ℚ) :
    inARow s (if now < s.rateLimitReset (w.laterAt now) then 4 else 3) (.sent, w.laterAt now) =
      (.fetching true, s.recordResponse { recordedAt := now } (w.laterAt now)) := by
  have hrecord : s.recordResponse { recordedAt := now } (w.laterAt now) =
      s.setRateLimitReset none (s.writeRateLimitRemaining
        (if now < s.rateLimitReset (w.laterAt now) then s.rateLimitRemaining w - 1
          else s.rateLimiting) (w.laterAt now)) := rfl
  have hnow : (w.laterAt now).now = now := rfl
  by_cases hopen : now < s.rateLimitReset (w.laterAt now)
  · simp only [hrecord, inARow, Phase.step, hnow, if_pos hopen]
    rfl
  · simp only [hrecord, inARow, Phase.step, hnow, if_neg hopen]

/-! ## All jobs -/

/-- The cache with the time, the jobs, and the times of all requests so far. -/
structure State where
  world : World
  jobs : List Phase := []
  requests : List ℚ := []

inductive Action where
  /-- A job begins. -/
  | start
  /-- A job takes its next step. -/
  | take (job : Nat) (time : ℚ)
  /-- `get_data` makes a request. -/
  | request (job : Nat) (time : ℚ)
  /-- The request of a job fails. -/
  | fail (job : Nat) (time : ℚ)
  deriving DecidableEq, Repr

namespace State

/-- Nothing has happened, and nothing is in the cache. -/
def idle (now : ℚ) : State where
  world := { db := {}, now := now }

def later (st : State) (time : ℚ) : State := { st with world := st.world.laterAt time }

/-- The next step of a job that is in this phase. -/
def move (s : Source) (st : State) (job : Nat) (phase : Phase) : State :=
  { st with
    world := (phase.step s st.world).2
    jobs := st.jobs.set job (phase.step s st.world).1 }

/-- A request, with no further check before it. -/
def send (st : State) (job : Nat) : Phase → State
  | .fetching _ =>
    { st with jobs := st.jobs.set job .sent, requests := st.requests ++ [st.world.now] }
  | _ => st

/-- The request has failed: no response is recorded, and `get_data` goes on. -/
def drop (st : State) (job : Nat) : Phase → State
  | .sent => { st with jobs := st.jobs.set job (.fetching true) }
  | _ => st

/-- What happens to a job at a time. -/
def onJob (st : State) (job : Nat) (time : ℚ) (f : State → Nat → Phase → State) : State :=
  if st.world.now ≤ time then
    ((st.jobs[job]?).map (f (st.later time) job)).getD (st.later time)
  else st

/-- What is not possible changes nothing. -/
def step (s : Source) : Action → State → State
  | .start, st => { st with jobs := st.jobs ++ [.ready] }
  | .take job time, st => st.onJob job time (move s)
  | .request job time, st => st.onJob job time send
  | .fail job time, st => st.onJob job time drop

end State

/-! ## The limit -/

/-- The clock hour of a time. -/
def hourOf (time : ℚ) : Int := ⌊time⌋ / 3600

/-- The requests made in a clock hour. -/
def requestsIn (hour : Int) (requests : List ℚ) : Nat :=
  requests.countP (fun time => hourOf time == hour)

/-- No clock hour has seen more requests than `rate_limiting`. -/
def State.WithinLimit (s : Source) (st : State) : Prop :=
  ∀ hour, requestsIn hour st.requests ≤ s.rateLimiting

end Lagotto.RateLimiter
