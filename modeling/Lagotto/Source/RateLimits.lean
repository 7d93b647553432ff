/-
Lagotto.Source.RateLimits — how a response is recorded in the rate limits of
a source (`app/models/concerns/configurable.rb`, and `get_result` in
`app/models/concerns/networkable.rb`).

The number of calls remaining and the time of the next reset are two entries
of the cache. `update_attributes` assigns the number first, which reads both
entries unless the response has a header for it, and the reset afterwards. A
response with an error status raises before either of them.
-/
import Lagotto.Source.Statable

namespace Lagotto

/-- A response with what its rate-limit headers say: the calls remaining, as
`to_i` reads them, and the time of the reset, which is `some none` for a
header that is blank. -/
structure Recorded where
  recordedAt : ℚ
  remaining : Option Int := none
  reset : Option (Option Time) := none

namespace Source

/-- `Rails.cache.write("#{name}/rate_limit_remaining", value)`. -/
def writeRateLimitRemaining (s : Source) (value : Int) (w : World) : World :=
  { w with
    rateLimits := Function.update w.rateLimits s.name
      { w.rateLimits s.name with remaining := some value } }

/-- `Rails.cache.write("#{name}/rate_limit_reset", value)`; reading `nil` back
is the same as reading nothing. -/
def writeRateLimitReset (s : Source) (value : Option Time) (w : World) : World :=
  { w with
    rateLimits := Function.update w.rateLimits s.name { w.rateLimits s.name with reset := value } }

/-- `rate_limit_remaining=`. -/
def setRateLimitRemaining (s : Source) (value : Option Int) (w : World) : World :=
  s.writeRateLimitRemaining
    (value.getD (if w.now < s.rateLimitReset w then s.rateLimitRemaining w - 1
      else s.rateLimiting)) w

/-- `rate_limit_reset=`. -/
def setRateLimitReset (s : Source) (value : Option (Option Time)) (w : World) : World :=
  s.writeRateLimitReset (value.getD (some (endOfHour w.now))) w

/-- The `update_attributes` of `get_result`. -/
def recordResponse (s : Source) (r : Recorded) (w : World) : World :=
  let w := { w with now := r.recordedAt }
  s.setRateLimitReset r.reset (s.setRateLimitRemaining r.remaining w)

end Source

/-- Some time later; nothing else goes on. -/
def World.laterAt (w : World) (now : ℚ) : World :=
  { w with now := now, changes := fun _ => { now := now } }

end Lagotto
