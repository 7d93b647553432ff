/-
Lagotto.Source.RateLimitsTheorems — a used-up window and the windows after
it.

`check_for_rate_limits` looks at the number of calls remaining only, not at
the time of the reset. The number is set anew by a response, and after a
negative check there is none: a window that ends with fewer than ten calls
left keeps the source disabled in all windows to come. A source that has not
made any call yet gets through unless its limit is low: below 10 the check
stops it, and below 720 the wait is more than five seconds, except that below
50 it depends on how much of the hour is left.

`remaining_recorded` says what number a history of responses leaves: the last one
that was set, less the responses since that only counted. `opens_again_iff`
is the condition for the checks, in terms of the history.
-/
import Mathlib.Tactic.Linarith
import Mathlib.Tactic.FieldSimp
import Mathlib.Data.List.Induction
import Lagotto.Source.RateLimits
import Lagotto.Source.StatableTheorems
import Lagotto.StateMachine.Runs

namespace Lagotto

open StateMachine

/-! ## The cache after a response -/

section Cache

variable (s : Source) (w : World)

theorem rateLimitReset_eq :
    s.rateLimitReset w = (w.rateLimits s.name).reset.getD (endOfHour w.now) := rfl

@[simp] theorem rateLimits_laterAt (now : ℚ) : (w.laterAt now).rateLimits = w.rateLimits := rfl

@[simp] theorem rateLimits_recordResponse (r : Recorded) :
    (s.recordResponse r w).rateLimits s.name =
      { remaining := some (r.remaining.getD
          (if r.recordedAt < s.rateLimitReset (w.laterAt r.recordedAt) then
            s.rateLimitRemaining w - 1 else s.rateLimiting))
        reset := r.reset.getD (some (endOfHour r.recordedAt)) } := by
  simp only [Source.recordResponse, Source.setRateLimitReset, Source.setRateLimitRemaining,
    Source.writeRateLimitReset, Source.writeRateLimitRemaining, Function.update_self]
  rfl

end Cache

/-! ## Histories -/

/-- The cache after the responses of a history, with nothing in it before. -/
def worldAfter (s : Source) (history : List Recorded) : World :=
  run s.recordResponse history { db := {} }

theorem worldAfter_concat (s : Source) (history : List Recorded) (r : Recorded) :
    worldAfter s (history ++ [r]) = s.recordResponse r (worldAfter s history) := by
  simp only [worldAfter, run_append, run_cons, run_nil]

/-- The end of the window the last response has left, as it is read at `now`:
the one of its header, or the end of an hour. -/
def windowEnd (history : List Recorded) (now : ℚ) : Time :=
  (history.getLast?.bind
    (fun last => last.reset.getD (some (endOfHour last.recordedAt)))).getD (endOfHour now)

theorem reset_recorded (s : Source) (history : List Recorded) (now : ℚ) :
    s.rateLimitReset ((worldAfter s history).laterAt now) = windowEnd history now := by
  rw [rateLimitReset_eq, rateLimits_laterAt]
  rcases List.eq_nil_or_concat history with rfl | ⟨before, r, rfl⟩
  · rfl
  · rw [List.concat_eq_append, worldAfter_concat, rateLimits_recordResponse, windowEnd,
      List.getLast?_concat]
    rfl

/-- The response only takes one off the number: it does not bring one, and the
window is still open. -/
def Recorded.Counts (history : List Recorded) (r : Recorded) : Prop :=
  r.remaining = none ∧ r.recordedAt < windowEnd history r.recordedAt

theorem remaining_recorded_concat (s : Source) (history : List Recorded) (r : Recorded) :
    s.rateLimitRemaining (worldAfter s (history ++ [r])) =
      r.remaining.getD (if r.recordedAt < windowEnd history r.recordedAt then
        s.rateLimitRemaining (worldAfter s history) - 1 else s.rateLimiting) := by
  rw [worldAfter_concat, Source.rateLimitRemaining, rateLimits_recordResponse, reset_recorded]
  rfl

/-- One more response. -/
def afterResponse (r : Recorded) (history : List Recorded) : List Recorded := history ++ [r]

theorem run_afterResponse (since earlier : List Recorded) :
    run afterResponse since earlier = earlier ++ since := by
  induction since generalizing earlier with
  | nil => rw [run_nil, List.append_nil]
  | cons r rest ih => rw [run_cons, ih, afterResponse, List.append_assoc, List.singleton_append]

/-- The number was set by the last response of `earlier`, or by none if there
is no such response, and every response `since` has counted. -/
structure SplitAtSet (history earlier since : List Recorded) : Prop where
  split : history = earlier ++ since
  set : ∀ before r, earlier = before ++ [r] → ¬ r.Counts before
  counts : Along afterResponse (fun before r => r.Counts before) since earlier

theorem exists_splitAtSet (history : List Recorded) :
    ∃ earlier since, SplitAtSet history earlier since := by
  induction history using List.reverseRecOn with
  | nil => exact ⟨[], [], rfl, by simp, trivial⟩
  | append_singleton history r ih =>
    by_cases hcounts : r.Counts history
    · obtain ⟨earlier, since, rfl, hset, hsince⟩ := ih
      refine ⟨earlier, since ++ [r], by rw [List.append_assoc], hset, ?_⟩
      refine along_append.mpr ⟨hsince, ?_, trivial⟩
      rw [run_afterResponse]
      exact hcounts
    · refine ⟨history ++ [r], [], by rw [List.append_nil], ?_, trivial⟩
      intro before r' heq
      obtain ⟨rfl, hr⟩ := List.append_inj' heq rfl
      cases hr
      exact hcounts

/-- The number the last response has brought, or `rate_limiting`. -/
def lastSet (s : Source) (history : List Recorded) : Int :=
  (history.getLast?.bind (·.remaining)).getD s.rateLimiting

/-- A response that does not count sets the number. -/
theorem remaining_of_set (s : Source) {earlier : List Recorded}
    (hset : ∀ before r, earlier = before ++ [r] → ¬ r.Counts before) :
    s.rateLimitRemaining (worldAfter s earlier) = lastSet s earlier := by
  rcases List.eq_nil_or_concat earlier with rfl | ⟨before, r, rfl⟩
  · rfl
  · rw [List.concat_eq_append] at hset ⊢
    rw [remaining_recorded_concat, lastSet, List.getLast?_concat, Option.bind_some]
    cases hr : r.remaining with
    | some value => rfl
    | none => exact if_neg (fun hopen => hset before r rfl ⟨hr, hopen⟩)

/-- Responses that count take one off each. -/
theorem remaining_of_counts (s : Source) {earlier since : List Recorded}
    (h : Along afterResponse (fun before r => r.Counts before) since earlier) :
    s.rateLimitRemaining (worldAfter s (earlier ++ since)) =
      s.rateLimitRemaining (worldAfter s earlier) - since.length := by
  induction since generalizing earlier with
  | nil => simp
  | cons r rest ih =>
    have hone : s.rateLimitRemaining (worldAfter s (earlier ++ [r])) =
        s.rateLimitRemaining (worldAfter s earlier) - 1 := by
      rw [remaining_recorded_concat, h.1.1, Option.getD_none, if_pos h.1.2]
    have hrest := ih h.2
    rw [afterResponse, hone, List.append_assoc, List.singleton_append] at hrest
    rw [hrest, List.length_cons]
    omega

/-- What a history leaves. -/
theorem remaining_recorded (s : Source) {history earlier since : List Recorded}
    (h : SplitAtSet history earlier since) :
    s.rateLimitRemaining (worldAfter s history) = lastSet s earlier - since.length := by
  rw [h.split, remaining_of_counts s h.counts, remaining_of_set s h.set]

/-! ## A window that is over -/

section Windows

variable (s : Source) (history : List Recorded) (now : ℚ)

/-- Once the window is over, or if there has been none, the check does not stop
the source; if there has been none, the wait is not too long either. -/
def OpensAgain : Prop :=
  let w := (worldAfter s history).laterAt now
  ((s.rateLimitReset w < now ∨ (w.rateLimits s.name).remaining = none) →
      (s.checkForRateLimits w).1 = false) ∧
    ((w.rateLimits s.name).remaining = none → (s.waitTime w).1 ≤ 5)

/-- Without a history the limit is high enough, or low and the hour about to
end. Otherwise the window the last response has left is still open, or it was
left with at least ten calls: so many more was the number last set than there
were responses that counted since. -/
def LeavesRoom : Prop :=
  if history = [] then
    720 ≤ s.rateLimiting ∨ (10 ≤ s.rateLimiting ∧ s.rateLimiting < 50 ∧ endOfHour now ≤ now + 5)
  else
    now ≤ windowEnd history now ∨
      ∃ earlier since, SplitAtSet history earlier since ∧ 10 + since.length ≤ lastSet s earlier

variable {s history now}

theorem checkForRateLimits_laterAt (w : World) :
    (s.checkForRateLimits (w.laterAt now)).1 = decide (s.rateLimitRemaining w < 10) := rfl

theorem waitTime_laterAt (w : World) :
    (s.waitTime (w.laterAt now)).1 =
      if s.rateLimitRemaining w < 50 then
        max ((s.rateLimitReset (w.laterAt now) : ℚ) - now) (1 / 1000)
      else 3600 / s.rateLimiting := rfl

/-- The first wait. -/
theorem first_wait_le_iff (hlimit : 10 ≤ s.rateLimiting) :
    (s.waitTime ((worldAfter s []).laterAt now)).1 ≤ 5 ↔
      720 ≤ s.rateLimiting ∨ (s.rateLimiting < 50 ∧ endOfHour now ≤ now + 5) := by
  have hremaining : s.rateLimitRemaining (worldAfter s []) = s.rateLimiting := rfl
  rw [waitTime_laterAt, hremaining, reset_recorded]
  have hend : windowEnd [] now = endOfHour now := rfl
  rw [hend]
  by_cases hlow : s.rateLimiting < 50
  · rw [if_pos hlow, max_le_iff, sub_le_iff_le_add']
    have hsmall : (1 / 1000 : ℚ) ≤ 5 := by norm_num
    have hnot : ¬ 720 ≤ s.rateLimiting := by omega
    simp only [hsmall, hlow, hnot, and_true, true_and, false_or]
  · have hpos : (0 : ℚ) < s.rateLimiting := by
      have : 0 < s.rateLimiting := by omega
      exact_mod_cast this
    have hcast : (3600 : ℚ) ≤ 5 * s.rateLimiting ↔ 720 ≤ s.rateLimiting := by
      constructor
      · intro h
        have : (3600 : ℤ) ≤ 5 * s.rateLimiting := by exact_mod_cast h
        omega
      · intro h
        have : (3600 : ℤ) ≤ 5 * s.rateLimiting := by omega
        exact_mod_cast this
    rw [if_neg hlow, div_le_iff₀ hpos, hcast]
    simp only [hlow, false_and, or_false]

/-- Only a response writes to the cache. -/
theorem remaining_recorded_eq_none_iff :
    ((worldAfter s history).rateLimits s.name).remaining = none ↔ history = [] := by
  rcases List.eq_nil_or_concat history with rfl | ⟨before, r, rfl⟩
  · simp [worldAfter]
  · simp [worldAfter_concat]

theorem opensAgain_nil_iff : OpensAgain s [] now ↔ LeavesRoom s [] now := by
  have hnone : (((worldAfter s []).laterAt now).rateLimits s.name).remaining = none := rfl
  have hremaining : s.rateLimitRemaining (worldAfter s []) = s.rateLimiting := rfl
  simp only [OpensAgain, LeavesRoom, hnone, or_true, forall_const, if_pos,
    checkForRateLimits_laterAt, hremaining, decide_eq_false_iff_not, not_lt]
  constructor
  · rintro ⟨hlimit, hwait⟩
    rcases (first_wait_le_iff hlimit).mp hwait with hhigh | hend
    · exact Or.inl hhigh
    · exact Or.inr ⟨hlimit, hend⟩
  · rintro (hhigh | ⟨hlimit, hend⟩)
    · have hlimit : 10 ≤ s.rateLimiting := by omega
      exact ⟨hlimit, (first_wait_le_iff hlimit).mpr (Or.inl hhigh)⟩
    · exact ⟨hlimit, (first_wait_le_iff hlimit).mpr (Or.inr hend)⟩

theorem opensAgain_of_ne_nil_iff (hne : history ≠ []) :
    OpensAgain s history now ↔
      now ≤ windowEnd history now ∨ 10 ≤ s.rateLimitRemaining (worldAfter s history) := by
  have hsome : ¬ (((worldAfter s history).laterAt now).rateLimits s.name).remaining = none :=
    fun hnone => hne (remaining_recorded_eq_none_iff.mp hnone)
  simp only [OpensAgain, hsome, or_false, false_implies, and_true, reset_recorded,
    checkForRateLimits_laterAt, decide_eq_false_iff_not, not_lt]
  rw [imp_iff_not_or, not_lt]

end Windows

/-- Which histories leave a source that can go on. -/
theorem opens_again_iff (s : Source) (history : List Recorded) (now : ℚ) :
    OpensAgain s history now ↔ LeavesRoom s history now := by
  by_cases hnil : history = []
  · rw [hnil]
    exact opensAgain_nil_iff
  rw [opensAgain_of_ne_nil_iff hnil, LeavesRoom, if_neg hnil]
  refine or_congr_right ⟨fun hten => ?_, ?_⟩
  · obtain ⟨earlier, since, h⟩ := exists_splitAtSet history
    rw [remaining_recorded s h] at hten
    exact ⟨earlier, since, h, by omega⟩
  · rintro ⟨earlier, since, h, hten⟩
    rw [remaining_recorded s h]
    omega

/-- CiteULike has used up its limit in the window that ended at midnight, and
is still disabled an hour later. -/
theorem used_up_stays_disabled :
    ¬ OpensAgain Source.citeulike
      [{ recordedAt := 1433116000, remaining := some 0, reset := some (some 1433116800) }]
      1433120400 := by
  rintro ⟨hopens, _⟩
  have hcheck := hopens (Or.inl (by decide +kernel))
  revert hcheck
  decide +kernel

end Lagotto
