/-
Lagotto.Retrieval.FailureTheorems — what `check_for_failures` counts.

The check is meant to count failed requests. It counts alerts, and
`rescue_faraday_error` files one only if no unresolved alert has the same
message: a failure whose message is that of an earlier one leaves no trace,
not even a new time stamp, whichever work or source the earlier one belonged
to and however long ago it was. A 409 leaves none either, because its message
cannot be built.

`alerts_run` puts the alerts after any sequence of failures in one equation,
`failsAt_run` counts those of a source, and `counts_failures_iff` says for which
sequences that is as good as counting the failures. Messages are the same if the
database takes them for the same, so failures that differ in case share an alert.
-/
import Lagotto.Retrieval.Networkable
import Lagotto.Source.StatableTheorems
import Lagotto.StateMachine.Runs
import Lagotto.Work.FindOrCreateTheorems

namespace Lagotto

open Relational
open StateMachine

/-! ## Sequences of failures -/

def Failure.isNotFound : Failure → Bool
  | .notFound _ => true
  | _ => false

/-- A request that failed while a retrieval status was updated, for another
reason than a 404. -/
structure FailedRequest where
  failedAt : Time
  rs : RetrievalStatus
  url : String
  error : Failure
  handled : error.isNotFound = false

namespace FailedRequest

/-- The message of its alert. -/
def message (r : FailedRequest) : String := r.error.message r.url

/-- An alert can be filed for it. -/
def reported (r : FailedRequest) : Bool := r.error.status != 409

/-- The alert. -/
def alert (r : FailedRequest) : Alert where
  message := r.message
  className := r.error.className
  targetUrl := some r.url
  status := some r.error.status
  level := r.error.level
  sourceId := some r.rs.sourceId
  workId := some r.rs.workId
  updatedAt := r.failedAt

/-- `get_result` at the time of the request. -/
def handle (env : Env) (r : FailedRequest) (db : Db) : Db :=
  (getResult { env with now := r.failedAt } (fun _ _ => .failed r.error) r.rs r.url
    { db := db }).2.db

/-- Of the source, and less than 24 hours before `t`. -/
def recent (s : Source) (t : ℚ) (r : FailedRequest) : Bool :=
  r.rs.sourceId == s.id && decide (t - Source.maxFailedQueryTimeInterval < r.failedAt)

end FailedRequest

/-! ## The alerts they leave -/

theorem FailedRequest.handle_eq (env : Env) (r : FailedRequest) (db : Db) :
    r.handle env db = if r.reported then db.fileAlert env.collate r.alert else db := by
  obtain ⟨failedAt, rs, url, error, handled⟩ := r
  cases error with
  | notFound m => cases handled
  | timeout m => rfl
  | response status m body limit =>
    simp only [handle, getResult, reported, bne_iff_ne, ne_eq, ite_not]
    split <;> rfl
  | other m => rfl

/-- `where(message: …).where(unresolved: true)`. -/
def FailedRequest.sameAlert (env : Env) (r : FailedRequest) (a : Alert) : Bool :=
  a.unresolved && env.collate a.message == env.collate r.message

/-- The alerts after a sequence of failures. -/
theorem alerts_run (env : Env) (requests : List FailedRequest) (db : Db) :
    (run (FailedRequest.handle env) requests db).alerts =
      db.alerts.firstOrCreateAll (FailedRequest.sameAlert env) FailedRequest.alert
        (requests.filter FailedRequest.reported) := by
  induction requests generalizing db with
  | nil => rfl
  | cons r rest ih =>
    rw [run_cons, ih, FailedRequest.handle_eq, List.filter_cons]
    split
    · rw [Table.firstOrCreateAll_cons]
      rfl
    · rfl

theorem one_lt_level (f : Failure) : 1 < f.level := by
  unfold Failure.level
  split <;> decide

/-- The failures that left an alert: the first ones with their message, as the
database compares messages. -/
def leavingAlert (env : Env) (requests : List FailedRequest) : List FailedRequest :=
  Table.firsts (fun r => env.collate r.message) (requests.filter FailedRequest.reported)

/-- `check_for_failures` at `t`, with nothing else going on. -/
def failsAt (s : Source) (t : ℚ) (db : Db) : Bool :=
  (s.checkForFailures { db := db, now := t, changes := fun _ => { now := t } }).1

/-- The condition of its query. -/
def Alert.counted (s : Source) (t : ℚ) (a : Alert) : Bool :=
  a.unresolved && a.sourceId == some s.id && 1 < a.level &&
    t - Source.maxFailedQueryTimeInterval < a.updatedAt

theorem failsAt_eq (s : Source) (t : ℚ) (db : Db) :
    failsAt s t db = decide (s.maxFailedQueries < db.alerts.rows.countP (Alert.counted s t)) := by
  rw [List.countP_eq_length_filter]
  rfl

theorem counted_alert (s : Source) (t : ℚ) (r : FailedRequest) :
    r.alert.counted s t = r.recent s t := by
  have hlevel : decide (1 < r.alert.level) = true := decide_eq_true (one_lt_level r.error)
  have hsource : (r.alert.sourceId == some s.id) = (r.rs.sourceId == s.id) :=
    Option.some_beq_some
  rw [Alert.counted, hlevel, hsource, Bool.and_true]
  rfl

/-- What the check counts: the recent failures among those that left an alert. -/
theorem failsAt_run (env : Env) (s : Source) (t : ℚ) (requests : List FailedRequest) (db : Db) :
    failsAt s t (run (FailedRequest.handle env) requests { db with alerts := Table.empty }) =
      decide (s.maxFailedQueries <
        (leavingAlert env requests).countP (FailedRequest.recent s t)) := by
  have hcount : (Table.empty.firstOrCreateAll (FailedRequest.sameAlert env) FailedRequest.alert
        (requests.filter FailedRequest.reported)).rows.countP (Alert.counted s t) =
      (leavingAlert env requests).countP (fun r => r.alert.counted s t) := by
    refine Table.countP_firstOrCreateAll (fun _ _ => rfl) (fun r other n => ?_) _
    simp [FailedRequest.sameAlert, Row.withId, FailedRequest.alert]
  rw [failsAt_eq, alerts_run, hcount]
  simp only [counted_alert]

/-- Fewer failures leave an alert than there are. -/
theorem countP_leavingAlert_le (env : Env) (p : FailedRequest → Bool)
    (requests : List FailedRequest) : (leavingAlert env requests).countP p ≤ requests.countP p :=
  ((Table.firstsFrom_sublist _ _ _).trans List.filter_sublist).countP_le

/-! ## When alerts stand for failures -/

section Counting

variable (env : Env) (s : Source) (db : Db) (requests : List FailedRequest)

/-- The requests fail one after the other, and there were no alerts before. At
every time `t`, those up to `t` having been handled, the check tells whether
more than `max_failed_queries` of the source's requests have failed in the 24
hours before. -/
def CountsFailures : Prop :=
  ∀ before after, requests = before ++ after → ∀ t : ℚ,
    (∀ r ∈ before, r.failedAt ≤ t) → (∀ r ∈ after, t ≤ r.failedAt) →
      (failsAt s t (run (FailedRequest.handle env) before { db with alerts := Table.empty }) =
          true ↔
        s.maxFailedQueries < before.countP (FailedRequest.recent s t))

/-- Whenever that many requests have failed in 24 hours, already those among
them are that many which are not 409s and have a message that, as the database
compares strings, no failure before them had, of whatever source and at whatever
time. -/
def SpeakForThemselves : Prop :=
  ∀ before after, requests = before ++ after → ∀ t : ℚ,
    (∀ r ∈ before, r.failedAt ≤ t) → (∀ r ∈ after, t ≤ r.failedAt) →
      s.maxFailedQueries < before.countP (FailedRequest.recent s t) →
        s.maxFailedQueries < (leavingAlert env before).countP (FailedRequest.recent s t)

/-- The check counts failures exactly if they do not share messages. -/
theorem counts_failures_iff :
    CountsFailures env s db requests ↔ SpeakForThemselves env s requests := by
  have hle : ∀ before t, (s.maxFailedQueries <
      (leavingAlert env before).countP (FailedRequest.recent s t) →
        s.maxFailedQueries < before.countP (FailedRequest.recent s t)) := by
    intro before t h
    have := countP_leavingAlert_le env (FailedRequest.recent s t) before
    omega
  simp only [CountsFailures, SpeakForThemselves, failsAt_run env s, decide_eq_true_eq]
  constructor
  · intro h before after heq t hbefore hafter
    exact (h before after heq t hbefore hafter).mpr
  · intro h before after heq t hbefore hafter
    exact ⟨hle before t, h before after heq t hbefore hafter⟩

end Counting

/-- A request that has timed out. -/
def timedOut : FailedRequest where
  failedAt := 1433116800
  rs := { workId := 1, sourceId := 1 }
  url := "http://www.citeulike.org/api/posts/for/doi/10.1371/journal.pone.0008776"
  error := .timeout "execution expired"
  handled := rfl

/-- The same request times out 201 times, and there is one alert. -/
theorem timeouts_not_counted :
    ((List.replicate 201 timedOut).Pairwise fun a b => a.failedAt ≤ b.failedAt) ∧
      ¬ CountsFailures plainEnv Source.citeulike {} (List.replicate 201 timedOut) := by
  refine ⟨List.pairwise_replicate.mpr (Or.inr (le_refl _)), fun h => ?_⟩
  have hcheck := h _ [] (List.append_nil _).symm 1433116800
    (fun r hr => by rw [List.eq_of_mem_replicate hr]; norm_num [timedOut]) (by simp)
  have hnot : failsAt Source.citeulike 1433116800
      (run (FailedRequest.handle plainEnv) (List.replicate 201 timedOut) {}) = false := by
    decide +kernel
  have hmany : Source.citeulike.maxFailedQueries < (List.replicate 201 timedOut).countP
      (FailedRequest.recent Source.citeulike 1433116800) := by
    decide +kernel
  rw [hcheck.mpr hmany] at hnot
  cases hnot

end Lagotto
