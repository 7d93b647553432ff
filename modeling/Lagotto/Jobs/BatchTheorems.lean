/-
Lagotto.Jobs.BatchTheorems — what becomes of a batch when something raises.

There are three handlers, and the one declared last takes every exception:
being throttled is reported like any other failure, and never retried
(`never_retried`). Nothing is caught between two items, so the first item
that raises takes everything behind it along (`called_once_iff`); its id and
those behind it are due again as before.
-/
import Lagotto.Jobs.SourceJobTheorems
import Lagotto.Source.Queueing

namespace Lagotto

open Interaction
open Relational

namespace SourceJob

variable {validCron : String → Bool} {rsIds : List Nat} {p : Progress}

/-! ## Throttling -/

/-- The iteration finds its source working, and would have to wait for more
than 5 seconds. -/
def Progress.Throttled (validCron : String → Bool) (p : Progress) : Prop :=
  (p.source.fireEvent validCron .workAfterCheck p.world).2.1.state = .working ∧
    5 < ((p.source.fireEvent validCron .workAfterCheck p.world).2.1.waitTime
      (p.source.fireEvent validCron .workAfterCheck p.world).2.2).1

theorem iteration_of_throttled (h : p.Throttled validCron) (rsId : Nat) :
    ∃ s wait p', iteration validCron rsId p = (.error (waitTooLong s wait), p') := by
  have hcheck : ∃ s wait p', check validCron p = (.error (waitTooLong s wait), p') := by
    unfold check
    simp only [ne_eq, h.1, not_true_eq_false, if_false, if_pos h.2]
    exact ⟨_, _, _, rfl⟩
  obtain ⟨s, wait, p', hcheck⟩ := hcheck
  exact ⟨s, wait, p', by simp [iteration, prepare, hcheck]⟩

/-- The rate-limit retry: the job is enqueued once more with its arguments, the
marks of the ids from the `n`-th on are kept, and nobody is alerted. -/
structure Retried (rsIds : List Nat) (n : Nat) (s : Source) (before after : Db) : Prop where
  queue : after.queue = before.queue ++ [.source rsIds s.id]
  marks : ∀ r ∈ before.retrievalStatuses.rows, r.id ∈ rsIds.drop n →
    r ∈ after.retrievalStatuses.rows
  alerts : after.alerts = before.alerts

/-- A job that raises leaves the queue as it was. -/
theorem queue_performNow_of_error {p' : Progress} {e : Raised}
    (h : (perform validCron rsIds p).2 = (.error e, p')) :
    (performNow validCron rsIds p).2.world.db.queue = p'.world.db.queue := by
  unfold performNow
  rw [h]
  simp only [handlerFor_eq_report]
  rfl

/-- **A throttled job is never retried,** whatever the batch and the position. -/
theorem never_retried (validCron : String → Bool) (rsIds : List Nat) (p : Progress)
    (before after : List (Nat × Progress)) (rsId : Nat) (q : Progress)
    (hlog : (perform validCron rsIds p).1 = before ++ (rsId, q) :: after)
    (hthrottled : q.Throttled validCron) :
    ¬ Retried rsIds before.length p.source (perform validCron rsIds p).2.2.world.db
      (performNow validCron rsIds p).2.world.db := by
  obtain ⟨s, wait, q', hraise⟩ := iteration_of_throttled hthrottled rsId
  obtain ⟨_, hend⟩ := Batch.run_of_failure hlog hraise
  rintro ⟨hqueue, _, _⟩
  have hsame := queue_performNow_of_error hend
  rw [hsame] at hqueue
  have hend' : (perform validCron rsIds p).2.2 = q' := by
    rw [show (perform validCron rsIds p).2 = _ from hend]
  rw [hend'] at hqueue
  simp at hqueue

/-- A source that may be asked once a minute. -/
def onceAMinute : Source :=
  { Source.citeulike with config := { rateLimiting := some 60 } }

/-- Its job, with one retrieval status. -/
def slow : Progress where
  source := onceAMinute
  world :=
    { now := 1433116800
      changes := fun _ => { now := 1433116800 }
      db :=
        { sources := Table.empty.insert onceAMinute
          works := Table.empty.insert {}
          retrievalStatuses := Table.empty.insert
            { workId := 1, sourceId := 1, queuedAt := some 1433116800 } } }
  occasions := troubled.occasions

theorem slow_throttled : slow.Throttled (fun _ => true) :=
  ⟨by decide +kernel, by decide +kernel⟩

theorem slow_never_retried :
    slow.Throttled (fun _ => true) ∧
      ¬ Retried [1] 0 slow.source (perform (fun _ => true) [1] slow).2.2.world.db
        (performNow (fun _ => true) [1] slow).2.world.db := by
  obtain ⟨s, wait, p', hraise⟩ := iteration_of_throttled slow_throttled 1
  have hlog : (perform (fun _ => true) [1] slow).1 = [] ++ (1, slow) :: [] := by
    unfold perform
    rw [Batch.run_cons_error hraise]
    rfl
  exact ⟨slow_throttled, never_retried (fun _ => true) [1] slow [] [] 1 slow hlog slow_throttled⟩

/-- The job is gone, its mark too, and the wait is the source's first failed
query. -/
theorem throttling_counts_as_failure :
    (performNow (fun _ => true) [1] slow).2.world.db.queue = [] ∧
    (performNow (fun _ => true) [1] slow).2.world.db.retrievalStatuses.rows.map (·.queuedAt) =
      [none] ∧
    onceAMinute.failedQueries (performNow (fun _ => true) [1] slow).2.world = 1 ∧
    ¬ Retried [1] 0 slow.source (perform (fun _ => true) [1] slow).2.2.world.db
      (performNow (fun _ => true) [1] slow).2.world.db := by
  have hqueue : (performNow (fun _ => true) [1] slow).2.world.db.queue = [] := by
    decide +kernel
  refine ⟨hqueue, by decide +kernel, by decide +kernel, ?_⟩
  intro hretried
  have hnext := hretried.queue
  rw [hqueue] at hnext
  simp at hnext

/-! ## Items that raise -/

/-- How often the job calls `perform_get_data` for an id. -/
def calls (validCron : String → Bool) (rsIds : List Nat) (p : Progress) (id : Nat) : Nat :=
  ((perform validCron rsIds p).1.filter
    (fun it => it.1 == id && requests validCron it.1 it.2)).length

/-- After the checks: the record is there, and `perform_get_data` does not
raise. -/
def succeeds (rsId : Nat) (p : Progress) : Bool :=
  match lookup rsId p.world.db with
  | .error _ => false
  | .ok (rs, work) => (request (p.occasions 0) rs work p.world.db).1.isOk

theorem isOk_iteration (h : (check validCron p).1.isOk = true) (rsId : Nat) :
    (iteration validCron rsId p).1.isOk = succeeds rsId (check validCron p).2 := by
  unfold iteration prepare succeeds
  rcases hcheck : check validCron p with ⟨e | _, p'⟩
  · rw [hcheck] at h
    cases h
  · cases hlookup : lookup rsId p'.world.db with
    | error e => simp [hlookup, Except.isOk, Except.toBool]
    | ok found =>
      obtain ⟨rs, work⟩ := found
      simp only [hlookup]
      cases (request (p'.occasions 0) rs work p'.world.db).1 <;> rfl

/-- An iteration that comes to its end has made its request. -/
theorem requests_of_iteration {rsId : Nat} (h : (iteration validCron rsId p).1.isOk = true) :
    requests validCron rsId p = true := by
  unfold requests
  unfold iteration at h
  rcases hprepare : prepare validCron rsId p with ⟨e | found, p'⟩
  · rw [hprepare] at h
    cases h
  · rfl

/-- An id that does not raise is worked on whenever it is begun. -/
theorem calls_eq_count {id : Nat}
    (h : ∀ it ∈ (perform validCron rsIds p).1, it.1 = id →
      (iteration validCron it.1 it.2).1.isOk = true) :
    calls validCron rsIds p id = ((perform validCron rsIds p).1.map (·.1)).count id := by
  unfold calls
  rw [List.count_eq_length_filter, List.filter_map, List.length_map]
  congr 1
  refine List.filter_congr (fun it hit => ?_)
  by_cases hid : it.1 = id
  · have hrequests := requests_of_iteration (h it hit hid)
    rw [hid] at hrequests
    simp [hid, hrequests]
  · simp [hid]

/-- **When one failure does not stop the others.** Let a job run on a source
that passes every check, and let `fails` be the ids that are missing or raise.
Every other id of the batch is worked on exactly once, if and only if it
stands exactly once before the first of these. -/
theorem called_once_iff (validCron : String → Bool) (rsIds : List Nat) (p : Progress)
    (fails : Nat → Bool)
    (hclear : ∀ it ∈ (perform validCron rsIds p).1, (check validCron it.2).1.isOk = true)
    (hfails : ∀ it ∈ (perform validCron rsIds p).1,
      succeeds it.1 (check validCron it.2).2 = !fails it.1) :
    (∀ id ∈ rsIds, fails id = false → calls validCron rsIds p id = 1) ↔
      ∀ id ∈ rsIds, fails id = false →
        (rsIds.takeWhile (fun id => !fails id)).count id = 1 := by
  have hok : ∀ it ∈ (perform validCron rsIds p).1,
      (iteration validCron it.1 it.2).1.isOk = !fails it.1 := by
    intro it hit
    rw [isOk_iteration (hclear it hit), hfails it hit]
  have hitems : (perform validCron rsIds p).1.map (·.1) =
      rsIds.takeWhile (fun id => !fails id) ++ (rsIds.dropWhile (fun id => !fails id)).take 1 :=
    Batch.log_items (fun it hit => by
      rw [hok it hit]
      simp)
  refine forall₂_congr (fun id _ => imp_congr_right (fun hgood => ?_))
  have hcalls : calls validCron rsIds p id =
      ((perform validCron rsIds p).1.map (·.1)).count id := by
    refine calls_eq_count (fun it hit hid => ?_)
    rw [hok it hit, hid, hgood]
    rfl
  -- the item that ends the loop is not the one that is counted
  have hlast : ((rsIds.dropWhile (fun id => !fails id)).take 1).count id = 0 := by
    have hhead := List.head?_dropWhile_not (fun id => !fails id) rsIds
    cases hdrop : rsIds.dropWhile (fun id => !fails id) with
    | nil => rfl
    | cons last rest =>
      rw [hdrop] at hhead
      have hne : last ≠ id := by
        rintro rfl
        simp [hgood] at hhead
      simp [hne]
  rw [hcalls, hitems, List.count_append, hlast, Nat.add_zero]

/-- Two works are due, and the server's answer for the first one makes the
adapter raise. -/
def poisoned : Progress where
  source := Source.citeulike
  world :=
    { now := 1433116800
      changes := fun _ => { now := 1433116800 }
      db :=
        { sources := Table.empty.insert Source.citeulike
          works := (Table.empty.insert { tracked := true }).insert { tracked := true }
          retrievalStatuses := (Table.empty.insert
            { workId := 1, sourceId := 1 }).insert { workId := 2, sourceId := 1 } } }
  occasions := fun _ =>
    { env := plainEnv
      web := Retrieval.unavailable
      moment := Retrieval.juneFirst
      adapter := fun _ =>
        { getData := fun _ work =>
            if work.id = 1 then .fail ⟨"NoMethodError", "undefined method `[]' for nil:NilClass"⟩
            else .done (.hash [(.sym "error", .str "not found")])
          parseData := fun _ data work => .done (Parsed.ofResult data, work) } }

/-- With the work that raises at the end, the other one is worked on. -/
theorem poison_last : calls (fun _ => true) [2, 1] poisoned 2 = 1 := by
  have hothers := (called_once_iff (fun _ => true) [2, 1] poisoned (· == 1)
    (by decide +kernel) (by decide +kernel)).mpr (by decide)
  exact hothers 2 (by decide) rfl

/-- With the same work in front, it is not, and both are selected for the next
job in the same order. -/
theorem poison_first_starves :
    (∀ it ∈ (perform (fun _ => true) [1, 2] poisoned).1,
      (check (fun _ => true) it.2).1.isOk = true ∧
        succeeds it.1 (check (fun _ => true) it.2).2 = !(it.1 == 1)) ∧
    calls (fun _ => true) [1, 2] poisoned 2 = 0 ∧
    Source.citeulike.worksToQueue {} 1433120400
      (performNow (fun _ => true) [1, 2] poisoned).2.world.db = [1, 2] :=
  ⟨by decide +kernel, by decide +kernel, by decide +kernel⟩

end SourceJob

end Lagotto
