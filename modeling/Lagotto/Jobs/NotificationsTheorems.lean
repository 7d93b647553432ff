/-
Lagotto.Jobs.NotificationsTheorems — which API responses are on record after a
`SourceJob`.

An iteration that gets to call `perform_get_data` adds one row, and other
iterations add none (`recordedIteration_adds`). A call that returns leaves the
row it should. A call that raises leaves a row as well, without work and
source, that says it was not skipped. So what is on record are the calls that
returned exactly if no call raised.
-/
import Lagotto.Jobs.BatchTheorems
import Lagotto.Jobs.Notifications

namespace Lagotto

open Interaction
open Relational

namespace SourceJob

variable {validCron : String → Bool} {rsIds : List Nat} {q : Recorded}

/-- The table of API responses does not change what the job does. -/
theorem recordedIteration_progress (rsId : Nat) (q : Recorded) :
    iteration validCron rsId q.progress =
      ((recordedIteration validCron rsId q).1,
        (recordedIteration validCron rsId q).2.progress) := by
  unfold iteration recordedIteration
  rcases prepare validCron rsId q.progress with ⟨e | found, p⟩ <;> rfl

/-- **The job is `perform`, whatever is recorded.** -/
theorem recordedPerform_progress (rsIds : List Nat) (q : Recorded) :
    perform validCron rsIds q.progress =
      ((recordedPerform validCron rsIds q).1.map (fun entry => (entry.1, entry.2.progress)),
        (recordedPerform validCron rsIds q).2.1,
        (recordedPerform validCron rsIds q).2.2.progress) :=
  Batch.run_map recordedIteration_progress rsIds q

/-! ## Calls and rows -/

/-- The call of `perform_get_data` in an iteration, and how it ended. -/
def called (validCron : String → Bool) (rsId : Nat) (q : Recorded) :
    Option (RetrievalStatus × Except Raised Summary) :=
  match prepare validCron rsId q.progress with
  | (.error _, _) => none
  | (.ok (rs, work), p) => some (rs, (request (p.occasions 0) rs work p.world.db).1)

/-- The call raised. -/
def raises (validCron : String → Bool) (rsId : Nat) (q : Recorded) : Bool :=
  (called validCron rsId q).any (fun call => !call.2.isOk)

/-- The row for a call that returned. -/
def responseTo (timing : Timing) (rs : RetrievalStatus) (summary : Summary) : ApiResponse where
  workId := some rs.workId
  sourceId := some rs.sourceId
  retrievalStatusId := some rs.id
  total := summary.total
  previousTotal := some summary.previousTotal
  duration := some ((timing.finish - timing.start) * 1000)
  createdAt := timing.createdAt
  updateInterval := some summary.updateInterval
  skipped := summary.skipped
  html := summary.html
  pdf := summary.pdf

/-- The row an iteration should leave. -/
def expected (validCron : String → Bool) (rsId : Nat) (q : Recorded) : Option ApiResponse :=
  (called validCron rsId q).bind fun call =>
    call.2.toOption.map (responseTo (q.timings 0) call.1)

/-- The rows an iteration leaves. -/
def added (validCron : String → Bool) (rsId : Nat) (q : Recorded) : List ApiResponse :=
  ((called validCron rsId q).map fun call =>
    subscriber (q.timings 0) ((call.2.toOption.map (Payload.merge call.1)).getD {})).toList

/-- The rows, but for their ids. -/
def content (responses : Table ApiResponse) : List ApiResponse :=
  responses.rows.map (Row.withId 0)

theorem recordedIteration_adds (rsId : Nat) (q : Recorded) :
    content (recordedIteration validCron rsId q).2.responses =
      content q.responses ++ added validCron rsId q := by
  unfold recordedIteration added called
  rcases prepare validCron rsId q.progress with ⟨e | ⟨rs, work⟩, p⟩
  · exact (List.append_nil _).symm
  · simp only [instrument, content, Table.rows_insert, List.map_append]
    rfl

/-- A call that does not raise leaves the row it should. -/
theorem added_of_not_raises {rsId : Nat} (h : raises validCron rsId q = false) :
    added validCron rsId q = (expected validCron rsId q).toList := by
  unfold added expected
  unfold raises at h
  cases hcalled : called validCron rsId q with
  | none => rfl
  | some call =>
    obtain ⟨rs, result⟩ := call
    rw [hcalled] at h
    cases result with
    | error e => simp [Except.isOk, Except.toBool] at h
    | ok summary => rfl

/-- A call that raises leaves one too many. -/
theorem length_added (rsId : Nat) (q : Recorded) :
    (added validCron rsId q).length =
      (expected validCron rsId q).toList.length + (raises validCron rsId q).toNat := by
  unfold added expected raises
  cases hcalled : called validCron rsId q with
  | none => rfl
  | some call =>
    obtain ⟨rs, result⟩ := call
    cases result with
    | error e => rfl
    | ok summary => rfl

/-! ## A run -/

/-- What is on record after a run: a row for every call that returned, with its
values, in their order, and nothing else. -/
def RecordsReturned (validCron : String → Bool) (rsIds : List Nat) (q : Recorded) : Prop :=
  content (recordedPerform validCron rsIds q).2.2.responses =
    content q.responses ++ (recordedPerform validCron rsIds q).1.flatMap
      (fun entry => (expected validCron entry.1 entry.2).toList)

theorem recordedPerform_adds (rsIds : List Nat) (q : Recorded) :
    content (recordedPerform validCron rsIds q).2.2.responses =
      content q.responses ++ (recordedPerform validCron rsIds q).1.flatMap
        (fun entry => added validCron entry.1 entry.2) :=
  Batch.run_collects (fun q => content q.responses) recordedIteration_adds rsIds q

/-- **The calls that returned are on record exactly if no call raised.** -/
theorem records_returned_iff (validCron : String → Bool) (rsIds : List Nat) (q : Recorded) :
    RecordsReturned validCron rsIds q ↔
      ∀ entry ∈ (recordedPerform validCron rsIds q).1,
        raises validCron entry.1 entry.2 = false := by
  unfold RecordsReturned
  rw [recordedPerform_adds, List.append_cancel_left_eq]
  constructor
  · intro h entry hentry
    -- the rows are too many by the number of calls that raised
    have hlength := congrArg List.length h
    simp only [List.length_flatMap, length_added, List.sum_map_add] at hlength
    have hnone := List.sum_eq_zero_iff_forall_eq_nat.mp (Nat.add_eq_left.mp hlength) _
      (List.mem_map_of_mem hentry)
    simpa using hnone
  · intro h
    refine congrArg List.flatten (List.map_congr_left fun entry hentry => ?_)
    exact added_of_not_raises (h entry hentry)

/-- A server answer that makes the adapter raise. -/
def poisonedRecord : Recorded where
  progress := poisoned
  responses := .empty
  timings := fun _ => { start := 0, finish := 1, createdAt := 1433116800 }

/-- The call raises, and the row says that it was not skipped. -/
theorem raised_call_recorded :
    (recordedPerform (fun _ => true) [1] poisonedRecord).2.1.isOk = false ∧
      ((recordedPerform (fun _ => true) [1] poisonedRecord).2.2.responses.rows.map
        (fun r => (r.retrievalStatusId, r.workId, r.sourceId, r.skipped))) =
          [(none, none, none, false)] ∧
      ¬ RecordsReturned (fun _ => true) [1] poisonedRecord := by
  refine ⟨by decide +kernel, by decide +kernel, fun h => ?_⟩
  have hlength := congrArg List.length h
  revert hlength
  decide +kernel

end SourceJob

end Lagotto
