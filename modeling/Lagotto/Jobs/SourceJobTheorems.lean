/-
Lagotto.Jobs.SourceJobTheorems — when a job makes requests.

`Progress.Cleared` says what an iteration has to find before it may make a
request: an active source, few enough failures, enough requests left, and a
short wait, each as it is at the moment the job reads it. A valid source that
is cleared passes `check` (`check_of_cleared`); one that is not makes the job
raise, with the source disabled if one of the two checks was the reason
(`check_of_not_cleared`). `Keeps` is the invariant of the loop: the job's
object is the stored source in all but its state, and that is stored too.
-/
import Lagotto.Jobs.SourceJob
import Lagotto.Source.AdapterTheorems
import Lagotto.Source.StatableTheorems

namespace Lagotto

open Interaction
open Relational

namespace SourceJob

/-! ## One iteration -/

/-- What the job has to find. The failures are counted first, then the
remaining requests are read, and then both inputs of the wait time. -/
structure Progress.Cleared (p : Progress) : Prop where
  active : p.source.state.active = true
  failures : (p.source.failedQueries p.world.pass : Int) ≤ p.source.maxFailedQueries
  limits : 10 ≤ p.source.rateLimitRemaining p.world.pass.pass
  wait : (p.source.waitTime p.world.pass.pass).1 ≤ 5

theorem Progress.Cleared.not_overdrawn {p : Progress} (h : p.Cleared) :
    ¬ p.source.Overdrawn p.world := by
  rintro (hfailed | hlimit)
  · exact absurd hfailed (not_lt.mpr h.failures)
  · exact absurd hlimit (not_lt.mpr h.limits)

theorem Progress.cleared_of_not_overdrawn {p : Progress} (hactive : p.source.state.active = true)
    (hclear : ¬ p.source.Overdrawn p.world) (hwait : (p.source.waitTime p.world.pass.pass).1 ≤ 5) :
    p.Cleared := by
  obtain ⟨hfailed, hlimit⟩ := not_or.mp hclear
  exact ⟨hactive, not_lt.mp hfailed, not_lt.mp hlimit, hwait⟩

/-- The job's object and the table agree. -/
def Progress.Stored (p : Progress) : Prop := p.source.StoredState p.world p.source.state

section Check

variable {validCron : String → Bool} {p : Progress}

/-- The job's object is what the event makes of it. -/
theorem source_check (validCron : String → Bool) (p : Progress) :
    (check validCron p).2.source =
      (p.source.fireEvent validCron .workAfterCheck p.world).2.1 := by
  unfold check
  simp only
  split_ifs <;> rfl

/-- Beside the event, only alerts come in. -/
theorem db_check (validCron : String → Bool) (p : Progress) :
    ∃ alerts, (check validCron p).2.world.db =
      { (p.source.fireEvent validCron .workAfterCheck p.world).2.2.db with alerts := alerts } := by
  unfold check
  simp only
  split_ifs
  · exact ⟨_, rfl⟩
  · exact ⟨_, rfl⟩
  · exact ⟨_, rfl⟩

/-- The check is passed in the state `working` only. -/
theorem working_of_check (h : (check validCron p).1 = .ok ()) :
    (check validCron p).2.source.state = .working := by
  by_contra hstate
  rw [source_check] at hstate
  simp [check, hstate] at h

/-- With an active source and both checks false, only the wait can stop the
job, and the source is at work. -/
theorem check_of_not_overdrawn (hvalid : p.source.ValidConfig validCron)
    (hactive : p.source.state.active = true) (hclear : ¬ p.source.Overdrawn p.world) :
    check validCron p =
      (if 5 < (p.source.waitTime p.world.pass.pass).1 then
          .error (waitTooLong p.source (p.source.waitTime p.world.pass.pass).1)
        else .ok (),
        { p with
          source := { p.source with state := .working }
          world := (p.source.writeState .working p.world.pass.pass).pass }) := by
  have hfire := Source.fireEvent_workAfterCheck_of_clear hvalid hactive hclear
  have hwait : ({ p.source with state := .working } : Source).waitTime
      (p.source.writeState .working p.world.pass.pass) =
        ((p.source.waitTime p.world.pass.pass).1,
          (p.source.writeState .working p.world.pass.pass).pass) :=
    Prod.ext (p.source.waitTime_writeState .working .working p.world.pass.pass) rfl
  unfold check
  rw [hfire]
  simp only [ne_eq, not_true_eq_false, if_false, hwait]
  split
  · rfl
  · rfl

/-- The source is then stored as working. -/
theorem storedState_working (hstored : p.Stored) :
    p.source.StoredState (p.source.writeState .working p.world.pass.pass).pass .working :=
  Source.storedState_writeState (w := p.world.pass.pass) hstored .working

theorem check_of_cleared (hvalid : p.source.ValidConfig validCron) (hstored : p.Stored)
    (hcleared : p.Cleared) :
    ∃ w, check validCron p =
      (.ok (), { p with source := { p.source with state := .working }, world := w }) ∧
        p.source.StoredState w .working := by
  have hcheck := check_of_not_overdrawn hvalid hcleared.active hcleared.not_overdrawn
  rw [if_neg (not_lt.mpr hcleared.wait)] at hcheck
  exact ⟨_, hcheck, storedState_working hstored⟩

/-- **A job that may not make a request raises,** and leaves the source
disabled if it is active and one of the checks is true, and otherwise not. -/
theorem check_of_not_cleared (hvalid : p.source.ValidConfig validCron) (hstored : p.Stored)
    (hcleared : ¬ p.Cleared) :
    ∃ e p', check validCron p = (.error e, p') ∧
      (p.source.StoredState p'.world .disabled ↔
        p.source.state.active = true ∧ p.source.Overdrawn p.world) := by
  by_cases hactive : p.source.state.active = true
  · by_cases hover : p.source.Overdrawn p.world
    · -- disabled by one of the checks
      obtain ⟨w, hfire, hdisabled⟩ :=
        Source.fireEvent_workAfterCheck_of_overdrawn hvalid hstored hactive hover
      refine ⟨notWorking p.source,
        { p with source := { p.source with state := .disabled }, world := w }, ?_,
        iff_of_true hdisabled ⟨hactive, hover⟩⟩
      simp only [check, hfire]
      rfl
    · -- at work, but it would have to wait
      have hwait : 5 < (p.source.waitTime p.world.pass.pass).1 := by
        by_contra hshort
        exact hcleared (Progress.cleared_of_not_overdrawn hactive hover (not_lt.mp hshort))
      have hcheck := check_of_not_overdrawn hvalid hactive hover
      rw [if_pos hwait] at hcheck
      refine ⟨_, _, hcheck, iff_of_false ?_ (fun h => hover h.2)⟩
      intro hdisabled
      cases hdisabled.unique (storedState_working hstored)
  · -- not active, and stored as it was
    have hinactive : p.source.state.active = false := by simpa using hactive
    obtain ⟨w, hfire, hstored'⟩ :=
      Source.fireEvent_workAfterCheck_of_inactive hvalid hstored hinactive
    refine ⟨notWorking p.source, { p with world := w }, ?_, iff_of_false ?_ (fun h => hactive h.1)⟩
    · have hnot : p.source.state ≠ .working := by
        intro hs
        rw [hs] at hinactive
        cases hinactive
      simp [check, hfire, hnot]
    · intro hdisabled
      rw [← hdisabled.unique hstored'] at hinactive
      cases hinactive

/-- A request is only made by a job that may make one. -/
theorem cleared_of_requests (hvalid : p.source.ValidConfig validCron) (hstored : p.Stored)
    {rsId : Nat} (h : requests validCron rsId p = true) : p.Cleared := by
  by_contra hcleared
  obtain ⟨e, p', hcheck, _⟩ := check_of_not_cleared hvalid hstored hcleared
  simp [requests, prepare, hcheck, Except.isOk, Except.toBool] at h

theorem sources_request (occasion : Occasion) (rs : RetrievalStatus) (work : Work) (db : Db) :
    (request occasion rs work db).2.sources = db.sources := by
  unfold request
  split
  · rfl
  · exact (Retrieval.performGetData_frame ..).sources

/-- An iteration that comes to its end has found the job cleared and has left
the source working. -/
theorem iteration_ok (hvalid : p.source.ValidConfig validCron) (hstored : p.Stored) {rsId : Nat}
    {p' : Progress} (h : iteration validCron rsId p = (.ok (), p')) :
    p'.source = { p.source with state := .working } ∧ p'.Stored := by
  by_cases hcleared : p.Cleared
  · obtain ⟨w, hcheck, hworking⟩ := check_of_cleared hvalid hstored hcleared
    unfold iteration prepare at h
    rw [hcheck] at h
    cases hlookup : lookup rsId w.db with
    | error e => simp [hlookup] at h
    | ok found =>
      obtain ⟨rs, work⟩ := found
      simp only [hlookup, Prod.mk.injEq] at h
      obtain ⟨_, rfl⟩ := h
      refine ⟨rfl, ?_⟩
      unfold Progress.Stored Source.StoredState
      simp only [sources_request]
      exact hworking
  · obtain ⟨e, p₁, hcheck, _⟩ := check_of_not_cleared hvalid hstored hcleared
    simp [iteration, prepare, hcheck] at h

end Check

theorem db_afterPerform (validCron : String → Bool) (rsIds : List Nat) (p : Progress) :
    (afterPerform validCron rsIds p).world.db =
      (p.source.fireEvent validCron .waitAfterCheck
        { p.world with db := clearQueuedAt rsIds p.world.db }).2.2.db := rfl

/-! ## The whole job -/

/-- The job's object is `s` in all but its state, and its state is stored. -/
structure Keeps (s : Source) (p : Progress) : Prop where
  object : p.source = { s with state := p.source.state }
  stored : p.Stored

theorem Keeps.validConfig {validCron : String → Bool} {s : Source} {p : Progress} (h : Keeps s p)
    (hvalid : s.ValidConfig validCron) : p.source.ValidConfig validCron := by
  rw [h.object]
  exact hvalid

/-- The invariant of the loop. -/
theorem keeps_iteration {validCron : String → Bool} {s : Source} (hvalid : s.ValidConfig validCron)
    (rsId : Nat) (p p' : Progress) (hp : Keeps s p)
    (h : iteration validCron rsId p = (.ok (), p')) : Keeps s p' := by
  obtain ⟨hsource, hstored⟩ := iteration_ok (hp.validConfig hvalid) hp.stored h
  refine ⟨?_, hstored⟩
  rw [hsource, hp.object]

/-- Every exception is taken by the handler that was declared last. -/
theorem handlerFor_eq_report (e : Raised) : Handler.handlerFor e = some .report := by
  simp [Handler.handlerFor, Handler.declared, Handler.handles, Handler.classes]

theorem sources_performNow_of_error {validCron : String → Bool} {rsIds : List Nat} {p p' : Progress}
    {e : Raised} (h : (perform validCron rsIds p).2 = (.error e, p')) :
    (performNow validCron rsIds p).2.world.db.sources = p'.world.db.sources := by
  unfold performNow
  rw [h]
  simp only [handlerFor_eq_report]
  rfl

/-- **A job makes requests only while it may.** Every iteration that calls
`perform_get_data` has found the source active, its failures and remaining
requests within bounds, and the wait short. The first iteration that does not
is the last one, makes no request, and leaves the source disabled if and only
if it was active and one of the two checks was true. -/
theorem requests_only_while_cleared (validCron : String → Bool) (rsIds : List Nat) (p : Progress)
    (hstored : p.source ∈ p.world.db.sources.rows) (hvalid : p.source.ValidConfig validCron) :
    (∀ it ∈ (perform validCron rsIds p).1,
      requests validCron it.1 it.2 = true → it.2.Cleared) ∧
    ∀ before it after, (perform validCron rsIds p).1 = before ++ it :: after → ¬ it.2.Cleared →
      requests validCron it.1 it.2 = false ∧ after = [] ∧
      (p.source.StoredState (performNow validCron rsIds p).2.world .disabled ↔
        it.2.source.state.active = true ∧ it.2.source.Overdrawn it.2.world) := by
  have hstart : Keeps p.source p := ⟨rfl, p.source, hstored, rfl, rfl⟩
  have hkeeps : ∀ it ∈ (perform validCron rsIds p).1, Keeps p.source it.2 :=
    Batch.log_invariant (keeps_iteration hvalid) hstart
  constructor
  · intro it hit hrequests
    have hit' := hkeeps it hit
    exact cleared_of_requests (hit'.validConfig hvalid) hit'.stored hrequests
  · rintro before ⟨rsId, q⟩ after hlog hcleared
    have hq : Keeps p.source q := by
      refine hkeeps (rsId, q) ?_
      rw [hlog]
      simp
    obtain ⟨e, q', hcheck, hdisabled⟩ :=
      check_of_not_cleared (hq.validConfig hvalid) hq.stored hcleared
    have hraise : iteration validCron rsId q = (.error e, q') := by
      simp [iteration, prepare, hcheck]
    obtain ⟨hlast, hend⟩ := Batch.run_of_failure hlog hraise
    refine ⟨?_, hlast, ?_⟩
    · simp [requests, prepare, hcheck, Except.isOk, Except.toBool]
    · rw [← hdisabled]
      have hid : q.source.id = p.source.id := by rw [hq.object]
      unfold Source.StoredState
      rw [sources_performNow_of_error hend, hid]

/-- A source that puts up with one failure a day. -/
def impatient : Source :=
  { Source.citeulike with config := { maxFailedQueries := some 1 } }

/-- It has had that failure, and its server is still down. -/
def troubled : Progress where
  source := impatient
  world :=
    { now := 1433116800
      changes := fun _ => { now := 1433116800 }
      db :=
        { sources := Table.empty.insert impatient
          works := (Table.empty.insert {}).insert {}
          retrievalStatuses := (Table.empty.insert
            { workId := 1, sourceId := 1 }).insert { workId := 2, sourceId := 1 }
          alerts := Table.empty.insert
            { message := "Timeout", className := "Net::ReadTimeout", sourceId := some 1
              updatedAt := 1433110000 } } }
  occasions := fun _ =>
    { env := plainEnv
      web := Retrieval.unavailable
      moment := Retrieval.juneFirst
      adapter := fun _ =>
        { getData := fun _ _ => Fetch.get "http://www.citeulike.org/api/posts/for/doi/10.1234/one"
          parseData := fun _ data work => .done (Parsed.ofResult data, work) } }

/-- The first request fails too, and there is no second one. -/
theorem troubled_job_stops :
    (perform (fun _ => true) [1, 2] troubled).1.map
      (fun it => (it.1, requests (fun _ => true) it.1 it.2)) = [(1, true), (2, false)] ∧
    impatient.StoredState (performNow (fun _ => true) [1, 2] troubled).2.world .disabled := by
  refine ⟨by decide +kernel, ?_⟩
  have hvalid : impatient.ValidConfig (fun _ => true) := by
    unfold Source.ValidConfig
    decide
  obtain ⟨first, second, hlog⟩ : ∃ first second,
      (perform (fun _ => true) [1, 2] troubled).1 = [first, second] :=
    List.length_eq_two.mp (by decide +kernel)
  have hover : ∀ it ∈ (perform (fun _ => true) [1, 2] troubled).1.tail,
      it.2.source.state.active = true ∧
        it.2.source.maxFailedQueries < it.2.source.failedQueries it.2.world.pass := by
    decide +kernel
  rw [hlog] at hover
  obtain ⟨hactive, hfailed⟩ := hover second (List.mem_singleton.mpr rfl)
  have hstops := (requests_only_while_cleared (fun _ => true) [1, 2] troubled
    (List.mem_singleton.mpr rfl) hvalid).2 [first] second [] hlog
    (fun hcleared => absurd hfailed (not_lt.mpr hcleared.failures))
  exact hstops.2.2.mpr ⟨hactive, Or.inl hfailed⟩

end SourceJob

end Lagotto
