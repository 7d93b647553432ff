/-
Lagotto.Jobs.TimetableTheorems — no source is asked about a work before the
interval is over.

`stale_at` fixes when a retrieval status is due again, and the `stale` scope
keeps what is not due from being queued. Between the two lie the queue, the
jobs and whoever else is at work, so three things have to be seen. Nothing
but a request writes the dates of a retrieval status
(`App.step_keepsDates`): events, queueing, handlers and `after_perform` write
other columns, and works that are found while parsing come with retrieval
statuses that have not been retrieved. What a request writes is its own time
and a value of `stale_at` (`Writes`), which are an interval apart. And what is
going to be requested was due when it was queued (`OnTime.due`); here the jobs
have to be exclusive, for a retrieval status in two jobs is requested twice.

`OnTime` is the invariant, and holds as long as every action lets jobs finish and
time does not go back (`OnTime.step`). A request that is not stored, because
the record is not valid or an error is reported, leaves the dates as they
are: the interval counts from the last time something was stored.
-/
import Lagotto.Jobs.ExclusivityTheorems
import Lagotto.Relational.Columns
import Lagotto.Retrieval.StaleAt

namespace Lagotto

open Interaction
open Relational
open StateMachine

/-- The columns that say when a retrieval status was retrieved and when it is
due. -/
structure Dates where
  sourceId : Nat
  retrievedAt : Time
  scheduledAt : Time

def RetrievalStatus.dates (r : RetrievalStatus) : Dates where
  sourceId := r.sourceId
  retrievedAt := r.retrievedAt
  scheduledAt := r.scheduledAt

/-- Not retrieved yet. -/
def Dates.Fresh (d : Dates) : Prop := d.retrievedAt = Time.epoch

/-- The dates of all retrieval statuses are as they were, but for what may have
been written under an id, and for new ones. -/
def KeepsDates (written : Nat → Dates → Prop) (before after : Db) : Prop :=
  Table.Keeps RetrievalStatus.dates written Dates.Fresh before.retrievalStatuses
    after.retrievalStatuses

variable {written : Nat → Dates → Prop} {id : Nat} {work : Work} {db db' : Db}

theorem KeepsDates.of_eq {before after : Db}
    (h : after.retrievalStatuses = before.retrievalStatuses) :
    KeepsDates written before after := by
  unfold KeepsDates
  rw [h]
  exact .refl _

theorem KeepsDates.refl (db : Db) : KeepsDates written db db := .of_eq rfl

theorem KeepsDates.trans {db₁ db₂ db₃ : Db} (h₁₂ : KeepsDates written db₁ db₂)
    (h₂₃ : KeepsDates written db₂ db₃) : KeepsDates written db₁ db₃ :=
  Table.Keeps.trans h₁₂ h₂₃

/-! ## What leaves the dates alone -/

namespace Source

theorem afterTransition_keepsDates (s : Source) (source dest : SourceState) (w : World) :
    KeepsDates written w.db (s.afterTransition source dest w).db := by
  unfold KeepsDates
  rw [retrievalStatuses_afterTransition]
  split
  · exact Table.keeps_updateAll _ _ _ fun _ _ => rfl
  · exact .refl _

/-- **No event writes a date.** -/
theorem fireEvent_keepsDates (validCron : String → Bool) (event : Event) (s : Source) (w : World) :
    KeepsDates written w.db (s.fireEvent validCron event w).2.2.db := by
  obtain ⟨w', hguard, h⟩ := fireEvent_cases validCron event s w
  have hbefore : KeepsDates written w.db w'.db :=
    Table.keeps_of_subset hguard.statuses.nextId fun r hr =>
      (hguard.statuses.origin r hr).resolve_right fun h => h.1
  rcases h with hfire | ⟨dest, _, hfire⟩
  · rw [hfire]
    exact hbefore
  · rw [hfire]
    have hwritten : KeepsDates written w'.db (s.writeState dest w').db :=
      .of_eq (retrievalStatuses_writeState s dest w')
    exact (hbefore.trans hwritten).trans (s.afterTransition_keepsDates s.state dest _)

/-- Queueing writes no retrieval date. -/
theorem toSlices_keepsDates (validCron : String → Bool) (s : Source) (rsIds : List Nat)
    (w : World) : KeepsDates written w.db (s.toSlices validCron rsIds w).2.2.db := by
  have hwait : KeepsDates written w.db (s.fireEvent validCron .wait w).2.2.db :=
    s.fireEvent_keepsDates validCron .wait w
  unfold toSlices
  rcases hfire : s.fireEvent validCron .wait w with ⟨ok, s', w'⟩
  rw [hfire] at hwait
  split_ifs
  · exact .refl _
  · exact hwait
  · exact .refl _
  · exact .refl _

end Source

namespace SourceJob

theorem clearQueuedAt_keepsDates (rsIds : List Nat) (db : Db) :
    KeepsDates written db (clearQueuedAt rsIds db) :=
  Table.keeps_updateAll _ _ _ fun _ _ => rfl

/-- The checks before a job write no retrieval date. -/
theorem check_keepsDates (validCron : String → Bool) (p : Progress) :
    KeepsDates written p.world.db (check validCron p).2.world.db := by
  obtain ⟨alerts, hdb⟩ := db_check validCron p
  rw [hdb]
  exact p.source.fireEvent_keepsDates validCron .workAfterCheck p.world

/-- Nor does the callback after it. -/
theorem afterPerform_keepsDates (validCron : String → Bool) (rsIds : List Nat) (p : Progress) :
    KeepsDates written p.world.db (afterPerform validCron rsIds p).world.db := by
  rw [db_afterPerform]
  exact (clearQueuedAt_keepsDates rsIds p.world.db).trans (p.source.fireEvent_keepsDates
    validCron .waitAfterCheck { p.world with db := clearQueuedAt rsIds p.world.db })

end SourceJob

theorem Application.rescueWithHandler_keepsDates (rsIds : List Nat) (s : Source) (e : Raised)
    (w : World) : KeepsDates written w.db (rescueWithHandler rsIds s e w) := by
  unfold rescueWithHandler
  rw [SourceJob.handlerFor_eq_report]
  exact (SourceJob.clearQueuedAt_keepsDates rsIds w.db).trans (.of_eq rfl)

/-! ## What a request leaves -/

theorem updateAttributes_keepsDates {env : Env} {w : Work} {p : Params}
    (h : updateAttributes env w p db = .ok (some db')) : KeepsDates written db db' := by
  obtain ⟨_, _, rfl⟩ := updateAttributes_some h
  exact .of_eq rfl

theorem createWork_keepsDates {env : Env} {p : Params} (h : createWork env p db = .ok (id, db')) :
    KeepsDates written db db' := by
  unfold createWork at h
  split at h
  next => cases h
  next =>
    obtain ⟨_, rfl⟩ := Prod.mk.inj (Except.ok.inj h)
    split
    next =>
      exact Table.keeps_of_touches (Table.touches_firstOrCreateAll (fun _ _ => rfl) _ _)
    next => exact .of_eq rfl

/-- New works come with retrieval statuses that have not been retrieved. -/
theorem findOrCreate_keepsDates (env : Env) (p : Params) (db : Db) :
    KeepsDates written db (findOrCreate env p db).2 :=
  findOrCreate_preserves (.refl db) (fun _ _ hcreate => createWork_keepsDates hcreate)
    (fun _ _ _ hsaved => updateAttributes_keepsDates hsaved) (fun _ _ h => h.trans (.of_eq rfl))
    (fun _ => .of_eq rfl)

/-- The calls of a request write no dates, and new rows are fresh. -/
theorem handle_keepsDates (env : Env) (web : Web) (status : RetrievalStatus) (c : Call)
    (s : Session) : KeepsDates written s.db (handle env web status c s).2.db := by
  cases c with
  | get url =>
    refine .of_eq ?_
    simp only [handle, getResult]
    split
    next => rfl
    next =>
      split
      next => rfl
      next => split <;> rfl
  | alert a => exact .of_eq rfl
  | update w p =>
    simp only [handle, updateWork]
    split
    next => exact .refl _
    next saved hsaved =>
      cases saved with
      | none => exact .refl _
      | some db' => exact updateAttributes_keepsDates hsaved

namespace Retrieval

variable (env : Env) (web : Web) (moment : Moment) (adapter : Adapter) (r : Retrieval)

theorem prepared_keepsDates (db : Db) :
    KeepsDates written db (r.prepared env web moment adapter db).2 :=
  r.prepared_preserves env web moment adapter (P := KeepsDates written db)
    (fun c s h => h.trans (handle_keepsDates env web r.rs c s))
    (fun p db' h => h.trans (findOrCreate_keepsDates env p db')) (.refl db)

/-- What `store` leaves was there, or is the row `update_data` has put together
with a date of `stale_at`. -/
theorem mem_store {events : Events} {row : RetrievalStatus}
    (h : row ∈ (r.store env moment events work db).2.retrievalStatuses.rows) :
    row ∈ db.retrievalStatuses.rows ∨
      ∃ time, moment.staleAt = .ok time ∧ row = r.assigned moment time events := by
  unfold store at h
  split at h
  next => exact Or.inl h
  next time htime =>
    have hupdate : row ∈ (r.updateData env moment time events work db).retrievalStatuses.rows := by
      dsimp only at h
      split at h <;> exact h
    unfold updateData at hupdate
    split at hupdate
    next =>
      rcases Table.mem_put.mp hupdate with ⟨hold, _⟩ | ⟨rfl, _⟩
      · exact Or.inl hold
      · exact Or.inr ⟨time, htime, rfl⟩
    next => exact Or.inl hupdate

/-- The method writes the dates of its own retrieval status only. -/
theorem performGetData_keepsDates (db : Db) :
    KeepsDates (fun id dates => id = r.rs.id ∧ ∃ time, moment.staleAt = .ok time ∧
      dates = ⟨r.rs.sourceId, moment.now, time⟩) db
      (r.performGetData env web moment adapter db).2 := by
  rcases r.performGetData_cases env web moment adapter db with h | ⟨events, work, h⟩
  · rw [h]
    exact r.prepared_keepsDates env web moment adapter db
  · rw [h]
    refine (r.prepared_keepsDates env web moment adapter db).trans
      ⟨(r.store_frame env moment events work _).statuses.nextId, ?_⟩
    intro row hrow
    rcases r.mem_store env moment hrow with hold | ⟨time, htime, rfl⟩
    · exact Or.inl ⟨row, hold, rfl, rfl⟩
    · exact Or.inr (Or.inr ⟨rfl, time, htime, rfl⟩)

end Retrieval

namespace Application

open SourceJob

variable {occasion : Occasion} {x : Weather} {n : Nat}

/-- The dates a request for an id may write. -/
def Writes (occasion : Occasion) (db : Db) (id : Nat) (dates : Dates) : Prop :=
  ∃ rs work source time, lookup id db = .ok (rs, work) ∧
    db.findSource rs.sourceId = some source ∧ occasion.moment.staleAt = .ok time ∧
    dates = ⟨source.id, occasion.moment.now, time⟩

/-- A request writes the dates of its own row only. -/
theorem request_keepsDates {rsId : Nat} {rs : RetrievalStatus}
    (hlookup : lookup rsId db = .ok (rs, work)) :
    KeepsDates (fun id dates => id = rsId ∧ Writes occasion db rsId dates) db
      (SourceJob.request occasion rs work db).2 := by
  unfold SourceJob.request
  split
  next => exact .refl db
  next source hsource =>
    have hid : source.id = rs.sourceId := by simpa using Table.first_prop hsource
    refine (Retrieval.performGetData_keepsDates occasion.env occasion.web occasion.moment
      (occasion.adapter source.type) { rs := rs, source := source, work := work } db).mono ?_
    rintro id dates ⟨rfl, time, htime, rfl⟩
    exact ⟨id_of_lookup hlookup, rs, work, source, time, hlookup, hsource, htime, by rw [hid]⟩

/-! ## Intervals -/

/-- A retrieval status that has been retrieved is not due again before the least
interval of its source is over. -/
def Spaced (least : Nat → Int) (db : Db) : Prop :=
  ∀ r ∈ db.retrievalStatuses.rows, r.dates.Fresh ∨
    r.retrievedAt + least r.sourceId ≤ r.scheduledAt

variable {least : Nat → Int}

theorem Spaced.of_keepsDates (h : Spaced least db) (hkeeps : KeepsDates written db db')
    (hwritten : ∀ id dates, written id dates →
      dates.retrievedAt + least dates.sourceId ≤ dates.scheduledAt) : Spaced least db' := by
  intro r' hr'
  rcases hkeeps.origin r' hr' with ⟨r, hr, _, hdates⟩ | ⟨_, hfresh⟩ | hnew
  · have hspaced := h r hr
    unfold RetrievalStatus.dates at hdates hspaced ⊢
    injection hdates with hsource hretrieved hscheduled
    rwa [hsource, hretrieved, hscheduled] at hspaced
  · exact Or.inl hfresh
  · exact Or.inr (hwritten _ _ hnew)

/-- The time of the request, and a value of `stale_at` not before it. The
work may have been changed by the adapter. -/
def Punctual (queueable : Nat → Bool) (least : Nat → Int) (moment : Moment) (source : Source) :
    Prop :=
  least source.id ≤ source.leastStaleness (queueable source.id) ∧
    ∃ chance now today work, moment.now ≤ now ∧
      moment.staleAt = staleAt chance now today (queueable source.id) source work

/-- A punctual moment schedules at least the interval ahead. -/
theorem Punctual.spaced {queueable : Nat → Bool} {moment : Moment} {source : Source} {time : Time}
    (h : Punctual queueable least moment source) (htime : moment.staleAt = .ok time) :
    moment.now + least source.id ≤ time := by
  obtain ⟨hleast, chance, now, today, work, hnow, hstale⟩ := h
  calc moment.now + least source.id
      ≤ now + source.leastStaleness (queueable source.id) := Int.add_le_add hnow hleast
    _ ≤ time := staleAt_ge (hstale.symm.trans htime)

/-! ## What is asked for, and when -/

namespace App

/-- The id a job requests in its next step. -/
def requested (a : App) (n : Nat) : Option Nat :=
  match a.running[n]? with
  | none => none
  | some j => if j.cleared then j.todo.head? else none

/-- What is going to be requested: the ids of jobs that are not done, and those
about to be queued. -/
def promised (a : App) : List Nat := a.awaited ++ a.pending

end App

theorem Running.of_requested {a : App} (h : a.requested n = some id) :
    ∃ j rest, a.running[n]? = some j ∧ j.cleared = true ∧ j.todo = id :: rest := by
  unfold App.requested at h
  split at h
  next => cases h
  next j hj =>
    split at h
    next hcleared =>
      cases htodo : j.todo with
      | nil =>
        rw [htodo] at h
        cases h
      | cons rsId rest =>
        rw [htodo] at h
        cases h
        exact ⟨j, rest, hj, hcleared, htodo⟩
    next => cases h

/-- The dates a step of a job may write: those of what it requests. -/
def Running.Writes (j : Running) (occasion : Occasion) (db : Db) (id : Nat) (dates : Dates) :
    Prop :=
  j.cleared = true ∧ j.todo.head? = some id ∧ Application.Writes occasion db id dates

/-- One step of a job writes the dates of the row at its head. -/
theorem Running.step_keepsDates (validCron : String → Bool) (x : Weather) (occasion : Occasion)
    (j : Running) (db : Db) :
    KeepsDates (j.Writes occasion db) db (j.step validCron x occasion db).2 := by
  unfold Running.step
  split
  next => exact afterPerform_keepsDates validCron j.rsIds (j.progress x occasion db)
  next rsId rest htodo =>
    split
    next hcleared =>
      unfold Running.request
      cases hlookup : lookup rsId db with
      | error e => exact rescueWithHandler_keepsDates j.rsIds j.source e (x.world db)
      | ok found =>
        obtain ⟨rs, work⟩ := found
        have hrequest : KeepsDates (j.Writes occasion db) db
            (SourceJob.request occasion rs work db).2 := by
          refine (request_keepsDates hlookup).mono ?_
          rintro id dates ⟨rfl, hwrites⟩
          exact ⟨hcleared, by rw [htodo]; rfl, hwrites⟩
        dsimp only
        rcases hresult : SourceJob.request occasion rs work db with ⟨e | _, db'⟩
        all_goals rw [hresult] at hrequest
        · exact hrequest.trans (rescueWithHandler_keepsDates j.rsIds j.source e (x.world db'))
        · exact hrequest
    next =>
      have hcheck : KeepsDates (j.Writes occasion db) db
          (SourceJob.check validCron (j.progress x occasion db)).2.world.db :=
        check_keepsDates validCron (j.progress x occasion db)
      unfold Running.check
      rcases hresult : SourceJob.check validCron (j.progress x occasion db) with ⟨e | _, p⟩
      all_goals rw [hresult] at hcheck
      · exact hcheck.trans (rescueWithHandler_keepsDates j.rsIds p.source e p.world)
      · exact hcheck

/-- A request that goes on is done with its id. -/
theorem Running.todo_step {validCron : String → Bool} {j j' : Running}
    (h : j.step validCron x occasion db = (some j', db')) :
    j'.todo = if j.cleared then j.todo.tail else j.todo := by
  unfold Running.step at h
  split at h
  next => cases h
  next rsId rest htodo =>
    rw [htodo]
    split at h
    next hcleared =>
      rw [if_pos hcleared]
      unfold Running.request at h
      split at h
      next => cases h
      next =>
        split at h
        next => cases h
        next =>
          cases h
          rfl
    next hcleared =>
      rw [if_neg hcleared]
      unfold Running.check at h
      split at h
      next => cases h
      next =>
        cases h
        exact htodo

variable {validCron : String → Bool} {a : App}

theorem Running.jobs_of_goesOn {j j' : Running} {before after : Db}
    (h : j.GoesOn j' before after) : after.sourceJobs = before.sourceJobs := by
  rcases h.progress with ⟨_, hframe⟩ | ⟨_, _, hframe⟩
  · exact hframe.jobs
  · exact hframe.jobs

/-- What is awaited after a step of a job was awaited before, by the job or by
another one; the job's own part is what it has left to do. -/
theorem App.awaited_job {j : Running} (hj : a.running[n]? = some j)
    (hid : id ∈ (a.job validCron n x occasion).awaited) :
    id ∈ (if j.cleared then j.todo.tail else j.todo) ∨ id ∈ (a.without n).awaited := by
  rcases j.step_cases validCron x occasion a.db with ⟨db', hstep, hends⟩ | ⟨j', db', hstep, hgoes⟩
  · right
    simpa only [App.job, hj, hstep, App.awaited, App.without, hends.frame.jobs] using hid
  · have hjobs := Running.jobs_of_goesOn hgoes
    have hperm := (Exclusive.awaited_perm hj hjobs).2 j'
    have hafter : id ∈ ({ a with db := db', running := a.running.set n j' } : App).awaited := by
      simpa only [App.job, hj, hstep] using hid
    rw [← Running.todo_step hstep]
    refine (List.mem_append.mp (hperm.mem_iff.mp hafter)).imp_right fun hother => ?_
    simpa only [App.awaited, App.without, hjobs] using hother

theorem App.pending_job (n : Nat) (x : Weather) (occasion : Occasion) :
    (a.job validCron n x occasion).pending = a.pending := by
  rcases App.job_cases validCron n x occasion a with hjob | ⟨j, _, ⟨db', _, hjob⟩ |
    ⟨j', db', _, hjob⟩⟩
  all_goals rw [hjob]
  all_goals rfl

/-- What a job has requested is promised to nobody any more. -/
theorem Exclusive.promised_job (h : Exclusive a)
    (hid : id ∈ (a.job validCron n x occasion).promised) :
    id ∈ a.promised ∧ a.requested n ≠ some id := by
  cases hj : a.running[n]? with
  | none =>
    have hjob : a.job validCron n x occasion = a := by simp [App.job, hj]
    rw [hjob] at hid
    exact ⟨hid, by simp [App.requested, hj]⟩
  | some j =>
    have hrequested : a.requested n = some id → j.cleared = true ∧ ∃ rest, j.todo = id :: rest := by
      intro hreq
      obtain ⟨j', rest, hj', hcleared, htodo⟩ := Running.of_requested hreq
      cases hj.symm.trans hj'
      exact ⟨hcleared, rest, htodo⟩
    have hawaited : ∀ id ∈ j.todo ++ (a.without n).awaited, id ∈ a.awaited := fun id =>
      (awaited_perm hj (rfl : a.db.sourceJobs = a.db.sourceJobs)).1.mem_iff.mpr
    rcases List.mem_append.mp hid with hid | hid
    · rcases App.awaited_job hj hid with hown | hother
      · refine ⟨List.mem_append_left _ (hawaited id (List.mem_append_left _ ?_)), fun hreq => ?_⟩
        · split at hown
          · exact List.mem_of_mem_tail hown
          · exact hown
        · obtain ⟨hcleared, rest, htodo⟩ := hrequested hreq
          rw [if_pos hcleared, htodo] at hown
          exact h.not_mem_todo hj htodo hown
      · refine ⟨List.mem_append_left _ (hawaited id (List.mem_append_right _ hother)),
          fun hreq => ?_⟩
        obtain ⟨_, rest, htodo⟩ := hrequested hreq
        exact h.not_mem_without hj (by simp [Running.rsIds, htodo]) (mem_held.mpr (Or.inl hother))
    · rw [App.pending_job] at hid
      refine ⟨List.mem_append_right _ hid, fun hreq => ?_⟩
      obtain ⟨_, rest, htodo⟩ := hrequested hreq
      have hheld : id ∈ a.held :=
        mem_held.mpr (Or.inl (hawaited id (by simp [htodo])))
      exact (List.nodup_append.mp h.nodup).2.2 id hheld id hid rfl

namespace App

/-- The ids an action sets out to queue. -/
def queues (a : App) : Action → List Nat
  | .queueAllWorks sourceId options x =>
    (a.db.findSource sourceId).elim [] fun s => s.worksToQueue options ⌊x.now⌋ a.db
  | .queueWorkJobs _ rsIds _ => rsIds
  | _ => []

theorem promised_beginCall {imports : Bool} {s : Source} {rsIds : List Nat}
    (hid : id ∈ (a.beginCall validCron imports x s rsIds).promised) :
    id ∈ a.promised ∨ (imports = false ∧ id ∈ rsIds) := by
  obtain ⟨db', hframe, hbegin⟩ := beginCall_cases validCron imports x a s rsIds
  rcases hbegin with hbegin | ⟨c, himports, _, hslices, hbegin⟩
  · left
    rw [hbegin] at hid
    simpa only [promised, awaited, pending, hframe.jobs] using hid
  · rw [hbegin] at hid
    simp only [promised, awaited, pending, hframe.jobs, List.flatMap_append, List.mem_append,
      List.flatMap_cons, List.flatMap_nil, List.append_nil] at hid ⊢
    rcases hid with hid | hid | hid
    · exact Or.inl (Or.inl hid)
    · exact Or.inl (Or.inr hid)
    · right
      unfold Call.pending at hid
      rw [himports] at hid
      cases imports with
      | true => simp at hid
      | false =>
        refine ⟨rfl, ?_⟩
        rcases hslices with hnil | hflatten
        · simp [hnil] at hid
        · simpa [hflatten] using hid

/-- Slicing promises no new row. -/
theorem promised_slice {now : Time} (hid : id ∈ (a.slice n now).promised) :
    id ∈ a.promised := by
  rcases slice_cases n now a with hslice | ⟨c, rsIds, rest, hc, hslices, hslice⟩
  · rwa [hslice] at hid
  · rw [hslice] at hid
    obtain ⟨others, hbefore, hafter⟩ := Exclusive.pending_perm { c with slices := rest } hc
    have hcall : ∀ id, id ∈ c.pending → id ∈ a.pending := fun id hid =>
      hbefore.mem_iff.mpr (List.mem_append_left _ hid)
    rcases List.mem_append.mp hid with hawaited | hpending
    · cases himports : c.imports with
      | true =>
        simp only [himports, if_true, awaited, (Source.importSlice_frame rsIds a.db).jobs]
          at hawaited
        exact List.mem_append_left _ hawaited
      | false =>
        simp only [himports, Bool.false_eq_true, if_false, awaited, Source.sourceJobs_queueSlice,
          List.map_append, List.map_cons, List.map_nil, List.flatten_append, List.flatten_cons,
          List.flatten_nil, List.append_nil, List.mem_append] at hawaited
        have hslice : id ∈ rsIds → id ∈ a.pending := fun hin =>
          hcall id (by simp [Call.pending, himports, hslices, hin])
        simp only [promised, awaited, List.mem_append]
        tauto
    · refine List.mem_append_right _ ?_
      rcases List.mem_append.mp (hafter.mem_iff.mp hpending) with hrest | hothers
      · refine hcall id ?_
        unfold Call.pending at hrest ⊢
        split at hrest
        next => cases hrest
        next hwork =>
          rw [if_neg hwork, hslices, List.flatten_cons]
          exact List.mem_append_right _ hrest
      · exact hbefore.mem_iff.mpr (List.mem_append_right _ hothers)

/-- Starting a job promises no new row. -/
theorem promised_start (hid : id ∈ (a.start n).promised) :
    id ∈ a.promised := by
  rcases start_cases n a with hstart | ⟨rsIds, sourceId, db', hperm, _, _, hs⟩
  · rwa [hstart] at hid
  · have hqueue := (hperm.map (fun job : List Nat × Nat => job.1)).flatten
    rw [List.map_cons, List.flatten_cons] at hqueue
    rcases hs with ⟨hstart, _⟩ | ⟨s, _, hstart⟩
    all_goals
      rw [hstart] at hid
      simp only [promised, awaited, pending, List.mem_append, hqueue.mem_iff, List.map_append,
        List.map_cons, List.map_nil, List.flatten_append, List.flatten_cons, List.flatten_nil,
        List.append_nil] at hid ⊢
      tauto

/-- **Nothing is promised but what is queued.** -/
theorem promised_step (h : Exclusive a) {action : Action}
    (hid : id ∈ (a.step validCron action).promised) : id ∈ a.promised ∨ id ∈ a.queues action := by
  have hframe : ∀ {touched written : RetrievalStatus → Prop} {db' : Db},
      Db.Frame touched written a.db db' → id ∈ ({ a with db := db' } : App).promised →
        id ∈ a.promised := by
    intro touched written db' hframe hid
    simpa only [promised, awaited, pending, hframe.jobs] using hid
  have hsource : ∀ {sourceId f} {q : Prop}, (∀ s, id ∈ (f s).promised → id ∈ a.promised ∨ q) →
      id ∈ (a.withSource sourceId f).promised → id ∈ a.promised ∨ q := fun hf =>
    withSource_induction (P := fun a' => id ∈ a'.promised → _) Or.inl fun s _ => hf s
  have himport : ∀ {x s rsIds}, id ∈ (a.beginCall validCron true x s rsIds).promised →
      id ∈ a.promised := fun hid =>
    (promised_beginCall hid).resolve_right fun h => Bool.noConfusion h.1
  cases action with
  | queueAllWorks sourceId options x =>
    cases hs : a.db.findSource sourceId with
    | none =>
      rw [step, withSource_none hs] at hid
      exact Or.inl hid
    | some s =>
      rw [step, withSource_some hs] at hid
      refine (promised_beginCall hid).imp_right fun h => ?_
      simpa only [queues, hs, Option.elim] using h.2
  | queueWorkJobs sourceId rsIds x =>
    exact hsource (fun s hid => (promised_beginCall hid).imp_right And.right) hid
  | importFromCouchdb sourceId x =>
    exact hsource (fun s hid => Or.inl (himport hid)) hid
  | queueImportJobs sourceId rsIds x =>
    exact hsource (fun s hid => Or.inl (himport hid)) hid
  | slice n now => exact Or.inl (promised_slice hid)
  | reset sourceId =>
    refine hsource (fun s hid => Or.inl ?_) hid
    split at hid
    · exact hframe (s.resetQueue_frame a.db) hid
    · exact hid
  | admin sourceId event x =>
    exact hsource (fun s hid =>
      Or.inl (hframe (s.fireEvent_frame validCron event.event (x.world a.db)) hid)) hid
  | start n => exact Or.inl (promised_start hid)
  | job n x occasion => exact Or.inl (h.promised_job hid).1

/-- The dates an action may write. -/
def Writes (a : App) (action : Action) (id : Nat) (dates : Dates) : Prop :=
  ∃ n x occasion, action = .job n x occasion ∧ a.requested n = some id ∧
    Application.Writes occasion a.db id dates

theorem job_keepsDates (n : Nat) (x : Weather) (occasion : Occasion) :
    KeepsDates (a.Writes (.job n x occasion)) a.db (a.job validCron n x occasion).db := by
  unfold App.job
  cases hj : a.running[n]? with
  | none => exact .refl a.db
  | some j =>
    have hstep : KeepsDates (a.Writes (.job n x occasion)) a.db
        (j.step validCron x occasion a.db).2 := by
      refine (j.step_keepsDates validCron x occasion a.db).mono ?_
      rintro id dates ⟨hcleared, hhead, hwrites⟩
      exact ⟨n, x, occasion, rfl, by simp [requested, hj, hcleared, hhead], hwrites⟩
    dsimp only
    rcases hresult : j.step validCron x occasion a.db with ⟨_ | j', db'⟩
    all_goals
      rw [hresult] at hstep
      exact hstep

/-- **Only a request writes dates.** -/
theorem step_keepsDates (action : Action) :
    KeepsDates (a.Writes action) a.db (a.step validCron action).db := by
  have hbegin : ∀ imports x s rsIds, KeepsDates (a.Writes action) a.db
      (a.beginCall validCron imports x s rsIds).db := by
    intro imports x s rsIds
    have hslices : KeepsDates (a.Writes action) a.db
        (s.toSlices validCron rsIds (x.world a.db)).2.2.db :=
      s.toSlices_keepsDates validCron rsIds (x.world a.db)
    unfold beginCall
    rcases hresult : s.toSlices validCron rsIds (x.world a.db) with ⟨_ | slices, s', w⟩
    all_goals
      rw [hresult] at hslices
      exact hslices
  have hsource : ∀ sourceId f, (∀ s, KeepsDates (a.Writes action) a.db
      (f s).db) → KeepsDates (a.Writes action) a.db
        (a.withSource sourceId f).db := fun sourceId f hf =>
    withSource_induction (P := fun a' => KeepsDates _ a.db a'.db) (.refl a.db) fun s _ => hf s
  cases action with
  | queueAllWorks sourceId options x => exact hsource _ _ fun s => hbegin false x s _
  | queueWorkJobs sourceId rsIds x => exact hsource _ _ fun s => hbegin false x s _
  | importFromCouchdb sourceId x => exact hsource _ _ fun s => hbegin true x s _
  | queueImportJobs sourceId rsIds x => exact hsource _ _ fun s => hbegin true x s _
  | slice n now =>
    rcases slice_cases n now a with h | ⟨c, rsIds, rest, _, _, h⟩
    · rw [step, h]
      exact .refl a.db
    · rw [step, h]
      dsimp only
      split
      · exact .of_eq rfl
      · exact Table.keeps_updateAll _ _ _ fun _ _ => rfl
  | reset sourceId =>
    refine hsource _ _ fun s => ?_
    split
    · exact Table.keeps_updateAll _ _ _ fun _ _ => rfl
    · exact .refl a.db
  | admin sourceId event x =>
    exact hsource _ _ fun s => s.fireEvent_keepsDates validCron event.event (x.world a.db)
  | start n =>
    rcases start_cases n a with h | ⟨rsIds, sourceId, db', _, hstatuses, _, ⟨h, _⟩ | ⟨s, _, h⟩⟩
    · rw [step, h]
      exact .refl a.db
    · rw [step, h]
      exact .of_eq hstatuses
    · rw [step, h]
      exact .of_eq hstatuses
  | job n x occasion => exact job_keepsDates n x occasion

end App

theorem mem_of_lookup {rsId : Nat} {rs : RetrievalStatus} (h : lookup rsId db = .ok (rs, work)) :
    rs ∈ db.retrievalStatuses.rows := by
  unfold lookup at h
  split at h
  next => cases h
  next rs' hfirst =>
    split at h
    next => cases h
    next =>
      cases h
      exact Table.first_mem hfirst

/-! ## The timetable -/

/-- The time an action compares dates with, or writes. -/
def Action.time : Action → Option Time
  | .queueAllWorks _ _ x => some ⌊x.now⌋
  | .job _ _ occasion => some occasion.moment.now
  | _ => none

/-- The application, and the time of its last action that had one. -/
structure Timed where
  app : App
  clock : Time

def Timed.step (validCron : String → Bool) (action : Action) (s : Timed) : Timed where
  app := s.app.step validCron action
  clock := action.time.getD s.clock

/-- What is promised is due, and what has been retrieved is not due before the
least interval is over. -/
structure OnTime (least : Nat → Int) (s : Timed) : Prop where
  exclusive : Exclusive s.app
  due : ∀ r ∈ s.app.db.retrievalStatuses.rows, r.id ∈ s.app.promised → r.scheduledAt ≤ s.clock
  spaced : Spaced least s.app.db

/-- Time does not go back; ids that somebody queues by hand are due; and a
request sets the next date with `stale_at`. -/
structure Timely (queueable : Nat → Bool) (least : Nat → Int) (s : Timed) (action : Action) :
    Prop where
  clock : ∀ time, action.time = some time → s.clock ≤ time
  byHand : ∀ sourceId rsIds x, action = .queueWorkJobs sourceId rsIds x →
    ∀ r ∈ s.app.db.retrievalStatuses.rows, r.id ∈ rsIds → r.scheduledAt ≤ s.clock
  punctual : ∀ n x occasion, action = .job n x occasion → ∀ rsId, s.app.requested n = some rsId →
    ∀ rs work source, lookup rsId s.app.db = .ok (rs, work) →
      s.app.db.findSource rs.sourceId = some source →
        Punctual queueable least occasion.moment source

/-- The clock never goes back. -/
theorem Timely.clock_le {queueable : Nat → Bool} {s : Timed} {action : Action}
    (h : Timely queueable least s action) : s.clock ≤ (s.step validCron action).clock := by
  unfold Timed.step
  cases htime : action.time with
  | none => exact le_rfl
  | some time => exact h.clock time htime

/-- What is not due is not stale. -/
theorem due_of_worksToQueue {s : Source} {options : QueueOptions} {now : Time}
    (hall : options.all = false) (h : id ∈ s.worksToQueue options now db) :
    ∃ r ∈ db.retrievalStatuses.rows, r.id = id ∧ r.scheduledAt ≤ now := by
  obtain ⟨r, hr, rfl⟩ := List.mem_map.mp ((s.worksToQueue_perm options now db).mem_iff.mp h)
  obtain ⟨hrow, hselects⟩ := List.mem_filter.mp hr
  refine ⟨r, hrow, rfl, ?_⟩
  unfold Source.selects at hselects
  rw [Bool.and_eq_true] at hselects
  have hwork := hselects.2
  split at hwork
  next => cases hwork
  next =>
    rw [hall, Bool.false_or, Bool.and_eq_true] at hwork
    have hstale := hwork.2
    rw [RetrievalStatus.stale, Bool.and_eq_true] at hstale
    exact of_decide_eq_true hstale.2

namespace OnTime

variable {queueable : Nat → Bool} {s : Timed} {action : Action}

/-- Only a row that is due is queued. -/
theorem due_of_queued (hfinish : s.app.LetsJobsFinish action)
    (htimely : Timely queueable least s action) (hid : id ∈ s.app.queues action) :
    ∃ r ∈ s.app.db.retrievalStatuses.rows, r.id = id ∧
      r.scheduledAt ≤ (s.step validCron action).clock := by
  cases action with
  | queueAllWorks sourceId options x =>
    cases hs : s.app.db.findSource sourceId with
    | none => simp [App.queues, hs] at hid
    | some source =>
      simp only [App.queues, hs, Option.elim] at hid
      exact due_of_worksToQueue hfinish.1 hid
  | queueWorkJobs sourceId rsIds x =>
    obtain ⟨r, hr, rfl, _⟩ := (hfinish.2 id hid).1
    exact ⟨r, hr, rfl, htimely.byHand sourceId rsIds x rfl r hr hid⟩
  | _ => cases hid

/-- What a request finds is due. -/
theorem due_of_requested (h : OnTime least s) {n rsId : Nat} {rs : RetrievalStatus}
    (hrequested : s.app.requested n = some rsId) (hlookup : lookup rsId s.app.db = .ok (rs, work)) :
    rs ∈ s.app.db.retrievalStatuses.rows ∧ rs.scheduledAt ≤ s.clock := by
  have hrow : rs ∈ s.app.db.retrievalStatuses.rows := mem_of_lookup hlookup
  refine ⟨hrow, h.due rs hrow (List.mem_append_left _ ?_)⟩
  obtain ⟨j, rest, hj, _, htodo⟩ := Running.of_requested hrequested
  rw [id_of_lookup hlookup]
  refine (Exclusive.awaited_perm hj (rfl : s.app.db.sourceJobs = _)).1.mem_iff.mpr ?_
  simp [htodo]

/-- One step keeps the retrievals spaced. -/
theorem spaced_step (h : OnTime least s) (htimely : Timely queueable least s action) :
    Spaced least (s.app.step validCron action).db := by
  refine h.spaced.of_keepsDates (s.app.step_keepsDates action) ?_
  rintro id dates ⟨n, x, occasion, haction, hrequested, rs, work, source, time, hlookup, hsource,
    htime, rfl⟩
  exact (htimely.punctual n x occasion haction id hrequested rs work source hlookup hsource).spaced
    htime

/-- **Timely actions keep the timetable,** if they let jobs finish. -/
theorem step (h : OnTime least s) (hfinish : s.app.LetsJobsFinish action)
    (htimely : Timely queueable least s action) : OnTime least (s.step validCron action) := by
  refine ⟨h.exclusive.step action hfinish, fun r' hr' hpromised => ?_, h.spaced_step htimely⟩
  have hunasked : ∀ n x occasion, action = .job n x occasion →
      s.app.requested n ≠ some r'.id := by
    rintro n x occasion rfl
    exact (h.exclusive.promised_job hpromised).2
  -- it was promised before, or is being queued, under an id that is not new
  obtain ⟨hold, hdue⟩ : r'.id < s.app.db.retrievalStatuses.nextId ∧
      ∀ r ∈ s.app.db.retrievalStatuses.rows, r.id = r'.id →
        r.scheduledAt ≤ (s.step validCron action).clock := by
    rcases App.promised_step h.exclusive hpromised with hbefore | hqueued
    · refine ⟨h.exclusive.bounded _ ?_, fun r hr hid => ?_⟩
      · exact List.mem_append.mpr ((List.mem_append.mp hbefore).imp_left fun hawaited =>
          mem_held.mpr (Or.inl hawaited))
      · exact (h.due r hr (hid ▸ hbefore)).trans htimely.clock_le
    · obtain ⟨r, hr, hid, hdue⟩ : ∃ r ∈ s.app.db.retrievalStatuses.rows, r.id = r'.id ∧
          r.scheduledAt ≤ (s.step validCron action).clock :=
        due_of_queued hfinish htimely hqueued
      refine ⟨hid ▸ s.app.db.retrievalStatuses.bounded r hr, fun u hu huid => ?_⟩
      rwa [s.app.db.retrievalStatuses.eq_of_id_eq hu hr (huid.trans hid.symm)]
  rcases (s.app.step_keepsDates action).origin r' hr' with ⟨r, hr, hid, hdates⟩ | ⟨hnew, _⟩ |
    ⟨n, x, occasion, haction, hasked, _⟩
  · have hscheduled : r.scheduledAt = r'.scheduledAt := congrArg Dates.scheduledAt hdates
    exact hscheduled ▸ hdue r hr hid
  · exact absurd hnew (Nat.not_le_of_lt hold)
  · exact absurd hasked (hunasked n x occasion haction)

end OnTime

/-- A request is for a retrieval status that is due, and that was not retrieved
within the least interval of its source. -/
def AsksOnTime (least : Nat → Int) (s : Timed) (action : Action) : Prop :=
  ∀ n x occasion rsId rs work, action = .job n x occasion → s.app.requested n = some rsId →
    lookup rsId s.app.db = .ok (rs, work) → rs.scheduledAt ≤ occasion.moment.now ∧
      (rs.retrievedAt = Time.epoch ∨ rs.retrievedAt + least rs.sourceId ≤ occasion.moment.now)

/-- **No source is asked about a work before the interval is over.** -/
theorem requests_on_time (validCron : String → Bool) (queueable : Nat → Bool) (least : Nat → Int)
    (actions : List Action) (s : Timed) (hidle : s.app.Idle) (hspaced : Spaced least s.app.db)
    (h : Along (Timed.step validCron)
      (fun s action => s.app.LetsJobsFinish action ∧ Timely queueable least s action) actions s) :
    Along (Timed.step validCron) (AsksOnTime least) actions s := by
  have hstart : OnTime least s := by
    refine ⟨.idle hidle, fun r _ hpromised => ?_, hspaced⟩
    simp [App.promised, App.awaited, App.pending, hidle.jobs, hidle.running, hidle.calls]
      at hpromised
  refine along_of_invariant (P := OnTime least)
    (fun s action hs hc => hs.step hc.1 hc.2) (fun s action hs hc => ?_) hstart h
  rintro n x occasion rsId rs work rfl hrequested hlookup
  obtain ⟨hrow, hdue⟩ := hs.due_of_requested hrequested hlookup
  have hnow : rs.scheduledAt ≤ occasion.moment.now := hdue.trans (hc.2.clock _ rfl)
  exact ⟨hnow, (hs.spaced rs hrow).imp_right fun hspaced => hspaced.trans hnow⟩

/-- Two works that were looked at on the last day of May, and are due on the
first of June. -/
def dueInJune : Timed where
  app :=
    { db :=
        { sources := Table.empty.insert Source.citeulike
          works := (Table.empty.insert { tracked := true }).insert { tracked := true }
          retrievalStatuses := (Table.empty.insert
            { workId := 1, sourceId := 1, retrievedAt := 1433030400
              scheduledAt := 1433116800 }).insert
            { workId := 2, sourceId := 1, retrievedAt := 1433030401
              scheduledAt := 1433116801 } } }
  clock := 1433116800

/-- Nobody has bookmarked anything, and the work is due again the next day. -/
def nothingNew : Occasion where
  env := plainEnv
  web := Retrieval.unavailable
  moment := { now := 1433116800, staleAt := .ok 1433203200 }
  adapter := fun _ =>
    { getData := fun _ _ => .done (.hash [])
      parseData := fun _ data work => .done (Parsed.ofResult data, work) }

/-- Only the first work is due, and it is asked about. -/
def firstOfJune : List Action :=
  [.queueAllWorks 1 {} juneFirst, .slice 0 1433116800, .start 0, .job 0 juneFirst nothingNew,
    .job 0 juneFirst nothingNew]

/-- `rand` gives zero. -/
def noChance : Chance where
  next := fun _ now => .ok now
  rand := fun _ => 0
  next_after := fun _ _ _ h => le_of_eq (Except.ok.inj h)
  rand_nonneg := fun _ => le_rfl

theorem idle_dueInJune : dueInJune.app.Idle := by
  refine ⟨?_, rfl, rfl, rfl⟩
  unfold RetrievalStatus.Unqueued
  decide

/-- An action that neither requests nor queues by hand is timely if its time is
not too early. -/
theorem Timely.of_unasked {queueable : Nat → Bool} {s : Timed} {action : Action}
    (hclock : s.clock ≤ action.time.getD s.clock)
    (hhand : ∀ sourceId rsIds x, action ≠ .queueWorkJobs sourceId rsIds x)
    (hasked : ∀ n x occasion, action = .job n x occasion → s.app.requested n = none) :
    Timely queueable least s action where
  clock := by
    intro time htime
    rwa [htime] at hclock
  byHand := fun sourceId rsIds x h => absurd h (hhand sourceId rsIds x)
  punctual := by
    intro n x occasion haction rsId hrequested
    cases (hasked n x occasion haction).symm.trans hrequested

theorem first_work_asked_on_time :
    (StateMachine.run (Timed.step (fun _ => true)) (firstOfJune.take 4) dueInJune).app.requested 0 =
      some 1 ∧
    Along (Timed.step (fun _ => true)) (AsksOnTime (fun _ => 86400)) firstOfJune dueInJune := by
  refine ⟨by decide +kernel, requests_on_time (fun _ => true) (fun _ => true) _ _ dueInJune
    idle_dueInJune ?_ ?_⟩
  · unfold Spaced Dates.Fresh
    decide
  · have hstates : ∀ k ∈ [3, 4],
        ((StateMachine.run (Timed.step (fun _ => true)) (firstOfJune.take k)
          dueInJune).app.running[0]?.all (fun j => j.source.state ≠ .inactive)) = true := by
      decide +kernel
    have hsource : ((StateMachine.run (Timed.step (fun _ => true)) (firstOfJune.take 4)
        dueInJune).app.db.sources.rows.all (fun source =>
          source.staleness = [.day, .day, .seconds 648000, .month])) = true := by
      decide +kernel
    have hactive : ∀ k ∈ [3, 4], ∀ j, (StateMachine.run (Timed.step (fun _ => true))
        (firstOfJune.take k) dueInJune).app.running[0]? = some j → j.source.state ≠ .inactive := by
      intro k hk j hj
      have hstate := hstates k hk
      rw [hj] at hstate
      simpa using hstate
    refine ⟨⟨⟨rfl, fun _ _ id _ => untaken_of_quiet rfl rfl id⟩, .of_unasked ?_ nofun nofun⟩,
      ⟨trivial, .of_unasked le_rfl nofun nofun⟩, ⟨trivial, .of_unasked le_rfl nofun nofun⟩,
      ⟨fun j hj hinactive => absurd hinactive (hactive 3 (by simp) j hj), .of_unasked ?_ nofun ?_⟩,
      ⟨fun j hj hinactive => absurd hinactive (hactive 4 (by simp) j hj), ?_, nofun, ?_⟩, trivial⟩
    · decide +kernel
    · decide +kernel
    · rintro n x occasion haction
      cases haction
      decide +kernel
    · intro time htime
      cases htime
      decide +kernel
    · rintro n x occasion h rsId _ rs work source _ hfound
      cases h
      have hstaleness : source.staleness = [.day, .day, .seconds 648000, .month] := by
        simpa using List.all_eq_true.mp hsource source (Table.first_mem hfound)
      refine ⟨?_, noChance, 1433116800, plainEnv.today, { publishedOn := some plainEnv.today },
        le_rfl, ?_⟩
      · simp [Source.leastStaleness, hstaleness, Duration.least]
      · simp [staleAt, hstaleness, stalenessIndex, Date.daysSince, randomTime, Duration.since,
          noChance, nothingNew]

end Application

end Lagotto
