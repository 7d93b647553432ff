/-
Lagotto.Jobs.ApplicationTheorems — every mark belongs to a job.

`Running.step_cases` says what a step of a job does: it ends the job, in which
case all its retrieval statuses are unqueued, or it goes on and at most the
one it has worked on is. `Accounted` is the invariant that follows: a
retrieval status that is marked as queued belongs to a job that is on the
queue or running. It rests on the handler that takes every exception
(`handlerFor_eq_report`), and on the mark and the job of a slice being made
together.
-/
import Lagotto.Jobs.Application
import Lagotto.Jobs.SourceJobTheorems
import Lagotto.Source.QueueingTheorems

namespace Lagotto

open Relational
open StateMachine

namespace Application

open SourceJob

variable {s : Source} {sourceId : Nat} {db db' : Db}

/-! ## One step of a job -/

/-- Only the rows given are touched, and unmarked. -/
theorem clearQueuedAt_frame (rsIds : List Nat) (db : Db) :
    Db.Frame (fun r => r.id ∈ rsIds) RetrievalStatus.Unqueued db (clearQueuedAt rsIds db) := by
  have h := Table.touches_updateAll RetrievalStatus.Unqueued db.retrievalStatuses
    (fun r => rsIds.contains r.id) (fun r => { r with queuedAt := none }) (fun _ _ => rfl)
  exact Db.frame_of_touches (h.mono (fun r hr => List.contains_iff_mem.mp hr) (fun _ hr => hr))
    rfl rfl

theorem unqueued_clearQueuedAt {rsIds : List Nat} {r : RetrievalStatus}
    (hr : r ∈ (clearQueuedAt rsIds db).retrievalStatuses.rows) (hid : r.id ∈ rsIds) :
    r.Unqueued := by
  obtain ⟨old, _, rfl⟩ := List.mem_map.mp hr
  unfold Table.updateRow at hid ⊢
  split
  next => rfl
  next hnot =>
    rw [if_neg hnot] at hid
    exact absurd (List.contains_iff_mem.mpr hid) hnot

/-- A job that ends has unqueued its retrieval statuses, and those of the whole
source if it has found its own object inactive. -/
structure Running.Ends (j : Running) (before after : Db) : Prop where
  frame : Db.Frame (fun r => r.id ∈ j.rsIds ∨
    (j.source.state = .inactive ∧ r.sourceId = j.source.id)) RetrievalStatus.Unqueued before after
  released : ∀ r ∈ after.retrievalStatuses.rows, r.id ∈ j.rsIds → r.Unqueued

/-- A job that goes on has unqueued at most the retrieval status it has worked
on. -/
structure Running.GoesOn (j j' : Running) (before after : Db) : Prop where
  rsIds : j'.rsIds = j.rsIds
  source : j'.source.id = j.source.id
  progress : (j'.todo = j.todo ∧
      Db.Frame (fun _ => False) RetrievalStatus.Unqueued before after) ∨
    ∃ rsId, j.todo = rsId :: j'.todo ∧
      Db.Frame (fun r => r.id = rsId) RetrievalStatus.Unqueued before after

variable {validCron : String → Bool}

/-- Every exception ends in the same handler, which releases the job's marks. -/
theorem Running.ends_of_rescue {j : Running} {before : Db} {w : World} (e : Raised)
    (h : Db.Frame (fun r => r.id ∈ j.rsIds ∨
      (j.source.state = .inactive ∧ r.sourceId = j.source.id)) RetrievalStatus.Unqueued
      before w.db) :
    j.Ends before (rescueWithHandler j.rsIds s e w) := by
  unfold rescueWithHandler
  rw [handlerFor_eq_report]
  refine ⟨h.trans ?_, fun r hr => unqueued_clearQueuedAt hr⟩
  exact ((clearQueuedAt_frame j.rsIds w.db).mono (fun _ hr => Or.inl hr) (fun _ hr => hr)).trans
    (Db.frame_of_touches (.refl _) rfl rfl)

theorem entersInactive_waitAfterCheck (state : SourceState) :
    Source.Event.entersInactive .waitAfterCheck state = false := by
  cases state <;> rfl

/-- The end of a job touches the rows of its batch only. -/
theorem afterPerform_frame (validCron : String → Bool) (rsIds : List Nat) (p : Progress) :
    Db.Frame (fun r => r.id ∈ rsIds) RetrievalStatus.Unqueued p.world.db
      (afterPerform validCron rsIds p).world.db := by
  have hevent := p.source.fireEvent_frame validCron .waitAfterCheck
    { p.world with db := clearQueuedAt rsIds p.world.db }
  rw [db_afterPerform]
  refine (clearQueuedAt_frame rsIds p.world.db).trans (hevent.mono ?_ ?_)
  · rintro r ⟨_, h | h⟩
    · cases h
    · rw [entersInactive_waitAfterCheck] at h
      cases h
  · exact fun r hr => hr.1

/-- After a job its batch is unmarked. -/
theorem unqueued_afterPerform {rsIds : List Nat} {p : Progress} {r : RetrievalStatus}
    (hr : r ∈ (afterPerform validCron rsIds p).world.db.retrievalStatuses.rows)
    (hid : r.id ∈ rsIds) : r.Unqueued := by
  rw [db_afterPerform] at hr
  rcases (p.source.fireEvent_frame validCron .waitAfterCheck _).statuses.origin r hr with
    hold | ⟨⟨hunqueued, _⟩, _⟩
  · exact unqueued_clearQueuedAt hold hid
  · exact hunqueued

/-- The check is not passed with an inactive object. -/
theorem not_inactive_of_check {p : Progress} (h : (check validCron p).1 = .ok ()) :
    p.source.state ≠ .inactive := by
  intro hs
  have hworking := working_of_check h
  rw [source_check, Source.state_workAfterCheck_of_inactive (by rw [hs]; rfl), hs] at hworking
  cases hworking

/-- The check unqueues the whole source if the object is inactive. -/
theorem check_frame (validCron : String → Bool) (p : Progress) :
    Db.Frame (fun r => p.source.state = .inactive ∧ r.sourceId = p.source.id)
      RetrievalStatus.Unqueued p.world.db (check validCron p).2.world.db := by
  obtain ⟨alerts, hdb⟩ := db_check validCron p
  have hevent := p.source.fireEvent_frame validCron .workAfterCheck p.world
  have henters : Source.Event.entersInactive .workAfterCheck p.source.state = true →
      p.source.state = .inactive := by
    cases p.source.state <;> simp [Source.Event.entersInactive]
  rw [hdb]
  refine (hevent.mono ?_ ?_).trans (Db.frame_of_touches (.refl _) rfl rfl)
  · rintro r ⟨hr, h | h⟩
    · cases h
    · exact ⟨henters h, hr⟩
  · exact fun r hr => hr.1

theorem id_of_lookup {rsId : Nat} {rs : RetrievalStatus} {work : Work}
    (h : lookup rsId db = .ok (rs, work)) : rs.id = rsId := by
  unfold lookup at h
  split at h
  next => cases h
  next rs' hfirst =>
    split at h
    next => cases h
    next =>
      cases h
      simpa using Table.first_prop hfirst

/-- A request touches its own row only. -/
theorem request_frame (occasion : Occasion) (rs : RetrievalStatus) (work : Work) (db : Db) :
    Db.Frame (fun r => r.id = rs.id) RetrievalStatus.Unqueued db
      (SourceJob.request occasion rs work db).2 := by
  unfold SourceJob.request
  split
  next => exact .refl db
  next source _ =>
    have h := Retrieval.performGetData_frame occasion.env occasion.web occasion.moment
      (occasion.adapter source.type) { rs := rs, source := source, work := work } db
    exact Db.frame_of_touches h.statuses h.queue h.sources

/-- A check ends the job or lets it go on. -/
theorem Running.check_cases (j : Running) (x : Weather) (occasion : Occasion) (db : Db) :
    (∃ db', j.check validCron x occasion db = (none, db') ∧ j.Ends db db') ∨
      ∃ j' db', j.check validCron x occasion db = (some j', db') ∧ j.GoesOn j' db db' := by
  have hframe := check_frame validCron (j.progress x occasion db)
  have hsource := source_check validCron (j.progress x occasion db)
  unfold Running.check
  rcases hcheck : SourceJob.check validCron (j.progress x occasion db) with ⟨e | _, p⟩
  · rw [hcheck] at hframe
    exact Or.inl ⟨_, rfl, ends_of_rescue e (hframe.mono (fun _ hr => Or.inr hr) (fun _ hr => hr))⟩
  · have hpassed : j.source.state ≠ .inactive :=
      not_inactive_of_check (p := j.progress x occasion db) (by rw [hcheck])
    rw [hcheck] at hframe hsource
    refine Or.inr ⟨_, _, rfl, rfl, ?_, Or.inl ⟨rfl, ?_⟩⟩
    · exact (congrArg (fun s : Source => s.id) hsource).trans (Source.id_fireEvent ..)
    · exact hframe.mono (fun r hr => hpassed hr.1) (fun _ hr => hr)

/-- So does a request. -/
theorem Running.request_cases (j : Running) (x : Weather) (occasion : Occasion) (db : Db)
    {rsId : Nat} {rest : List Nat} (htodo : j.todo = rsId :: rest) :
    (∃ db', j.request x occasion rsId rest db = (none, db') ∧ j.Ends db db') ∨
      ∃ j' db', j.request x occasion rsId rest db = (some j', db') ∧ j.GoesOn j' db db' := by
  unfold Running.request
  cases hlookup : lookup rsId db with
  | error e => exact Or.inl ⟨_, rfl, ends_of_rescue e (.refl db)⟩
  | ok found =>
    obtain ⟨rs, work⟩ := found
    have hframe := request_frame occasion rs work db
    rw [id_of_lookup hlookup] at hframe
    dsimp only
    rcases hrequest : SourceJob.request occasion rs work db with ⟨e | _, db'⟩
    · rw [hrequest] at hframe
      refine Or.inl ⟨_, rfl, ends_of_rescue e ?_⟩
      refine hframe.mono (fun r hr => Or.inl ?_) (fun _ hr => hr)
      rw [hr, Running.rsIds, htodo]
      simp
    · rw [hrequest] at hframe
      refine Or.inr ⟨_, _, rfl, ?_, rfl, Or.inr ⟨rsId, htodo, hframe⟩⟩
      simp [Running.rsIds, htodo]

/-- **What a step of a job does.** -/
theorem Running.step_cases (validCron : String → Bool) (x : Weather) (occasion : Occasion)
    (j : Running) (db : Db) :
    (∃ db', j.step validCron x occasion db = (none, db') ∧ j.Ends db db') ∨
      ∃ j' db', j.step validCron x occasion db = (some j', db') ∧ j.GoesOn j' db db' := by
  unfold Running.step
  split
  next =>
    have hframe := afterPerform_frame validCron j.rsIds (j.progress x occasion db)
    exact Or.inl ⟨_, rfl, hframe.mono (fun _ hr => Or.inl hr) (fun _ hr => hr),
      fun r hr => unqueued_afterPerform hr⟩
  next rsId rest htodo =>
    split
    next => exact j.request_cases x occasion db htodo
    next => exact j.check_cases x occasion db

/-! ## One action -/

namespace App

variable {a : App}

theorem withSource_none {f : Source → App} (h : a.db.findSource sourceId = none) :
    a.withSource sourceId f = a := by
  simp [withSource, h]

theorem withSource_some {f : Source → App} (h : a.db.findSource sourceId = some s) :
    a.withSource sourceId f = f s := by
  simp [withSource, h]

/-- What holds of an application, and of every outcome for a stored source,
holds after loading a source. -/
theorem withSource_induction {P : App → Prop} {f : Source → App} (ha : P a)
    (hf : ∀ s, a.db.findSource sourceId = some s → P (f s)) : P (a.withSource sourceId f) := by
  cases h : a.db.findSource sourceId with
  | none =>
    rw [withSource_none h]
    exact ha
  | some s =>
    rw [withSource_some h]
    exact hf s h

/-- The beginning of a call touches no retrieval status and no job. -/
theorem beginCall_cases (validCron : String → Bool) (imports : Bool) (x : Weather) (a : App)
    (s : Source) (rsIds : List Nat) :
    ∃ db', Db.Frame (fun _ => False) RetrievalStatus.Unqueued a.db db' ∧
      (a.beginCall validCron imports x s rsIds = { a with db := db' } ∨
        ∃ c : Call, c.imports = imports ∧ c.source.id = s.id ∧
          (c.slices = [] ∨ c.slices.flatten = rsIds) ∧
          a.beginCall validCron imports x s rsIds =
            { a with db := db', calls := a.calls ++ [c] }) := by
  obtain ⟨result, s', w', hslices, hid, hframe, hflatten⟩ :=
    s.toSlices_cases validCron rsIds (x.world a.db)
  refine ⟨w'.db, hframe, ?_⟩
  unfold beginCall
  rw [hslices]
  cases result with
  | error e => exact Or.inl rfl
  | ok slices => exact Or.inr ⟨⟨imports, s', slices⟩, rfl, hid, hflatten slices rfl, rfl⟩

/-- A call queues its next slice, or there is none. -/
theorem slice_cases (n : Nat) (now : Time) (a : App) :
    a.slice n now = a ∨ ∃ c rsIds rest, a.calls[n]? = some c ∧ c.slices = rsIds :: rest ∧
      a.slice n now =
        { a with
          db := if c.imports then Source.importSlice rsIds a.db
            else c.source.queueSlice now rsIds a.db
          calls := a.calls.set n { c with slices := rest } } := by
  unfold slice
  cases hc : a.calls[n]? with
  | none => exact Or.inl rfl
  | some c =>
    cases hs : c.slices with
    | nil => exact Or.inl (by simp [hs])
    | cons rsIds rest => exact Or.inr ⟨c, rsIds, rest, rfl, hs, by simp [hs]⟩

/-- A job that starts moves from the queue to the running ones. -/
theorem start_cases (n : Nat) (a : App) :
    a.start n = a ∨ ∃ rsIds sourceId db',
      a.db.sourceJobs.Perm ((rsIds, sourceId) :: db'.sourceJobs) ∧
      db'.retrievalStatuses = a.db.retrievalStatuses ∧ db'.sources = a.db.sources ∧
      (a.start n = { a with db := db' } ∧ a.db.findSource sourceId = none ∨
        ∃ s, a.db.findSource sourceId = some s ∧
          a.start n = { a with
            db := db', running := a.running ++ [{ source := s, todo := rsIds }] }) := by
  unfold start
  cases hjob : a.db.queue[n]? with
  | none => exact Or.inl rfl
  | some job =>
    cases job with
    | source rsIds sourceId =>
      right
      obtain ⟨hlt, hget⟩ := List.getElem?_eq_some_iff.mp hjob
      refine ⟨rsIds, sourceId, { a.db with queue := a.db.queue.eraseIdx n }, ?_, rfl, rfl, ?_⟩
      · have hperm := (List.getElem_cons_eraseIdx_perm hlt).symm.filterMap Job.sourceArguments
        rw [hget] at hperm
        exact hperm
      · cases hs : a.db.findSource sourceId with
        | none => exact Or.inl ⟨withSource_none hs, rfl⟩
        | some s => exact Or.inr ⟨s, rfl, withSource_some hs⟩
    | _ => exact Or.inl rfl

/-- A step of a job ends it or takes it further. -/
theorem job_cases (validCron : String → Bool) (n : Nat) (x : Weather) (occasion : Occasion)
    (a : App) :
    a.job validCron n x occasion = a ∨ ∃ j, a.running[n]? = some j ∧
      ((∃ db', j.Ends a.db db' ∧ a.job validCron n x occasion =
          { a with db := db', running := a.running.eraseIdx n }) ∨
        ∃ j' db', j.GoesOn j' a.db db' ∧ a.job validCron n x occasion =
          { a with db := db', running := a.running.set n j' }) := by
  unfold job
  cases hj : a.running[n]? with
  | none => exact Or.inl rfl
  | some j =>
    right
    rcases j.step_cases validCron x occasion a.db with ⟨db', hstep, hends⟩ | ⟨j', db', hstep, hgoes⟩
    · exact ⟨j, rfl, Or.inl ⟨db', hends, by simp [hstep]⟩⟩
    · exact ⟨j, rfl, Or.inr ⟨j', db', hgoes, by simp [hstep]⟩⟩

/-- A job that has started is unfinished still. -/
theorem unfinished_start {rsIds : List Nat} (s : Source)
    (hperm : a.db.sourceJobs.Perm ((rsIds, sourceId) :: db'.sourceJobs)) :
    ({ a with db := db', running := a.running ++ [{ source := s, todo := rsIds }] } :
      App).unfinished.Perm a.unfinished := by
  have hqueue := hperm.map (fun job : List Nat × Nat => job.1)
  simp only [unfinished, List.map_append, List.map_cons, List.map_nil] at hqueue ⊢
  calc db'.sourceJobs.map (·.1) ++ (a.running.map (·.rsIds) ++ [rsIds])
      = (db'.sourceJobs.map (·.1) ++ a.running.map (·.rsIds)) ++ [rsIds] :=
        (List.append_assoc ..).symm
    List.Perm _ (rsIds :: (db'.sourceJobs.map (·.1) ++ a.running.map (·.rsIds))) :=
        List.perm_append_singleton ..
    List.Perm _ (a.db.sourceJobs.map (·.1) ++ a.running.map (·.rsIds)) :=
        hqueue.symm.append_right _

/-- A job that has ended is not. -/
theorem unfinished_eraseIdx {n : Nat} {j : Running} (hj : a.running[n]? = some j)
    (hjobs : db'.sourceJobs = a.db.sourceJobs) :
    a.unfinished.Perm (j.rsIds ::
      ({ a with db := db', running := a.running.eraseIdx n } : App).unfinished) := by
  obtain ⟨hlt, hget⟩ := List.getElem?_eq_some_iff.mp hj
  have hrunning := (List.getElem_cons_eraseIdx_perm hlt).symm.map (·.rsIds)
  rw [hget, List.map_cons] at hrunning
  unfold unfinished
  rw [hjobs]
  exact (hrunning.append_left _).trans List.perm_middle

/-- One that goes on is the same job. -/
theorem unfinished_set {n : Nat} {j j' : Running} (hj : a.running[n]? = some j)
    (hrsIds : j'.rsIds = j.rsIds) (hjobs : db'.sourceJobs = a.db.sourceJobs) :
    ({ a with db := db', running := a.running.set n j' } : App).unfinished = a.unfinished := by
  obtain ⟨hlt, hget⟩ := List.getElem?_eq_some_iff.mp hj
  have hlt' : n < (a.running.map (·.rsIds)).length := by simpa using hlt
  have hset := List.set_getElem_self hlt'
  rw [List.getElem_map, hget] at hset
  unfold unfinished
  rw [hjobs, List.map_set, hrsIds, hset]

end App

/-! ## Every mark belongs to a job -/

/-- Marked retrieval statuses are in unfinished jobs. The jobs to come find
their source. -/
structure Accounted (a : App) : Prop where
  marks : ∀ r ∈ a.db.retrievalStatuses.rows, ¬ r.Unqueued → ∃ rsIds ∈ a.unfinished, r.id ∈ rsIds
  queued : ∀ job ∈ a.db.sourceJobs, (a.db.stateOf job.2).isSome = true
  called : ∀ c ∈ a.calls, (a.db.stateOf c.source.id).isSome = true

/-- Nothing is queued, and nobody is about to. -/
structure App.Idle (a : App) : Prop where
  unqueued : ∀ r ∈ a.db.retrievalStatuses.rows, r.Unqueued
  jobs : a.db.sourceJobs = []
  calls : a.calls = []
  running : a.running = []

/-- Without marks there is nothing to account for. -/
theorem App.Idle.accounted {a : App} (h : a.Idle) : Accounted a where
  marks := fun r hr hqueued => absurd (h.unqueued r hr) hqueued
  queued := by simp [h.jobs]
  called := by simp [h.calls]

theorem isSome_stateOf {id : Nat} (h : db.findSource id = some s) :
    (db.stateOf id).isSome = true := by
  simp [Db.stateOf, h]

theorem id_findSource {id : Nat} (h : db.findSource id = some s) :
    s.id = id := by
  simpa using Table.first_prop h

namespace Accounted

variable {a : App}

/-- What only unqueues keeps the invariant. -/
theorem of_frame (h : Accounted a) {touched : RetrievalStatus → Prop}
    (hframe : Db.Frame touched RetrievalStatus.Unqueued a.db db') :
    Accounted { a with db := db' } where
  marks := by
    intro r hr hqueued
    have := h.marks r (hframe.queued hr hqueued) hqueued
    simpa only [App.unfinished, hframe.jobs] using this
  queued := by
    intro job hjob
    rw [hframe.jobs] at hjob
    rw [hframe.known]
    exact h.queued job hjob
  called := by
    intro c hc
    rw [hframe.known]
    exact h.called c hc

theorem beginCall (h : Accounted a) (hs : a.db.findSource sourceId = some s) (imports : Bool)
    (x : Weather) (rsIds : List Nat) :
    Accounted (a.beginCall validCron imports x s rsIds) := by
  obtain ⟨db', hframe, hbegin | ⟨c, _, hid, _, hbegin⟩⟩ :=
    App.beginCall_cases validCron imports x a s rsIds
  · rw [hbegin]
    exact h.of_frame hframe
  · rw [hbegin]
    have h' := h.of_frame hframe
    refine ⟨h'.marks, h'.queued, ?_⟩
    intro c' hc'
    rcases List.mem_append.mp hc' with hold | hnew
    · exact h'.called c' hold
    · rw [List.mem_singleton.mp hnew, hid, id_findSource hs, hframe.known]
      exact isSome_stateOf hs

theorem slice (h : Accounted a) (n : Nat) (now : Time) : Accounted (a.slice n now) := by
  rcases App.slice_cases n now a with hslice | ⟨c, rsIds, rest, hc, _, hslice⟩
  · rw [hslice]
    exact h
  · have hcall : ∀ c' ∈ a.calls.set n { c with slices := rest },
        (a.db.stateOf c'.source.id).isSome = true := by
      intro c' hc'
      rcases List.mem_or_eq_of_mem_set hc' with hold | rfl
      · exact h.called c' hold
      · exact h.called c (List.mem_of_getElem? hc)
    rw [hslice]
    split
    next =>
      have h' := h.of_frame (Source.importSlice_frame rsIds a.db)
      exact ⟨h'.marks, h'.queued, hcall⟩
    next =>
      refine ⟨?_, ?_, hcall⟩
      · intro r hr hqueued
        have hunfinished : ∀ ids, ids ∈ a.unfinished ∨ ids = rsIds → ids ∈
            ({ a with db := c.source.queueSlice now rsIds a.db
                      calls := a.calls.set n { c with slices := rest } } : App).unfinished := by
          intro ids hids
          simp only [App.unfinished, Source.sourceJobs_queueSlice, List.map_append, List.mem_append,
            List.map_cons, List.map_nil, List.mem_singleton] at hids ⊢
          tauto
        rcases Source.mem_queueSlice hr with ⟨hin, _⟩ | ⟨_, hold⟩
        · exact ⟨rsIds, hunfinished rsIds (Or.inr rfl), hin⟩
        · obtain ⟨ids, hids, hin⟩ := h.marks r hold hqueued
          exact ⟨ids, hunfinished ids (Or.inl hids), hin⟩
      · intro job hjob
        rw [Source.sourceJobs_queueSlice] at hjob
        rcases List.mem_append.mp hjob with hold | hnew
        · exact h.queued job hold
        · rw [List.mem_singleton.mp hnew]
          exact h.called c (List.mem_of_getElem? hc)

theorem start (h : Accounted a) (n : Nat) : Accounted (a.start n) := by
  rcases App.start_cases n a with hstart | ⟨rsIds, sourceId, db', hperm, hstatuses, hsources, hs⟩
  · rw [hstart]
    exact h
  · have hknown : ∀ id, db'.stateOf id = a.db.stateOf id := by
      intro id
      unfold Db.stateOf Db.findSource
      rw [hsources]
    rcases hs with ⟨_, hnone⟩ | ⟨s, _, hstart⟩
    · -- a job whose source is gone would lose its marks, but there is none
      have hsome := h.queued (rsIds, sourceId) (hperm.mem_iff.mpr (List.mem_cons_self ..))
      simp [Db.stateOf, hnone] at hsome
    · rw [hstart]
      refine ⟨?_, ?_, ?_⟩
      · intro r hr hqueued
        rw [hstatuses] at hr
        obtain ⟨ids, hids, hin⟩ := h.marks r hr hqueued
        exact ⟨ids, (App.unfinished_start s hperm).mem_iff.mpr hids, hin⟩
      · intro job hjob
        rw [hknown]
        exact h.queued job (hperm.mem_iff.mpr (List.mem_cons_of_mem _ hjob))
      · intro c hc
        rw [hknown]
        exact h.called c hc

theorem job (h : Accounted a) (n : Nat) (x : Weather) (occasion : Occasion) :
    Accounted (a.job validCron n x occasion) := by
  rcases App.job_cases validCron n x occasion a with hjob | ⟨j, hj, ⟨db', hends, hjob⟩ |
    ⟨j', db', hgoes, hjob⟩⟩
  · rw [hjob]
    exact h
  · rw [hjob]
    have h' := h.of_frame hends.frame
    refine ⟨?_, h'.queued, h'.called⟩
    intro r hr hqueued
    obtain ⟨ids, hids, hin⟩ := h.marks r (hends.frame.queued hr hqueued) hqueued
    rcases List.mem_cons.mp ((App.unfinished_eraseIdx hj hends.frame.jobs).mem_iff.mp hids) with
      rfl | hother
    · exact absurd (hends.released r hr hin) hqueued
    · exact ⟨ids, hother, hin⟩
  · rw [hjob]
    obtain ⟨touched, hframe⟩ : ∃ touched,
        Db.Frame touched RetrievalStatus.Unqueued a.db db' := by
      rcases hgoes.progress with ⟨_, hframe⟩ | ⟨_, _, hframe⟩
      · exact ⟨_, hframe⟩
      · exact ⟨_, hframe⟩
    have h' := h.of_frame hframe
    refine ⟨?_, h'.queued, h'.called⟩
    intro r hr hqueued
    rw [App.unfinished_set hj hgoes.rsIds hframe.jobs]
    exact h.marks r (hframe.queued hr hqueued) hqueued

/-- **Every action keeps the invariant.** -/
theorem step (h : Accounted a) (action : Action) : Accounted (a.step validCron action) := by
  cases action with
  | queueAllWorks sourceId options x =>
    exact App.withSource_induction h (fun s hs => h.beginCall hs false x _)
  | queueWorkJobs sourceId rsIds x =>
    exact App.withSource_induction h (fun s hs => h.beginCall hs false x rsIds)
  | importFromCouchdb sourceId x =>
    exact App.withSource_induction h (fun s hs => h.beginCall hs true x _)
  | queueImportJobs sourceId rsIds x =>
    exact App.withSource_induction h (fun s hs => h.beginCall hs true x rsIds)
  | slice n now => exact h.slice n now
  | reset sourceId =>
    refine App.withSource_induction h (fun s _ => ?_)
    split
    · exact h.of_frame (s.resetQueue_frame a.db)
    · exact h
  | admin sourceId event x =>
    refine App.withSource_induction h (fun s _ => ?_)
    have hframe := s.fireEvent_frame validCron event.event (x.world a.db)
    exact h.of_frame (hframe.mono (fun _ hr => hr) (fun _ hr => hr.1))
  | start n => exact h.start n
  | job n x occasion => exact h.job n x occasion

end Accounted

/-- **No mark is left behind.** After any actions in any order, a retrieval
status that is marked as queued belongs to a job that is on the queue or
running. -/
theorem marks_belong_to_jobs (validCron : String → Bool) (actions : List Action) (a : App)
    (hidle : a.Idle) :
    ∀ r ∈ (a.run validCron actions).db.retrievalStatuses.rows, r.queuedAt ≠ none →
      ∃ rsIds ∈ (a.run validCron actions).unfinished, r.id ∈ rsIds := by
  have h : Accounted (a.run validCron actions) :=
    run_invariant (fun a action h => h.step action) hidle.accounted actions
  exact h.marks

/-- A source with two works that are due. -/
def shelf : App where
  db :=
    { sources := Table.empty.insert Source.citeulike
      works := (Table.empty.insert { tracked := true }).insert { tracked := true }
      retrievalStatuses := (Table.empty.insert
        { workId := 1, sourceId := 1 }).insert { workId := 2, sourceId := 1 } }

theorem idle_shelf : shelf.Idle := by
  refine ⟨?_, rfl, rfl, rfl⟩
  unfold RetrievalStatus.Unqueued
  decide

/-- The first of June 2015, with nobody else around. -/
def juneFirst : Weather where
  now := 1433116800
  changes := fun _ => { now := 1433116800 }

/-- Both are queued, and belong to the job that is enqueued. -/
theorem queued_shelf_has_job :
    (shelf.run (fun _ => true) [.queueAllWorks 1 {} juneFirst,
      .slice 0 1433116800]).db.retrievalStatuses.rows.map (·.queuedAt) =
        [some 1433116800, some 1433116800] ∧
    ∀ r ∈ (shelf.run (fun _ => true) [.queueAllWorks 1 {} juneFirst,
      .slice 0 1433116800]).db.retrievalStatuses.rows, r.queuedAt ≠ none →
        ∃ rsIds ∈ (shelf.run (fun _ => true) [.queueAllWorks 1 {} juneFirst,
          .slice 0 1433116800]).unfinished, r.id ∈ rsIds :=
  ⟨by decide +kernel, marks_belong_to_jobs (fun _ => true) _ shelf idle_shelf⟩

end Application

end Lagotto
