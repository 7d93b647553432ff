/-
Lagotto.Source.CoverageTheorems — which tracked works have a retrieval status
for every installed source.

`Covered` is the invariant: no pair of work and source has two retrieval
statuses, a tracked work has one for every installed source unless the job
that inserts it still waits, and installed sources are valid (an invalid one
would be passed over when a work is created). Every operation keeps it but
for two: an update that turns an untracked work into a tracked one, and an
event that takes an obsolete source from `available` to `retired`.
`TracksOnlyReady` rules these two out, and `tracked_works_covered` is the result for
all runs.
-/
import Lagotto.StateMachine.Runs
import Lagotto.Source.Coverage
import Lagotto.Source.StatableTheorems
import Lagotto.Work.FindOrCreateTheorems

namespace Lagotto

open Relational StateMachine

/-! ## The invariant -/

/-- The works and sources of the retrieval statuses. -/
def statusPairs (statuses : Table RetrievalStatus) : List (Nat × Nat) :=
  statuses.rows.map fun r => (r.workId, r.sourceId)

/-- The work has a retrieval status for the source, or is going to have one. -/
def Awaits (db : Db) (workId sourceId : Nat) : Prop :=
  (workId, sourceId) ∈ statusPairs db.retrievalStatuses ∨ .insertRetrieval sourceId ∈ db.queue

structure Covered (env : Env) (db : Db) : Prop where
  one : (statusPairs db.retrievalStatuses).Nodup
  each : ∀ work ∈ db.works.rows, work.tracked = true → ∀ s ∈ db.sources.rows,
    s.state.installed = true → Awaits db work.id s.id
  valid : ∀ s ∈ db.sources.rows, s.state.installed = true → s.errors env.validCron = []

variable {env : Env} {db db' : Db}

/-- Tables that have no part in it. -/
theorem Covered.congr (h : Covered env db) (hworks : db'.works = db.works)
    (hsources : db'.sources = db.sources) (hstatuses : db'.retrievalStatuses = db.retrievalStatuses)
    (hqueue : db'.queue = db.queue) : Covered env db' := by
  refine ⟨?_, ?_, ?_⟩
  · rw [hstatuses]
    exact h.one
  · unfold Awaits
    rw [hworks, hsources, hstatuses, hqueue]
    exact h.each
  · rw [hsources]
    exact h.valid

/-! ## Works -/

theorem mem_installedSources {s : Source} :
    s ∈ installedSources db ↔ s ∈ db.sources.rows ∧ s.state.installed = true := by
  rw [installedSources, (List.perm_insertionSort _ _).mem_iff, List.mem_filter]

theorem statusPairs_createRetrievals (workId : Nat)
    (h : (statusPairs db.retrievalStatuses).Nodup) :
    (statusPairs (createRetrievals env workId db).retrievalStatuses).Nodup := by
  refine Table.nodup_map_firstOrCreateAll (fun s => (workId, s.id)) ?_ ?_ h
  · intro s r
    simp
  · intro s n
    rfl

theorem mem_statusPairs_createRetrievals (workId : Nat) {pair : Nat × Nat}
    (h : pair ∈ statusPairs db.retrievalStatuses) :
    pair ∈ statusPairs (createRetrievals env workId db).retrievalStatuses := by
  obtain ⟨r, hr, rfl⟩ := List.mem_map.mp h
  exact List.mem_map_of_mem (Table.mem_firstOrCreateAll_of_mem _ _ hr)

/-- The new work has a retrieval status for every source that is installed and
valid. -/
theorem statusPairs_of_installed (workId : Nat) {s : Source} (hs : s ∈ db.sources.rows)
    (hinstalled : s.state.installed = true) (hvalid : s.errors env.validCron = []) :
    (workId, s.id) ∈ statusPairs (createRetrievals env workId db).retrievalStatuses := by
  have hitem : s ∈ (installedSources db).filter (fun s => (s.errors env.validCron).isEmpty) :=
    List.mem_filter.mpr ⟨mem_installedSources.mpr ⟨hs, hinstalled⟩, by simp [hvalid]⟩
  have hfound : ∃ r ∈ (createRetrievals env workId db).retrievalStatuses.rows,
      (r.workId == workId && r.sourceId == s.id) = true := by
    unfold createRetrievals
    exact Table.exists_mem_firstOrCreateAll (fun s n => by simp [Row.withId]) hitem
  obtain ⟨r, hr, hsel⟩ := hfound
  exact List.mem_map.mpr ⟨r, hr, by simpa using hsel⟩

@[simp] theorem Work.tracked_row (env : Env) (w : Work) : (w.row env).tracked = w.tracked := by
  rw [Work.row_eq]

theorem Covered.createRetrievals (h : Covered env db) {row : Work} (created : Db)
    (hcreated : created = { db with works := db.works.insert row }) :
    Covered env (Lagotto.createRetrievals env db.works.nextId created) := by
  subst hcreated
  refine ⟨statusPairs_createRetrievals _ h.one, ?_, h.valid⟩
  intro work hwork htracked s hs hinstalled
  rcases Table.mem_insert.mp hwork with hold | rfl
  · rcases h.each work hold htracked s hs hinstalled with hpair | hjob
    · exact Or.inl (mem_statusPairs_createRetrievals _ hpair)
    · exact Or.inr hjob
  · exact Or.inl (statusPairs_of_installed db.works.nextId hs hinstalled (h.valid s hs hinstalled))

theorem Covered.insert_untracked (h : Covered env db) {row : Work} (hrow : row.tracked = false) :
    Covered env { db with works := db.works.insert row } := by
  refine ⟨h.one, ?_, h.valid⟩
  intro work hwork htracked
  rcases Table.mem_insert.mp hwork with hold | rfl
  · exact h.each work hold htracked
  · have hfalse : row.tracked = true := htracked
    rw [hrow] at hfalse
    cases hfalse

theorem Covered.createWork (h : Covered env db) {p : Params} {id : Nat}
    (hcreate : createWork env p db = .ok (id, db')) : Covered env db' := by
  unfold Lagotto.createWork at hcreate
  split at hcreate
  · cases hcreate
  · obtain ⟨_, rfl⟩ := Prod.mk.inj (Except.ok.inj hcreate)
    split
    · exact h.createRetrievals _ rfl
    next huntracked => exact h.insert_untracked (by simpa using huntracked)

/-- A row is written back that is not tracked, or has its retrieval
statuses. -/
theorem Covered.writeWork (h : Covered env db) {work : Work}
    (hready : work.tracked = true → ∀ s ∈ db.sources.rows, s.state.installed = true →
      Awaits db work.id s.id) : Covered env (db.writeWork work) := by
  refine ⟨h.one, ?_, h.valid⟩
  intro other hother htracked
  rcases Table.mem_put.mp hother with ⟨hold, _⟩ | ⟨rfl, _⟩
  · exact h.each other hold htracked
  · exact hready htracked

/-- The update does not turn the work into a tracked one, or it has its
retrieval statuses already. -/
def ReadyFor (db : Db) (work : Work) (p : Params) : Prop :=
  work.tracked = true ∨ (work.assign p).tracked = false ∨
    ∀ s ∈ db.sources.rows, s.state.installed = true → Awaits db work.id s.id

theorem Covered.updateAttributes (h : Covered env db) {work : Work} {p : Params}
    (hwork : work ∈ db.works.rows) (hready : ReadyFor db work p)
    (hupdate : updateAttributes env work p db = .ok (some db')) : Covered env db' := by
  obtain ⟨_, _, rfl⟩ := updateAttributes_some hupdate
  refine h.writeWork fun htracked s hs hinstalled => ?_
  rw [Work.tracked_row] at htracked
  rw [Work.id_row]
  rcases hready with hold | hnot | hcovered
  · exact h.each work hwork hold s hs hinstalled
  · rw [hnot] at htracked
    cases htracked
  · exact hcovered s hs hinstalled

theorem Covered.updateRelations (h : Covered env db) (workId : Nat) (data : List RelatedWork) :
    Covered env (updateRelations env workId data db) :=
  h.congr rfl rfl rfl rfl

/-- What `find_or_create` may find. -/
def FindsReady (env : Env) (db : Db) (p : Params) : Prop :=
  ∀ e c work, createWork env p db = .error e → Conflict.of? e.message = some c →
    findWork env c.lookup p db = some work → p.isTracked = true →
    ReadyFor db work (p.except c.lookup)

theorem Covered.findOrCreate (h : Covered env db) {p : Params} (hready : FindsReady env db p) :
    Covered env (findOrCreate env p db).2 := by
  unfold Lagotto.findOrCreate
  split
  next id created hcreate => exact (h.createWork hcreate).updateRelations id p.relatedWorks
  next e hcreate =>
    split
    · split
      next c hc =>
        rcases rescueConflict_cases env c p db with ⟨_, hres⟩ | ⟨_, _, _, _, _, hres⟩ |
          ⟨work, _, _, hres⟩ | ⟨work, db', hfind, htracked, hupdate, hres⟩
        · rw [hres]
          exact h
        · rw [hres]
          exact h
        · rw [hres]
          exact h.updateRelations work.id p.relatedWorks
        · rw [hres]
          have hwork : work ∈ db.works.rows := Table.first_mem hfind
          have hwritten := h.updateAttributes hwork (hready e c work hcreate hc hfind htracked)
            hupdate
          exact hwritten.updateRelations work.id p.relatedWorks
      · exact h.congr rfl rfl rfl rfl
    · exact h

/-! ## `InsertRetrievalJob` -/

theorem statusPairs_foldl_insert (sourceId : Nat) (works : List Work) (t : Table RetrievalStatus) :
    statusPairs (works.foldl (fun t work => t.insert { workId := work.id, sourceId := sourceId })
      t) = statusPairs t ++ works.map (fun work => (work.id, sourceId)) := by
  induction works generalizing t with
  | nil => simp
  | cons work rest ih =>
    rw [List.foldl_cons, ih]
    simp [statusPairs, Row.withId]

/-- Afterwards every work has a retrieval status for the source. -/
theorem mem_statusPairs_insertRetrievals {sourceId : Nat} {work : Work}
    (hwork : work ∈ db.works.rows) :
    (work.id, sourceId) ∈ statusPairs (insertRetrievals sourceId db).retrievalStatuses := by
  unfold insertRetrievals
  rw [statusPairs_foldl_insert, List.mem_append]
  by_cases hthere : (work.id, sourceId) ∈ statusPairs db.retrievalStatuses
  · exact Or.inl hthere
  · refine Or.inr (List.mem_map_of_mem (List.mem_filter.mpr ⟨hwork, ?_⟩))
    simp only [Bool.not_eq_true', List.contains_eq_mem, decide_eq_false_iff_not]
    intro hmem
    obtain ⟨r, hr, hid⟩ := List.mem_map.mp hmem
    obtain ⟨hr, hsource⟩ := List.mem_filter.mp hr
    exact hthere (List.mem_map.mpr ⟨r, hr, by rw [hid, beq_iff_eq.mp hsource]⟩)

theorem statusPairs_subset_insertRetrievals {sourceId : Nat} {pair : Nat × Nat}
    (h : pair ∈ statusPairs db.retrievalStatuses) :
    pair ∈ statusPairs (insertRetrievals sourceId db).retrievalStatuses := by
  unfold insertRetrievals
  rw [statusPairs_foldl_insert]
  exact List.mem_append_left _ h

theorem nodup_insertRetrievals (sourceId : Nat) (h : (statusPairs db.retrievalStatuses).Nodup) :
    (statusPairs (insertRetrievals sourceId db).retrievalStatuses).Nodup := by
  unfold insertRetrievals
  rw [statusPairs_foldl_insert]
  refine List.nodup_append.mpr ⟨h, ?_, ?_⟩
  · have hids : (db.works.rows.map (·.id)).Nodup := db.works.ids_nodup
    have hpairs : (db.works.rows.map fun work => (work.id, sourceId)).Nodup := by
      have hmap : (db.works.rows.map fun work => (work.id, sourceId)) =
          (db.works.rows.map (·.id)).map fun id => (id, sourceId) := by
        rw [List.map_map]
        rfl
      rw [hmap]
      exact hids.map fun a b heq => (Prod.mk.inj heq).1
    exact hpairs.sublist (List.filter_sublist.map _)
  · rintro pair hpair _ hnew rfl
    obtain ⟨work, hwork, rfl⟩ := List.mem_map.mp hnew
    obtain ⟨_, hmissing⟩ := List.mem_filter.mp hwork
    simp only [Bool.not_eq_true', List.contains_eq_mem, decide_eq_false_iff_not] at hmissing
    obtain ⟨r, hr, heq⟩ := List.mem_map.mp hpair
    obtain ⟨hid, hsource⟩ := Prod.mk.inj heq
    exact hmissing (List.mem_map.mpr ⟨r, List.mem_filter.mpr ⟨hr, beq_iff_eq.mpr hsource⟩, hid⟩)

theorem Covered.insertRetrieval (h : Covered env db) (sourceId : Nat) :
    Covered env (insertRetrievals sourceId
      { db with queue := db.queue.erase (.insertRetrieval sourceId) }) := by
  refine ⟨nodup_insertRetrievals sourceId h.one, ?_, h.valid⟩
  intro work hwork htracked s hs hinstalled
  by_cases hsource : s.id = sourceId
  · rw [hsource]
    exact Or.inl (mem_statusPairs_insertRetrievals hwork)
  · rcases h.each work hwork htracked s hs hinstalled with hpair | hjob
    · exact Or.inl (statusPairs_subset_insertRetrievals hpair)
    · refine Or.inr ((List.mem_erase_of_ne ?_).mpr hjob)
      simpa using hsource

/-! ## Events -/

section Events

open Source

variable {s : Source} {event : Event} {w w' : World} {dest : SourceState}

/-- Only the guard of `uninstall` deletes. -/
theorem guard_tables {t : Transition SourceState World} (ht : t ∈ s.transitions event)
    (w : World) : (t.guard w).2.db.works = w.db.works ∧
      (event ≠ .uninstall → (t.guard w).2.db.retrievalStatuses = w.db.retrievalStatuses) := by
  cases event <;> simp only [transitions, List.mem_cons, List.not_mem_nil, or_false] at ht
  case uninstall =>
    rcases ht with rfl | rfl
    · exact ⟨rfl, fun h => absurd rfl h⟩
    · exact ⟨rfl, fun _ => rfl⟩
  case workAfterCheck =>
    rcases ht with rfl | rfl | rfl | rfl
    all_goals exact ⟨rfl, fun _ => rfl⟩
  all_goals
    rcases ht with rfl | rfl | rfl
    all_goals exact ⟨rfl, fun _ => rfl⟩

/-- The guards of the other events leave the tables as they are. -/
theorem choose_tables (hevent : event ≠ .uninstall) (s : Source) (w : World) :
    let w' := (choose (s.transitions event) s.state w).2
    w'.db.works = w.db.works ∧ w'.db.retrievalStatuses = w.db.retrievalStatuses ∧
      w'.db.sources = w.db.sources ∧ w'.db.queue = w.db.queue := by
  have hframe := choose_frame event s w
  obtain ⟨hworks, hstatuses⟩ : (choose (s.transitions event) s.state w).2.db.works = w.db.works ∧
      (choose (s.transitions event) s.state w).2.db.retrievalStatuses = w.db.retrievalStatuses := by
    refine choose_preserves (P := fun w' : World => w'.db.works = w.db.works ∧
      w'.db.retrievalStatuses = w.db.retrievalStatuses) (fun t ht w' h => ?_) ⟨rfl, rfl⟩
    obtain ⟨hw, hr⟩ := guard_tables ht w'
    exact ⟨hw.trans h.1, (hr hevent).trans h.2⟩
  exact ⟨hworks, hstatuses, hframe.sources, hframe.queue⟩

@[simp] theorem works_writeState (s : Source) (dest : SourceState) (w : World) :
    (s.writeState dest w).db.works = w.db.works := rfl

@[simp] theorem works_afterTransition (s : Source) (source dest : SourceState) (w : World) :
    (s.afterTransition source dest w).db.works = w.db.works := by
  unfold afterTransition
  simp only
  split_ifs <;> rfl

/-- The hooks unqueue retrieval statuses; works and sources stay the same. -/
theorem statusPairs_afterTransition (s : Source) (source dest : SourceState) (w : World) :
    statusPairs (s.afterTransition source dest w).db.retrievalStatuses =
      statusPairs w.db.retrievalStatuses := by
  rw [retrievalStatuses_afterTransition]
  split
  · simp only [statusPairs, removeQueues, Table.rows_updateAll, List.map_map]
    refine List.map_congr_left fun r _ => ?_
    simp only [Function.comp_apply, Table.updateRow]
    split <;> rfl
  · rfl

/-- A source that leaves `available`, but not for `retired`, has its job on the
queue. -/
theorem queue_afterTransition (s : Source) (source dest : SourceState) (w : World) :
    (s.afterTransition source dest w).db.queue = w.db.queue ++
      if source = .available ∧ dest ≠ .available ∧ dest ≠ .retired then
        [.insertRetrieval s.id, .cache s.id] else [] := by
  unfold afterTransition
  simp only
  split_ifs <;> simp [enqueueInstallJobs, removeQueues, reportDisabled, checkForRateLimits,
    World.pass, Db.fileAlert]

theorem mem_sources_writeState (hs : s ∈ w.db.sources.rows) {row : Source}
    (hrow : row ∈ (s.writeState dest w).db.sources.rows) :
    row = { s with state := dest } ∨ row ∈ w.db.sources.rows ∧ row.id ≠ s.id := by
  obtain ⟨other, hother, rfl⟩ := List.mem_map.mp hrow
  by_cases hid : other.id = s.id
  · left
    rw [w.db.sources.eq_of_id_eq hother hs hid]
    simp [Table.updateRow, Row.withId, Row.id]
  · right
    simp only [Table.updateRow, beq_eq_false_iff_ne.mpr hid, Bool.false_eq_true, if_false]
    exact ⟨hother, hid⟩

/-- Only installing or activating an obsolete source takes it from `available`
to `retired`. -/
theorem obsolete_of_choose_retired (hstate : s.state = .available)
    (h : choose (s.transitions event) s.state w = (some .retired, w')) :
    s.obsolete = true ∧ (event = .install ∨ event = .activate) := by
  rw [hstate] at h
  cases event
  case install =>
    cases hobsolete : s.obsolete with
    | true => exact ⟨rfl, Or.inl rfl⟩
    | false => simp [transitions, choose, among, hobsolete] at h
  case activate =>
    cases hobsolete : s.obsolete with
    | true => exact ⟨rfl, Or.inr rfl⟩
    | false => simp [transitions, choose, among, hobsolete] at h
  all_goals
    obtain ⟨t, ht, happlies, htarget⟩ := choose_target h
    simp only [transitions, List.mem_cons, List.not_mem_nil, or_false] at ht
    rcases ht with rfl | rfl | rfl | rfl
    all_goals simp_all [among, anyBut, any]

/-- A valid source is valid when it is not active. -/
theorem errors_available {validCron : String → Bool} (h : s.errors validCron = []) :
    ({ s with state := .available } : Source).errors validCron = [] := by
  unfold errors at h ⊢
  obtain ⟨hbase, _⟩ := List.append_eq_nil_iff.mp h
  exact List.append_eq_nil_iff.mpr ⟨hbase, rfl⟩

/-- `uninstall` takes the retrieval statuses away from a source that is not
installed any more. -/
theorem Covered.uninstall (h : Covered env w.db) (hs : s ∈ w.db.sources.rows)
    (hinstalled : s.state ≠ .available) :
    Covered env (s.fireEvent env.validCron .uninstall w).2.2.db := by
  have hs_installed : s.state.installed = true := by
    cases hstate : s.state <;> simp_all [SourceState.installed]
  rw [fireEvent_of_chosen (choose_uninstall hinstalled w)
    (errors_available (h.valid s hs hs_installed)), afterTransition_available]
  have hsources : ∀ row ∈ (s.writeState .available (s.removeAllRetrievals w).2).db.sources.rows,
      row.state.installed = true → row ∈ w.db.sources.rows ∧ row.id ≠ s.id := by
    intro row hrow hstill
    rcases mem_sources_writeState (w := (s.removeAllRetrievals w).2) hs hrow with rfl | hother
    · cases hstill
    · exact hother
  refine ⟨?_, ?_, fun row hrow hstill => h.valid row (hsources row hrow hstill).1 hstill⟩
  · rw [retrievalStatuses_writeState]
    exact h.one.sublist ((List.filter_sublist).map _)
  · intro work hwork htracked row hrow hstill
    obtain ⟨hold, hne⟩ := hsources row hrow hstill
    rw [works_writeState] at hwork
    unfold Awaits
    rw [retrievalStatuses_writeState, queue_writeState]
    rcases h.each work hwork htracked row hold hstill with hpair | hjob
    · obtain ⟨r, hr, heq⟩ := List.mem_map.mp hpair
      have hother : r.sourceId ≠ s.id := by
        rw [(Prod.mk.inj heq).2]
        exact hne
      exact Or.inl (List.mem_map.mpr ⟨r, mem_removeAllRetrievals.mpr ⟨hr, hother⟩, heq⟩)
    · exact Or.inr hjob

/-- An event that leads to `dest` and leaves the other tables alone. -/
theorem Covered.transition (h : Covered env w.db) (hs : s ∈ w.db.sources.rows)
    (hvalid : ({ s with state := dest } : Source).errors env.validCron = [])
    (hdest : s.state = .available → dest ≠ .retired) :
    Covered env (s.afterTransition s.state dest (s.writeState dest w)).db := by
  refine ⟨?_, ?_, ?_⟩
  · rw [statusPairs_afterTransition, retrievalStatuses_writeState]
    exact h.one
  · intro work hwork htracked row hrow hinstalled
    rw [works_afterTransition, works_writeState] at hwork
    rw [sources_afterTransition] at hrow
    unfold Awaits
    rw [statusPairs_afterTransition, queue_afterTransition, retrievalStatuses_writeState,
      queue_writeState, List.mem_append]
    have hkept : ∀ sourceId, Awaits w.db work.id sourceId →
        (work.id, sourceId) ∈ statusPairs w.db.retrievalStatuses ∨
          .insertRetrieval sourceId ∈ w.db.queue ∨ .insertRetrieval sourceId ∈
            if s.state = .available ∧ dest ≠ .available ∧ dest ≠ .retired then
              [.insertRetrieval s.id, .cache s.id] else ([] : List Job) := by
      rintro sourceId (hpair | hjob)
      · exact Or.inl hpair
      · exact Or.inr (Or.inl hjob)
    rcases mem_sources_writeState hs hrow with rfl | ⟨hold, _⟩
    · by_cases hstate : s.state = .available
      · -- the job of the source has been put on the queue
        have hleft : dest ≠ .available := by
          rintro rfl
          cases hinstalled
        exact Or.inr (Or.inr (by simp [hstate, hleft, hdest hstate]))
      · have hwas : s.state.installed = true := by
          cases hs' : s.state <;> simp_all [SourceState.installed]
        exact hkept s.id (h.each work hwork htracked s hs hwas)
    · exact hkept row.id (h.each work hwork htracked row hold hinstalled)
  · intro row hrow hinstalled
    rw [sources_afterTransition] at hrow
    rcases mem_sources_writeState hs hrow with rfl | ⟨hold, _⟩
    · exact hvalid
    · exact h.valid row hold hinstalled

/-- **Events.** Every event keeps the invariant, but for one that retires an
obsolete source which was not installed. -/
theorem Covered.fireEvent (h : Covered env w.db) (hs : s ∈ w.db.sources.rows)
    (hready : s.state = .available → s.obsolete = true →
      event ≠ .install ∧ event ≠ .activate) :
    Covered env (s.fireEvent env.validCron event w).2.2.db := by
  by_cases hevent : event = .uninstall
  · subst hevent
    by_cases hstate : s.state = .available
    · -- no transition applies, and no guard is consulted
      have hnone : choose (s.transitions .uninstall) s.state w = (none, w) := by
        rw [hstate]
        rfl
      unfold Source.fireEvent
      rw [fire_of_none hnone]
      exact h
    · exact h.uninstall hs hstate
  · obtain ⟨hworks, hstatuses, hsources, hqueue⟩ := choose_tables hevent s w
    rcases hchoose : choose (s.transitions event) s.state w with ⟨target, w'⟩
    rw [hchoose] at hworks hstatuses hsources hqueue
    have h' : Covered env w'.db := h.congr hworks hsources hstatuses hqueue
    cases target with
    | none =>
      unfold Source.fireEvent
      rw [fire_of_none hchoose]
      exact h'
    | some dest =>
      by_cases hvalid : ({ s with state := dest } : Source).errors env.validCron = []
      · rw [fireEvent_of_chosen hchoose hvalid]
        refine h'.transition (hsources.symm ▸ hs) hvalid fun hstate => ?_
        rintro rfl
        obtain ⟨hobsolete, hwhich⟩ := obsolete_of_choose_retired hstate hchoose
        obtain ⟨hinstall, hactivate⟩ := hready hstate hobsolete
        exact hwhich.elim hinstall hactivate
      · rw [fireEvent_of_invalid hchoose hvalid]
        exact h'

end Events

/-! ## Runs -/

/-- No work becomes tracked that lacks retrieval statuses, and no obsolete
source is installed. -/
def TracksOnlyReady (env : Env) (w : World) : CoverageAction → Prop
  | .findOrCreate p => FindsReady env w.db p
  | .update workId p => ∀ work, w.db.works.first (fun work => work.id == workId) = some work →
      ReadyFor w.db work p
  | .fire event sourceId => ∀ s, w.db.findSource sourceId = some s → s.state = .available →
      s.obsolete = true → event ≠ .install ∧ event ≠ .activate
  | _ => True

theorem Covered.step {w : World} {action : CoverageAction} (h : Covered env w.db)
    (hready : TracksOnlyReady env w action) : Covered env (action.apply env w).db := by
  cases action with
  | create p =>
    simp only [CoverageAction.apply]
    split
    next hcreate => exact h.createWork hcreate
    · exact h
  | findOrCreate p => exact h.findOrCreate hready
  | update workId p =>
    simp only [CoverageAction.apply]
    split
    · exact h
    next work hwork =>
      split
      next hupdate =>
        exact h.updateAttributes (Table.first_mem hwork) (hready work hwork) hupdate
      · exact h
  | fire event sourceId =>
    simp only [CoverageAction.apply]
    split
    · exact h
    next s hs => exact h.fireEvent (Table.first_mem hs) (hready s hs)
  | insertRetrieval sourceId =>
    simp only [CoverageAction.apply]
    split
    · exact h.insertRetrieval sourceId
    · exact h

/-- Whatever is done to works and sources, as long as only ready works are tracked: every
tracked work has exactly one retrieval status for every installed source
whose jobs are done. -/
theorem tracked_works_covered (env : Env) {w : World} (hstart : Covered env w.db)
    {actions : List CoverageAction}
    (hactions : Along (CoverageAction.apply env) (TracksOnlyReady env) actions w) :
    let db := (run (CoverageAction.apply env) actions w).db
    ∀ work ∈ db.works.rows, work.tracked = true → ∀ s ∈ db.sources.rows,
      s.state.installed = true → .insertRetrieval s.id ∉ db.queue →
      (db.retrievalStatuses.rows.filter
        (fun r => r.workId == work.id && r.sourceId == s.id)).length = 1 := by
  intro db work hwork htracked s hs hinstalled hdone
  have h : Covered env db :=
    invariant_along (P := fun w => Covered env w.db) (fun w _ h hready => h.step hready) hstart
      hactions
  have hpair : (work.id, s.id) ∈ statusPairs db.retrievalStatuses :=
    (h.each work hwork htracked s hs hinstalled).resolve_right hdone
  have hcount : (statusPairs db.retrievalStatuses).count (work.id, s.id) = 1 :=
    List.count_eq_one_of_mem h.one hpair
  rw [← List.countP_eq_length_filter]
  rw [statusPairs, List.count, List.countP_map] at hcount
  rw [← hcount]
  refine List.countP_congr fun r _ => ?_
  simp

/-- An installation with a source that is not installed, and no works. -/
def freshWith (type : SourceClass) : World where
  db := { sources := Table.empty.insert { type := type, name := "source", title := "Source" } }

/-- A work with a DOI. -/
def doiWork (tracked : Bool) : Params where
  col := fun
    | .doi => some (some "10.1234/one")
    | _ => none
  title := some (some "One")
  year := some (some 2014)
  tracked := some (.bool tracked)

theorem covered_freshWith (type : SourceClass) : Covered plainEnv (freshWith type).db := by
  refine ⟨List.nodup_nil, fun work hwork => ?_, fun s hs hinstalled => ?_⟩
  · cases hwork
  · rw [List.mem_singleton.mp hs] at hinstalled
    cases hinstalled

/-- A source is installed, its job done, and then a tracked work created. -/
def installThenCreate : List CoverageAction :=
  [.fire .install 1, .insertRetrieval 1, .create (doiWork true)]

theorem tracksOnlyReady_installThenCreate :
    Along (CoverageAction.apply plainEnv) (TracksOnlyReady plainEnv) installThenCreate
      (freshWith .citeulike) := by
  refine ⟨fun s hs _ hobsolete => ?_, trivial, trivial, trivial⟩
  cases hs
  cases hobsolete

theorem tracked_work_covered_by_citeulike :
    ∃ work ∈ (run (CoverageAction.apply plainEnv) installThenCreate
        (freshWith .citeulike)).db.works.rows, work.tracked = true ∧
      ((run (CoverageAction.apply plainEnv) installThenCreate
        (freshWith .citeulike)).db.retrievalStatuses.rows.filter
          (fun r => r.workId == work.id && r.sourceId == 1)).length = 1 := by
  have hworks : ∃ work ∈ (run (CoverageAction.apply plainEnv) installThenCreate
      (freshWith .citeulike)).db.works.rows, work.tracked = true := by
    decide +kernel
  have hsources : ∃ s ∈ (run (CoverageAction.apply plainEnv) installThenCreate
      (freshWith .citeulike)).db.sources.rows, s.state.installed = true ∧ s.id = 1 := by
    decide +kernel
  have hdone : .insertRetrieval 1 ∉ (run (CoverageAction.apply plainEnv) installThenCreate
      (freshWith .citeulike)).db.queue := by
    decide +kernel
  obtain ⟨work, hwork, htracked⟩ := hworks
  obtain ⟨s, hs, hinstalled, hid⟩ := hsources
  rw [← hid] at hdone
  have hone := tracked_works_covered plainEnv (covered_freshWith .citeulike)
    tracksOnlyReady_installThenCreate work hwork htracked s hs hinstalled hdone
  rw [hid] at hone
  exact ⟨work, hwork, htracked, hone⟩

/-- A work that was reported as untracked becomes tracked when it is reported
again, and an obsolete source is installed as retired: no retrieval status. -/
theorem tracked_later_not_covered :
    let db := (run (CoverageAction.apply plainEnv)
      [.fire .install 1, .insertRetrieval 1, .create (doiWork false), .findOrCreate (doiWork true)]
      (freshWith .citeulike)).db
    let db' := (run (CoverageAction.apply plainEnv)
      [.create (doiWork true), .fire .install 1] (freshWith .connotea)).db
    (db.works.rows.map (fun work => (work.id, work.tracked)) = [(1, true)] ∧
      db.sources.rows.map (fun s => (s.id, s.state.installed)) = [(1, true)] ∧
      .insertRetrieval 1 ∉ db.queue ∧ db.retrievalStatuses.rows.length = 0) ∧
    db'.works.rows.map (fun work => (work.id, work.tracked)) = [(1, true)] ∧
      db'.sources.rows.map (fun s => (s.id, s.state.installed)) = [(1, true)] ∧
      .insertRetrieval 1 ∉ db'.queue ∧ db'.retrievalStatuses.rows.length = 0 := by
  decide +kernel

end Lagotto
