/-
Lagotto.Source.StatableTheorems — what the events of a source do.

`fireEvent_of_chosen` reduces an event to the target its transitions choose.
For `uninstall` that target is always `available`: the guard has deleted
every retrieval status of the source by the time it counts them, so it never
refuses. For `work_after_check` the targets are read off the state and the
two checks, in their order.
-/
import Lagotto.Model.Frame
import Lagotto.Source.Statable

namespace Lagotto

open Relational
open StateMachine

namespace Source

variable {validCron : String → Bool} {s : Source} {w w' : World} {event : Event}
  {dest : SourceState}

/-! ## Saving a state -/

/-- The stored row of the source has this state. -/
def StoredState (s : Source) (w : World) (state : SourceState) : Prop :=
  ∃ row ∈ w.db.sources.rows, row.id = s.id ∧ row.state = state

theorem StoredState.unique {state state' : SourceState} (h : s.StoredState w state)
    (h' : s.StoredState w state') : state = state' := by
  obtain ⟨row, hrow, hid, rfl⟩ := h
  obtain ⟨row', hrow', hid', rfl⟩ := h'
  rw [w.db.sources.eq_of_id_eq hrow hrow' (hid.trans hid'.symm)]

/-- A write leaves the object's new state in the table, whatever was there. -/
theorem storedState_writeState {state : SourceState} (h : s.StoredState w state)
    (dest : SourceState) : s.StoredState (s.writeState dest w) dest := by
  obtain ⟨row, hrow, hid, _⟩ := h
  refine ⟨_, List.mem_map_of_mem hrow, ?_, ?_⟩
  · simp [Table.updateRow, hid, Row.withId, Row.id]
  · simp [Table.updateRow, hid, Row.withId]

@[simp] theorem retrievalStatuses_writeState (s : Source) (dest : SourceState) (w : World) :
    (s.writeState dest w).db.retrievalStatuses = w.db.retrievalStatuses := rfl

/-- The hooks leave the sources alone. -/
@[simp] theorem sources_afterTransition (s : Source) (source dest : SourceState) (w : World) :
    (s.afterTransition source dest w).db.sources = w.db.sources := by
  unfold afterTransition
  simp only
  split_ifs <;> rfl

/-- No hook runs for a transition to `available`. -/
theorem afterTransition_available (s : Source) (source : SourceState) (w : World) :
    s.afterTransition source .available w = w := by
  simp [afterTransition]

/-- An event whose transitions choose `dest` saves the source in it. -/
theorem fireEvent_of_chosen (hchoose : choose (s.transitions event) s.state w = (some dest, w'))
    (hvalid : ({ s with state := dest } : Source).errors validCron = []) :
    s.fireEvent validCron event w =
      (true, { s with state := dest }, s.afterTransition s.state dest (s.writeState dest w')) := by
  have hsave : (s.hooks validCron).save s.state dest w' = some (s.writeState dest w') := by
    simp [hooks, saveState, hvalid]
  unfold fireEvent
  rw [fire_of_saved hchoose hsave]
  rfl

/-- An event that would make the source invalid leaves it, and keeps what the
guards have done. -/
theorem fireEvent_of_invalid (hchoose : choose (s.transitions event) s.state w = (some dest, w'))
    (hinvalid : ({ s with state := dest } : Source).errors validCron ≠ []) :
    s.fireEvent validCron event w = (false, s, w') := by
  have hsave : (s.hooks validCron).save s.state dest w' = none := by
    simp [hooks, saveState, hinvalid]
  unfold fireEvent
  rw [fire_of_refused hchoose hsave]

/-! ## Events in general -/

/-- An event changes nothing of the object but its state. -/
theorem id_fireEvent (validCron : String → Bool) (event : Event) (s : Source) (w : World) :
    (s.fireEvent validCron event w).2.1.id = s.id := rfl

/-- What guards do: that of `uninstall` deletes retrieval statuses of the
source, the others only let the world pass. -/
structure GuardFrame (event : Event) (s : Source) (w w' : World) : Prop where
  statuses : Table.Touches (fun r => r.sourceId = s.id ∧ event = .uninstall) (fun _ => False)
    w.db.retrievalStatuses w'.db.retrievalStatuses
  sources : w'.db.sources = w.db.sources
  queue : w'.db.queue = w.db.queue

theorem GuardFrame.refl (event : Event) (s : Source) (w : World) : GuardFrame event s w w :=
  ⟨.refl _, rfl, rfl⟩

theorem GuardFrame.trans {w₁ w₂ w₃ : World} (h₁₂ : GuardFrame event s w₁ w₂)
    (h₂₃ : GuardFrame event s w₂ w₃) :
    GuardFrame event s w₁ w₃ :=
  ⟨h₁₂.statuses.trans h₂₃.statuses, h₂₃.sources.trans h₁₂.sources, h₂₃.queue.trans h₁₂.queue⟩

theorem GuardFrame.pass (event : Event) (s : Source) (w : World) : GuardFrame event s w w.pass :=
  ⟨.refl _, rfl, rfl⟩

theorem removeAllRetrievals_frame (s : Source) (w : World) :
    GuardFrame .uninstall s w (s.removeAllRetrievals w).2 := by
  refine ⟨?_, rfl, rfl⟩
  exact (Table.touches_deleteAll w.db.retrievalStatuses (fun r => r.sourceId == s.id)).mono
    (fun r h => ⟨beq_iff_eq.mp h, rfl⟩) (fun _ h => h)

theorem guard_frame {t : Transition SourceState World} (ht : t ∈ s.transitions event) (w : World) :
    GuardFrame event s w (t.guard w).2 := by
  cases event <;> simp only [transitions, List.mem_cons, List.not_mem_nil, or_false] at ht
  case uninstall =>
    rcases ht with rfl | rfl
    · exact removeAllRetrievals_frame s w
    · exact .refl _ s w
  case workAfterCheck =>
    rcases ht with rfl | rfl | rfl | rfl
    · exact .refl _ s w
    · exact .pass _ s w
    · exact .pass _ s w
    · exact .refl _ s w
  all_goals
    rcases ht with rfl | rfl | rfl
    all_goals exact .refl _ s w

theorem choose_frame (event : Event) (s : Source) (w : World) :
    GuardFrame event s w (choose (s.transitions event) s.state w).2 :=
  choose_preserves (P := GuardFrame event s w) (fun _ ht w' h => h.trans (guard_frame ht w'))
    (.refl event s w)

/-- **What an event does.** Its guards run; then it either leaves the source, or
saves it in the state they have chosen and runs the hooks. -/
theorem fireEvent_cases (validCron : String → Bool) (event : Event) (s : Source) (w : World) :
    ∃ w', GuardFrame event s w w' ∧
      (s.fireEvent validCron event w = (false, s, w') ∨
        ∃ dest, choose (s.transitions event) s.state w = (some dest, w') ∧
          s.fireEvent validCron event w =
            (true, { s with state := dest },
              s.afterTransition s.state dest (s.writeState dest w'))) := by
  refine ⟨_, choose_frame event s w, ?_⟩
  rcases hchoose : choose (s.transitions event) s.state w with ⟨target, w'⟩
  cases target with
  | none =>
    left
    unfold fireEvent
    rw [fire_of_none hchoose]
  | some dest =>
    by_cases hvalid : ({ s with state := dest } : Source).errors validCron = []
    · exact Or.inr ⟨dest, rfl, fireEvent_of_chosen hchoose hvalid⟩
    · exact Or.inl (fireEvent_of_invalid hchoose hvalid)

/-- The events that may lead to `inactive`, or back to it. -/
def Event.entersInactive : Event → SourceState → Bool
  | .install, .available => true
  | .inactivate, _ => true
  | .workAfterCheck, .inactive => true
  | .work, .inactive => true
  | _, _ => false

theorem entersInactive_of_choose (h : choose (s.transitions event) s.state w = (some .inactive, w'))
    :
    event.entersInactive s.state = true := by
  cases event with
  | activate =>
    -- `same` comes last, and an inactive source has been taken to `waiting` by then
    cases hs : s.state <;> simp [transitions, hs, choose, among, any] at h
    split at h <;> cases h
  | _ =>
    obtain ⟨t, ht, happlies, htarget⟩ := choose_target h
    simp only [transitions, List.mem_cons, List.not_mem_nil, or_false] at ht
    rcases ht with rfl | rfl | rfl | rfl
    all_goals cases hs : s.state
    all_goals simp_all [among, anyBut, any, Event.entersInactive]

theorem retrievalStatuses_afterTransition (s : Source) (source dest : SourceState) (w : World) :
    (s.afterTransition source dest w).db.retrievalStatuses =
      if dest = .inactive then (s.removeQueues w).db.retrievalStatuses
      else w.db.retrievalStatuses := by
  unfold afterTransition
  simp only
  split_ifs <;> rfl

theorem statuses_afterTransition (s : Source) (source dest : SourceState) (w : World) :
    Table.Touches (fun r => r.sourceId = s.id ∧ dest = .inactive)
      (fun r => r.Unqueued ∧ dest = .inactive)
      w.db.retrievalStatuses (s.afterTransition source dest w).db.retrievalStatuses := by
  rw [retrievalStatuses_afterTransition]
  split
  next hdest =>
    have h := Table.touches_updateAll (fun r => r.Unqueued ∧ dest = .inactive)
      w.db.retrievalStatuses (fun r => r.sourceId == s.id) (fun r => { r with queuedAt := none })
      (fun _ _ => ⟨rfl, hdest⟩)
    exact h.mono (fun r hr => ⟨beq_iff_eq.mp hr, hdest⟩) (fun _ hr => hr)
  next => exact .refl _

theorem sourceJobs_afterTransition (s : Source) (source dest : SourceState) (w : World) :
    (s.afterTransition source dest w).db.sourceJobs = w.db.sourceJobs := by
  have hinstall : (s.enqueueInstallJobs w).db.sourceJobs = w.db.sourceJobs := by
    simp [enqueueInstallJobs, Db.sourceJobs, Job.sourceArguments]
  unfold afterTransition
  simp only
  split_ifs
  all_goals first | exact hinstall | rfl

@[simp] theorem queue_writeState (s : Source) (dest : SourceState) (w : World) :
    (s.writeState dest w).db.queue = w.db.queue := rfl

/-! ## The stored state -/

theorem findSource_writeState (s : Source) (dest : SourceState) (w : World) (id : Nat) :
    (s.writeState dest w).db.findSource id =
      (w.db.findSource id).map (fun row =>
        if id = s.id then { row with state := dest } else row) := by
  refine (Table.first_id_updateAll w.db.sources _ _ id).trans ?_
  show (w.db.sources.first (fun row => row.id == id)).map _ =
    (w.db.sources.first (fun row => row.id == id)).map _
  cases h : w.db.sources.first (fun row => row.id == id) with
  | none => rfl
  | some row =>
    have hid : row.id = id := by simpa using Table.first_prop h
    subst hid
    simp [Table.updateRow, Row.withId, Row.id]

theorem stateOf_writeState (s : Source) (dest : SourceState) (w : World) (id : Nat) :
    (s.writeState dest w).db.stateOf id =
      if id = s.id then (w.db.stateOf id).map (fun _ => dest) else w.db.stateOf id := by
  unfold Db.stateOf
  rw [findSource_writeState]
  split
  next h => simp [h, Function.comp_def]
  next => simp

theorem stateOf_afterTransition (s : Source) (source dest : SourceState) (w : World) (id : Nat) :
    (s.afterTransition source dest w).db.stateOf id = w.db.stateOf id := by
  unfold Db.stateOf Db.findSource
  rw [sources_afterTransition]

/-- An event that has chosen a target stores it, unless the source is not valid
in it. -/
theorem stateOf_fireEvent (hchoose : choose (s.transitions event) s.state w = (some dest, w'))
    (id : Nat) :
    (s.fireEvent validCron event w).2.2.db.stateOf id =
      if id = s.id ∧ ({ s with state := dest } : Source).errors validCron = []
      then (w.db.stateOf id).map (fun _ => dest) else w.db.stateOf id := by
  have hsame : w'.db.stateOf id = w.db.stateOf id := by
    have hguard := choose_frame event s w
    rw [hchoose] at hguard
    unfold Db.stateOf Db.findSource
    rw [hguard.sources]
  by_cases hvalid : ({ s with state := dest } : Source).errors validCron = []
  · rw [fireEvent_of_chosen hchoose hvalid]
    simp only [stateOf_afterTransition, stateOf_writeState, hsame, hvalid, and_true]
  · rw [fireEvent_of_invalid hchoose hvalid]
    simp only [hvalid, and_false, if_false, hsame]

/-- An event writes its own source or none, and only what it leads to. -/
theorem stateOf_fireEvent_cases (validCron : String → Bool) (event : Event) (s : Source)
    (w : World) (id : Nat) :
    (s.fireEvent validCron event w).2.2.db.stateOf id = w.db.stateOf id ∨
      ∃ t ∈ s.transitions event, t.applies s.state = true ∧ id = s.id ∧
        (s.fireEvent validCron event w).2.2.db.stateOf id =
          (w.db.stateOf id).map (fun _ => t.target.getD s.state) := by
  rcases hchoose : choose (s.transitions event) s.state w with ⟨_ | dest, w'⟩
  · left
    have hguard := choose_frame event s w
    rw [hchoose] at hguard
    have hsources : w'.db.sources = w.db.sources := hguard.sources
    unfold fireEvent Db.stateOf Db.findSource
    rw [fire_of_none hchoose]
    simp only [hsources]
  · obtain ⟨t, ht, happlies, rfl⟩ := choose_target hchoose
    rw [stateOf_fireEvent hchoose]
    split
    next h => exact Or.inr ⟨t, ht, happlies, h.1, rfl⟩
    next => exact Or.inl rfl

/-- **What an event does to the queue.** It unqueues the retrieval statuses of
the source if it leads to `inactive`, and `uninstall` deletes them; sources and
jobs stay. -/
theorem fireEvent_frame (validCron : String → Bool) (event : Event) (s : Source) (w : World) :
    Db.Frame
      (fun r => r.sourceId = s.id ∧ (event = .uninstall ∨ event.entersInactive s.state = true))
      (fun r => r.Unqueued ∧ event.entersInactive s.state = true)
      w.db (s.fireEvent validCron event w).2.2.db := by
  obtain ⟨w', hguard, h⟩ := fireEvent_cases validCron event s w
  have hbefore : Db.Frame
      (fun r => r.sourceId = s.id ∧ (event = .uninstall ∨ event.entersInactive s.state = true))
      (fun r => r.Unqueued ∧ event.entersInactive s.state = true) w.db w'.db :=
    Db.frame_of_touches
      (hguard.statuses.mono (fun _ h => ⟨h.1, Or.inl h.2⟩) (fun _ h => h.elim))
      hguard.queue hguard.sources
  rcases h with hfire | ⟨dest, hchoose, hfire⟩
  · rw [hfire]
    exact hbefore
  · rw [hfire]
    refine hbefore.trans ⟨?_, ?_, fun id => ?_⟩
    · have hafter := s.statuses_afterTransition s.state dest (s.writeState dest w')
      rw [retrievalStatuses_writeState] at hafter
      refine hafter.mono ?_ ?_
      · rintro r ⟨hr, rfl⟩
        exact ⟨hr, Or.inr (entersInactive_of_choose hchoose)⟩
      · rintro r ⟨hr, rfl⟩
        exact ⟨hr, entersInactive_of_choose hchoose⟩
    · refine (s.sourceJobs_afterTransition s.state dest _).trans ?_
      unfold Db.sourceJobs
      rw [queue_writeState]
    · rw [stateOf_afterTransition, stateOf_writeState]
      split <;> simp

/-! ## `uninstall` -/

/-- The guard deletes the retrieval statuses of the source, all of them. -/
theorem mem_removeAllRetrievals {r : RetrievalStatus} :
    r ∈ (s.removeAllRetrievals w).2.db.retrievalStatuses.rows ↔
      r ∈ w.db.retrievalStatuses.rows ∧ r.sourceId ≠ s.id := by
  simp [removeAllRetrievals, Db.deleteRetrievalStatuses]

/-- So it never refuses. -/
theorem removeAllRetrievals_agrees (s : Source) (w : World) :
    (s.removeAllRetrievals w).1 = true := by
  simp [removeAllRetrievals, Db.deleteRetrievalStatuses]

theorem choose_uninstall (hinstalled : s.state ≠ .available) (w : World) :
    choose (s.transitions .uninstall) s.state w =
      (some .available, (s.removeAllRetrievals w).2) := by
  refine choose_taken ?_ ?_
  · simpa [anyBut] using hinstalled
  · exact Prod.ext (removeAllRetrievals_agrees s w) rfl

/-- `uninstall` as its comment describes it: it deletes only retrieval
statuses of the source that have never been updated, and whether there are
others decides between `available` and `retired`. -/
def UninstallKeepsUpdated (validCron : String → Bool) (s : Source) (w : World) : Prop :=
  let after := (s.fireEvent validCron .uninstall w).2.2
  (∀ r ∈ w.db.retrievalStatuses.rows, r ∉ after.db.retrievalStatuses.rows →
    r.sourceId = s.id ∧ r.retrievedAt = Time.epoch) ∧
  (s.StoredState after .available ↔
    ∀ r ∈ w.db.retrievalStatuses.rows, r.sourceId = s.id → r.retrievedAt = Time.epoch) ∧
  ((∃ r ∈ w.db.retrievalStatuses.rows, r.sourceId = s.id ∧ r.retrievedAt ≠ Time.epoch) →
    s.StoredState after .retired)

/-- After `uninstall` no retrieval status of the source is left. -/
theorem retrievalStatuses_uninstall (hinstalled : s.state ≠ .available) (validCron : String → Bool)
    (w : World) :
    (s.fireEvent validCron .uninstall w).2.2.db.retrievalStatuses =
      (s.removeAllRetrievals w).2.db.retrievalStatuses := by
  have hchoose := choose_uninstall hinstalled w
  by_cases hvalid : ({ s with state := .available } : Source).errors validCron = []
  · rw [fireEvent_of_chosen hchoose hvalid, afterTransition_available,
      retrievalStatuses_writeState]
  · rw [fireEvent_of_invalid hchoose hvalid]

/-- **When uninstalling spares what has been retrieved.** Exactly when there
is nothing to spare: `uninstall` meets its description if and only if no
retrieval status of the source has ever been updated (and the source can be
saved at all). -/
theorem uninstall_keeps_updated_iff (validCron : String → Bool) (s : Source) (w : World)
    (hstored : s ∈ w.db.sources.rows) (hinstalled : s.state ≠ .available) :
    s.UninstallKeepsUpdated validCron w ↔
      (∀ r ∈ w.db.retrievalStatuses.rows, r.sourceId = s.id → r.retrievedAt = Time.epoch) ∧
        ({ s with state := .available } : Source).errors validCron = [] := by
  have hchoose := choose_uninstall hinstalled w
  have hgone := retrievalStatuses_uninstall hinstalled validCron w
  have hwas : s.StoredState (s.removeAllRetrievals w).2 s.state := ⟨s, hstored, rfl, rfl⟩
  constructor
  · rintro ⟨hdeleted, havailable, _⟩
    have hnever : ∀ r ∈ w.db.retrievalStatuses.rows, r.sourceId = s.id →
        r.retrievedAt = Time.epoch := by
      intro r hr hs
      refine (hdeleted r hr ?_).2
      rw [hgone, mem_removeAllRetrievals]
      exact fun h => h.2 hs
    refine ⟨hnever, ?_⟩
    by_contra hinvalid
    -- a source that cannot be saved stays where it was
    have hav := havailable.mpr hnever
    rw [fireEvent_of_invalid hchoose hinvalid] at hav
    exact hinstalled (hwas.unique hav)
  · rintro ⟨hnever, hvalid⟩
    refine ⟨?_, ?_, ?_⟩
    · intro r hr hrem
      rw [hgone, mem_removeAllRetrievals] at hrem
      have hs : r.sourceId = s.id := by
        by_contra hne
        exact hrem ⟨hr, hne⟩
      exact ⟨hs, hnever r hr hs⟩
    · refine ⟨fun _ => hnever, fun _ => ?_⟩
      rw [fireEvent_of_chosen hchoose hvalid, afterTransition_available]
      exact storedState_writeState hwas _
    · rintro ⟨r, hr, hs, hne⟩
      exact absurd (hnever r hr hs) hne

/-- A source with all settings at their defaults. -/
def citeulike : Source :=
  { id := 1, type := .citeulike, name := "citeulike", title := "CiteULike", state := .waiting }

/-- A database with this source and one retrieval status of it. -/
def oneStatus (retrievedAt : Time) : World where
  db :=
    { sources := Table.empty.insert citeulike
      retrievalStatuses := Table.empty.insert
        { workId := 1, sourceId := 1, retrievedAt := retrievedAt } }

/-- A source none of whose works has been looked at yet. -/
theorem uninstall_unused_citeulike :
    citeulike.UninstallKeepsUpdated (fun _ => true) (oneStatus Time.epoch) := by
  refine (uninstall_keeps_updated_iff _ _ _ (List.mem_singleton.mpr rfl) (by decide)).mpr ?_
  refine ⟨?_, by decide⟩
  intro r hr _
  rw [List.mem_singleton.mp hr]
  rfl

/-- A retrieval status that was updated in 2014 is deleted with the rest. -/
theorem uninstall_deletes_updated :
    ¬ citeulike.UninstallKeepsUpdated (fun _ => true) (oneStatus 1400000000) := by
  rintro ⟨hdeleted, _, _⟩
  have hgone := hdeleted
    { id := 1, workId := 1, sourceId := 1, retrievedAt := 1400000000 }
    (List.mem_singleton.mpr rfl) (by
      rw [retrievalStatuses_uninstall (by decide), mem_removeAllRetrievals]
      exact fun h => h.2 rfl)
  exact absurd hgone.2 (by decide)

/-! ## `work_after_check` -/

/-- One of the two checks is true, each at its own time. -/
def Overdrawn (s : Source) (w : World) : Prop :=
  s.maxFailedQueries < s.failedQueries w.pass ∨ s.rateLimitRemaining w.pass.pass < 10

theorem checkForFailures_eq (s : Source) (w : World) :
    s.checkForFailures w = (decide (s.maxFailedQueries < s.failedQueries w.pass), w.pass) := rfl

theorem checkForRateLimits_eq (s : Source) (w : World) :
    s.checkForRateLimits w = (decide (s.rateLimitRemaining w.pass < 10), w.pass) := rfl

/-- The states of the first transition are those that are not active. -/
theorem among_eq_not_active (state : SourceState) :
    among [.available, .retired, .inactive] state = !state.active := by
  cases state <;> rfl

/-- A source that is not active stays where it is, and nothing is read. -/
theorem choose_workAfterCheck_of_inactive (h : s.state.active = false) (w : World) :
    choose (s.transitions .workAfterCheck) s.state w = (some s.state, w) := by
  have happlies : among [.available, .retired, .inactive] s.state = true := by
    rw [among_eq_not_active, h]
    rfl
  exact choose_taken happlies rfl

/-- An active source is disabled by either check. The rate limit is not read
if there are too many failures. -/
theorem choose_workAfterCheck_of_overdrawn (h : s.state.active = true) (hover : s.Overdrawn w) :
    ∃ w', choose (s.transitions .workAfterCheck) s.state w = (some .disabled, w') ∧
      w'.db.sources = w.db.sources := by
  have hskip : among [.available, .retired, .inactive] s.state = false := by
    rw [among_eq_not_active, h]
    rfl
  have hfirst := checkForFailures_eq s w
  by_cases hfailed : s.maxFailedQueries < s.failedQueries w.pass
  · rw [decide_eq_true hfailed] at hfirst
    exact ⟨w.pass, (choose_skip hskip).trans (choose_taken rfl hfirst), rfl⟩
  · rw [decide_eq_false hfailed] at hfirst
    have hsecond := checkForRateLimits_eq s w.pass
    rw [decide_eq_true (hover.resolve_left hfailed)] at hsecond
    exact ⟨w.pass.pass,
      (choose_skip hskip).trans ((choose_refused rfl hfirst).trans (choose_taken rfl hsecond)), rfl⟩

/-- If neither check objects, it goes to work. -/
theorem choose_workAfterCheck_of_clear (h : s.state.active = true) (hclear : ¬ s.Overdrawn w) :
    choose (s.transitions .workAfterCheck) s.state w = (some .working, w.pass.pass) := by
  obtain ⟨hfailed, hlimit⟩ := not_or.mp hclear
  have hskip : among [.available, .retired, .inactive] s.state = false := by
    rw [among_eq_not_active, h]
    rfl
  have hfirst := checkForFailures_eq s w
  rw [decide_eq_false hfailed] at hfirst
  have hsecond := checkForRateLimits_eq s w.pass
  rw [decide_eq_false hlimit] at hsecond
  exact (choose_skip hskip).trans ((choose_refused rfl hfirst).trans
    ((choose_refused rfl hsecond).trans (choose_taken rfl rfl)))

/-- The configuration passes the validations of an active source. -/
def ValidConfig (validCron : String → Bool) (s : Source) : Prop :=
  ({ s with state := .working } : Source).errors validCron = []

instance (validCron : String → Bool) (s : Source) : Decidable (s.ValidConfig validCron) :=
  inferInstanceAs (Decidable (_ = []))

theorem ValidConfig.errors_eq_nil (h : s.ValidConfig validCron) (dest : SourceState) :
    ({ s with state := dest } : Source).errors validCron = [] :=
  errors_eq_nil_of_active rfl h dest

theorem validConfig_iff (hactive : dest.active = true) :
    ({ s with state := dest } : Source).errors validCron = [] ↔ s.ValidConfig validCron :=
  ⟨fun h => errors_eq_nil_of_active hactive h .working, fun h => h.errors_eq_nil dest⟩

/-- An event that has chosen an active state stores it, if the configuration is
valid. -/
theorem stateOf_of_active (hchoose : choose (s.transitions event) s.state w = (some dest, w'))
    (hactive : dest.active = true) (id : Nat) :
    (s.fireEvent validCron event w).2.2.db.stateOf id =
      if id = s.id ∧ s.ValidConfig validCron
      then (w.db.stateOf id).map (fun _ => dest) else w.db.stateOf id := by
  rw [stateOf_fireEvent hchoose]
  simp only [validConfig_iff hactive]

/-- A source that is not active is left in its state, valid or not. -/
theorem state_workAfterCheck_of_inactive (h : s.state.active = false) :
    (s.fireEvent validCron .workAfterCheck w).2.1.state = s.state := by
  have hchoose := choose_workAfterCheck_of_inactive h w
  by_cases hvalid : ({ s with state := s.state } : Source).errors validCron = []
  · rw [fireEvent_of_chosen hchoose hvalid]
  · rw [fireEvent_of_invalid hchoose hvalid]

theorem fireEvent_workAfterCheck_of_inactive (hvalid : s.ValidConfig validCron)
    (hstored : s.StoredState w s.state) (h : s.state.active = false) :
    ∃ w', s.fireEvent validCron .workAfterCheck w = (true, s, w') ∧
      s.StoredState w' s.state := by
  have hfire := fireEvent_of_chosen (choose_workAfterCheck_of_inactive h w)
    (hvalid.errors_eq_nil s.state)
  refine ⟨_, hfire, ?_⟩
  unfold StoredState
  rw [sources_afterTransition]
  exact storedState_writeState hstored s.state

theorem fireEvent_workAfterCheck_of_overdrawn (hvalid : s.ValidConfig validCron)
    (hstored : s.StoredState w s.state) (h : s.state.active = true) (hover : s.Overdrawn w) :
    ∃ w', s.fireEvent validCron .workAfterCheck w = (true, { s with state := .disabled }, w') ∧
      s.StoredState w' .disabled := by
  obtain ⟨w₁, hchoose, hsources⟩ := choose_workAfterCheck_of_overdrawn h hover
  refine ⟨_, fireEvent_of_chosen hchoose (hvalid.errors_eq_nil .disabled), ?_⟩
  have hstored₁ : s.StoredState w₁ s.state := by
    unfold StoredState
    rw [hsources]
    exact hstored
  unfold StoredState
  rw [sources_afterTransition]
  exact storedState_writeState hstored₁ .disabled

/-- No hook runs on the way to `working`. -/
theorem fireEvent_workAfterCheck_of_clear (hvalid : s.ValidConfig validCron)
    (h : s.state.active = true) (hclear : ¬ s.Overdrawn w) :
    s.fireEvent validCron .workAfterCheck w =
      (true, { s with state := .working }, s.writeState .working w.pass.pass) := by
  rw [fireEvent_of_chosen (choose_workAfterCheck_of_clear h hclear)
    (hvalid.errors_eq_nil .working)]
  have hinstalled : s.state ≠ .available := by
    intro hs
    rw [hs] at h
    cases h
  simp [afterTransition, hinstalled]

/-- The wait is computed from the rate limits and the clock, which writing a
state does not touch. -/
theorem waitTime_writeState (s : Source) (state dest : SourceState) (w : World) :
    (({ s with state := state } : Source).waitTime (s.writeState dest w)).1 = (s.waitTime w).1 :=
  rfl

end Source

end Lagotto
