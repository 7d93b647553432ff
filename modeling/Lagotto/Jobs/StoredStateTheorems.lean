/-
Lagotto.Jobs.StoredStateTheorems — who writes the state of a source.

Three kinds of step write it: an administrator's event, the event `wait` of a
queueing call with nothing to queue, and the two events of a job, which start
from the state the job's own object has. Two laws are about them. A source
that is disabled should only be enabled by an administrator, or by a check
that finds nothing to object to; a source that an administrator has switched
off should stay off until it is activated. Both hold of a run exactly if each
of its steps meets a condition on the state it is taken in, and the two
conditions name the steps that break the laws: a `wait` on an empty list, and
an event of a job whose object is out of date.
-/
import Lagotto.Jobs.ApplicationTheorems

namespace Lagotto

open Relational
open StateMachine

namespace Source

/-! ## Events of a job -/

theorem choose_waitAfterCheck (s : Source) (w : World) :
    choose (s.transitions .waitAfterCheck) s.state w =
      (some (if s.state = .disabled then .disabled else .waiting), w) := by
  cases hs : s.state <;> simp [transitions, choose, among, any]

variable {validCron : String → Bool}

/-- `wait_after_check` spares a disabled object: it stores its state again. -/
theorem stateOf_waitAfterCheck (s : Source) (w : World) (id : Nat) :
    (s.fireEvent validCron .waitAfterCheck w).2.2.db.stateOf id =
      if id = s.id ∧ s.ValidConfig validCron
      then (w.db.stateOf id).map (fun _ => if s.state = .disabled then .disabled else .waiting)
      else w.db.stateOf id := by
  refine stateOf_of_active (choose_waitAfterCheck s w) ?_ id
  split <;> rfl

/-- `wait` stores `waiting`, whatever the state was. -/
theorem stateOf_wait (s : Source) (w : World) (id : Nat) :
    (s.fireEvent validCron .wait w).2.2.db.stateOf id =
      if id = s.id ∧ s.ValidConfig validCron
      then (w.db.stateOf id).map (fun _ => .waiting) else w.db.stateOf id :=
  stateOf_of_active (rfl : choose (s.transitions .wait) s.state w = (some .waiting, w)) rfl id

/-- A job whose object is not active stores the state of the object. -/
theorem stateOf_workAfterCheck_of_inactive {s : Source} (h : s.state.active = false) (w : World)
    (id : Nat) :
    (s.fireEvent validCron .workAfterCheck w).2.2.db.stateOf id =
      if id = s.id ∧ s.errors validCron = []
      then (w.db.stateOf id).map (fun _ => s.state) else w.db.stateOf id :=
  stateOf_fireEvent (choose_workAfterCheck_of_inactive h w) id

theorem stateOf_workAfterCheck_of_overdrawn {s : Source} (h : s.state.active = true) {w : World}
    (hover : s.Overdrawn w) (id : Nat) :
    (s.fireEvent validCron .workAfterCheck w).2.2.db.stateOf id =
      if id = s.id ∧ s.ValidConfig validCron
      then (w.db.stateOf id).map (fun _ => .disabled) else w.db.stateOf id := by
  obtain ⟨w', hchoose, _⟩ := choose_workAfterCheck_of_overdrawn h hover
  exact stateOf_of_active hchoose rfl id

theorem stateOf_workAfterCheck_of_clear {s : Source} (h : s.state.active = true) {w : World}
    (hclear : ¬ s.Overdrawn w) (id : Nat) :
    (s.fireEvent validCron .workAfterCheck w).2.2.db.stateOf id =
      if id = s.id ∧ s.ValidConfig validCron
      then (w.db.stateOf id).map (fun _ => .working) else w.db.stateOf id :=
  stateOf_of_active (choose_workAfterCheck_of_clear h hclear) rfl id

end Source

namespace Application

open SourceJob

variable {validCron : String → Bool}

/-! ## What an action writes -/

theorem stateOf_of_sources {db db' : Db} (h : db'.sources = db.sources) (id : Nat) :
    db'.stateOf id = db.stateOf id := by
  unfold Db.stateOf Db.findSource
  rw [h]

theorem stateOf_findSource {db : Db} {id : Nat} {s : Source} (h : db.findSource id = some s) :
    db.stateOf id = some s.state := by
  simp [Db.stateOf, h]

namespace App

variable {a : App}

/-- A queueing call writes through `wait` only. -/
theorem stateOf_beginCall (imports : Bool) (x : Weather) (s : Source) (rsIds : List Nat)
    (id : Nat) :
    (a.beginCall validCron imports x s rsIds).db.stateOf id =
      if s.state.active = true ∧ rsIds = [] then
        (s.fireEvent validCron .wait (x.world a.db)).2.2.db.stateOf id
      else a.db.stateOf id := by
  unfold beginCall Source.toSlices
  rcases hfire : s.fireEvent validCron .wait (x.world a.db) with ⟨ok, s', w'⟩
  cases hactive : s.state.active with
  | false =>
    simp
    rfl
  | true =>
    cases rsIds with
    | nil => simp
    | cons id' rest =>
      by_cases hsize : s.jobBatchSize ≤ 0
      · simp [hsize]
        rfl
      · simp [hsize]
        rfl

theorem stateOf_slice (n : Nat) (now : Time) (id : Nat) :
    (a.slice n now).db.stateOf id = a.db.stateOf id := by
  rcases slice_cases n now a with h | ⟨c, rsIds, rest, _, _, h⟩
  · rw [h]
  · rw [h]
    refine stateOf_of_sources ?_ id
    dsimp only
    split <;> rfl

theorem stateOf_start (n : Nat) (id : Nat) : (a.start n).db.stateOf id = a.db.stateOf id := by
  rcases start_cases n a with h | ⟨_, _, db', _, _, hsources, ⟨h, _⟩ | ⟨s, _, h⟩⟩
  · rw [h]
  · rw [h]
    exact stateOf_of_sources hsources id
  · rw [h]
    exact stateOf_of_sources hsources id

theorem stateOf_rescue (rsIds : List Nat) (s : Source) (e : Raised) (w : World) (id : Nat) :
    (rescueWithHandler rsIds s e w).stateOf id = w.db.stateOf id := by
  unfold rescueWithHandler
  rw [handlerFor_eq_report]
  exact stateOf_of_sources rfl id

section Job

variable {n : Nat} {j : Running} (hj : a.running[n]? = some j) (x : Weather) (occasion : Occasion)
include hj

theorem db_job : (a.job validCron n x occasion).db = (j.step validCron x occasion a.db).2 := by
  rcases hstep : j.step validCron x occasion a.db with ⟨_ | j', db'⟩
  · simp [job, hj, hstep]
  · simp [job, hj, hstep]

theorem stateOf_job_of_finished (validCron : String → Bool) (htodo : j.todo = []) (id : Nat) :
    (a.job validCron n x occasion).db.stateOf id =
      (j.source.fireEvent validCron .waitAfterCheck
        (x.world (clearQueuedAt j.rsIds a.db))).2.2.db.stateOf id := by
  rw [db_job hj, Running.step, htodo]
  simp only [db_afterPerform, Running.source_progress, Running.world_progress, Weather.world]

theorem stateOf_job_of_cleared (validCron : String → Bool) {rsId : Nat} {rest : List Nat}
    (htodo : j.todo = rsId :: rest) (hcleared : j.cleared = true) (id : Nat) :
    (a.job validCron n x occasion).db.stateOf id = a.db.stateOf id := by
  rw [db_job hj, Running.step, htodo]
  simp only [hcleared, if_true]
  unfold Running.request
  cases lookup rsId a.db with
  | error e => exact stateOf_rescue ..
  | ok found =>
    obtain ⟨rs, work⟩ := found
    have hsources := sources_request occasion rs work a.db
    dsimp only
    rcases hrequest : SourceJob.request occasion rs work a.db with ⟨e | _, db'⟩
    · rw [hrequest] at hsources
      exact (stateOf_rescue ..).trans (stateOf_of_sources hsources id)
    · rw [hrequest] at hsources
      exact stateOf_of_sources hsources id

theorem stateOf_job_of_check (validCron : String → Bool) {rsId : Nat} {rest : List Nat}
    (htodo : j.todo = rsId :: rest) (hcleared : j.cleared = false) (id : Nat) :
    (a.job validCron n x occasion).db.stateOf id =
      (j.source.fireEvent validCron .workAfterCheck (x.world a.db)).2.2.db.stateOf id := by
  have hsources : (SourceJob.check validCron (j.progress x occasion a.db)).2.world.db.sources =
      (j.source.fireEvent validCron .workAfterCheck (x.world a.db)).2.2.db.sources := by
    obtain ⟨alerts, hdb⟩ := db_check validCron (j.progress x occasion a.db)
    rw [hdb, Running.source_progress, Running.world_progress]
  rw [db_job hj, Running.step, htodo]
  simp only [hcleared, Bool.false_eq_true, if_false]
  unfold Running.check
  rcases hcheck : SourceJob.check validCron (j.progress x occasion a.db) with ⟨e | _, p⟩
  · rw [hcheck] at hsources
    exact (stateOf_rescue ..).trans (stateOf_of_sources hsources id)
  · rw [hcheck] at hsources
    exact stateOf_of_sources hsources id

end Job

end App

/-! ## Leaving `disabled` -/

/-- What may take a source out of `disabled`: an administrator who switches it
off, or a job whose two checks are both false. -/
def App.MayEnable (a : App) (sourceId : Nat) : Action → Prop
  | .admin id event _ => id = sourceId ∧ (event = .inactivate ∨ event = .uninstall)
  | .job n x _ => ∃ j, a.running[n]? = some j ∧ j.source.id = sourceId ∧ j.todo ≠ [] ∧
    j.cleared = false ∧ ¬ j.source.Overdrawn (x.world a.db)
  | _ => False

/-- The action leaves every disabled source disabled, unless it is one of
these. -/
def App.KeepsDisabled (validCron : String → Bool) (a : App) (action : Action) : Prop :=
  ∀ sourceId, a.db.stateOf sourceId = some .disabled →
    (a.step validCron action).db.stateOf sourceId ≠ some .disabled → a.MayEnable sourceId action

/-- A queueing call for a disabled source has something to queue. -/
def App.HasWork (validCron : String → Bool) (a : App) (sourceId : Nat)
    (rsIds : Source → List Nat) : Prop :=
  ∀ s, a.db.findSource sourceId = some s → s.state = .disabled → s.ValidConfig validCron →
    rsIds s ≠ []

/-- What keeps an action from enabling a source it should not. A call has
something to queue; a job that finishes while its source is stored as disabled
knows about it; and one whose object is not active, so that the check does not
look and stores that state, finds nothing to object to. -/
def App.MindsDisabled (validCron : String → Bool) (a : App) : Action → Prop
  | .queueAllWorks sourceId options x =>
    a.HasWork validCron sourceId (fun s => s.worksToQueue options ⌊x.now⌋ a.db)
  | .queueWorkJobs sourceId rsIds _ | .queueImportJobs sourceId rsIds _ =>
    a.HasWork validCron sourceId (fun _ => rsIds)
  | .importFromCouchdb sourceId _ =>
    a.HasWork validCron sourceId (fun s => s.worksToImport a.db)
  | .job n x _ => ∀ j, a.running[n]? = some j → a.db.stateOf j.source.id = some .disabled →
    (j.todo = [] → j.source.ValidConfig validCron → j.source.state = .disabled) ∧
    (j.todo ≠ [] → j.cleared = false → j.source.state.active = false →
      j.source.errors validCron = [] → ¬ j.source.Overdrawn (x.world a.db))
  | _ => True

namespace App

variable {a : App}

theorem beginCall_keeps_disabled_iff (validCron : String → Bool) {sourceId : Nat} {s : Source}
    (hs : a.db.findSource sourceId = some s) (imports : Bool) (x : Weather) (rsIds : List Nat) :
    (∀ id, a.db.stateOf id = some .disabled →
      (a.beginCall validCron imports x s rsIds).db.stateOf id = some .disabled) ↔
      (s.state = .disabled → s.ValidConfig validCron → rsIds ≠ []) := by
  have hid := id_findSource hs
  have hstored := stateOf_findSource hs
  constructor
  · intro hkeeps hdisabled hvalid hnil
    have h := hkeeps sourceId (by rw [hstored, hdisabled])
    rw [stateOf_beginCall, if_pos ⟨by rw [hdisabled]; rfl, hnil⟩, Source.stateOf_wait,
      if_pos ⟨hid.symm, hvalid⟩] at h
    cases hstate : a.db.stateOf sourceId <;> simp_all [Weather.world]
  · intro hcond id hdisabled
    rw [stateOf_beginCall]
    split
    next hempty =>
      rw [Source.stateOf_wait]
      split
      next hwrites =>
        obtain ⟨rfl, hvalid⟩ := hwrites
        rw [hid, hstored] at hdisabled
        exact absurd hempty.2 (hcond (Option.some.inj hdisabled) hvalid)
      next => exact hdisabled
    next => exact hdisabled

theorem call_keeps_disabled_iff (imports : Bool) (x : Weather) (sourceId : Nat)
    (rsIds : Source → List Nat) :
    (∀ id, a.db.stateOf id = some .disabled →
      (a.withSource sourceId fun s => a.beginCall validCron imports x s (rsIds s)).db.stateOf id ≠
        some .disabled → False) ↔ a.HasWork validCron sourceId rsIds := by
  cases hs : a.db.findSource sourceId with
  | none =>
    rw [withSource_none hs]
    refine iff_of_true (fun id h hne => hne h) ?_
    intro s hs'
    rw [hs] at hs'
    cases hs'
  | some s =>
    rw [withSource_some hs]
    have h := beginCall_keeps_disabled_iff validCron hs imports x (rsIds s)
    constructor
    · intro hkeeps s' hs'
      rw [hs] at hs'
      obtain rfl := Option.some.inj hs'
      exact h.mp (fun id hid => by_contra (hkeeps id hid))
    · intro hwork id hid hne
      exact hne (h.mpr (hwork s hs) id hid)

/-- An administrator enables a source by switching it off only. -/
theorem admin_may_enable (sourceId : Nat) (event : AdminEvent) (x : Weather) (s : Source)
    (hs : a.db.findSource sourceId = some s) {id : Nat}
    (hdisabled : a.db.stateOf id = some .disabled)
    (hleaves : (s.fireEvent validCron event.event (x.world a.db)).2.2.db.stateOf id ≠
      some .disabled) :
    sourceId = id ∧ (event = .inactivate ∨ event = .uninstall) := by
  rcases s.stateOf_fireEvent_cases validCron event.event (x.world a.db) id with
    hsame | ⟨t, ht, happlies, hid, hwritten⟩
  · exact absurd (hsame.trans hdisabled) hleaves
  · rw [id_findSource hs] at hid
    refine ⟨hid.symm, ?_⟩
    subst hid
    have hstate : s.state = .disabled := by
      rw [stateOf_findSource hs] at hdisabled
      exact Option.some.inj hdisabled
    rw [hstate] at happlies hwritten
    cases event with
    | install =>
      simp only [AdminEvent.event, Source.transitions, List.mem_cons, List.not_mem_nil,
        or_false] at ht
      rcases ht with rfl | rfl <;> cases happlies
    | uninstall => exact Or.inr rfl
    | activate =>
      simp only [AdminEvent.event, Source.transitions, List.mem_cons, List.not_mem_nil,
        or_false] at ht
      rcases ht with rfl | rfl | rfl
      · cases happlies
      · cases happlies
      · -- back to `disabled`
        refine absurd (hwritten.trans ?_) hleaves
        show (a.db.stateOf id).map _ = _
        rw [hdisabled]
        rfl
    | inactivate => exact Or.inl rfl

/-- What is written over `disabled`, if anything is. -/
theorem enables_iff {id : Nat} (hdisabled : a.db.stateOf id = some .disabled) {a' : App}
    {writes : Prop} [Decidable writes] {dest : SourceState}
    (hstate : a'.db.stateOf id =
      if writes then (a.db.stateOf id).map (fun _ => dest) else a.db.stateOf id) :
    a'.db.stateOf id ≠ some .disabled ↔ writes ∧ dest ≠ .disabled := by
  rw [hstate, hdisabled]
  split <;> simp_all

/-- **When a job enables a disabled source:** it finishes with an object that is
not disabled, or it comes to a check that writes, and none that is overdrawn. -/
theorem job_enables_iff {n : Nat} {j : Running} (hj : a.running[n]? = some j) (x : Weather)
    (occasion : Occasion) {id : Nat} (hdisabled : a.db.stateOf id = some .disabled) :
    (a.job validCron n x occasion).db.stateOf id ≠ some .disabled ↔
      id = j.source.id ∧
        if j.todo = [] then j.source.ValidConfig validCron ∧ j.source.state ≠ .disabled
        else j.cleared = false ∧
          if j.source.state.active = false then j.source.errors validCron = []
          else j.source.ValidConfig validCron ∧ ¬ j.source.Overdrawn (x.world a.db) := by
  cases htodo : j.todo with
  | nil =>
    have hstate := stateOf_job_of_finished hj x occasion validCron htodo id
    rw [Source.stateOf_waitAfterCheck] at hstate
    rw [enables_iff hdisabled hstate, if_pos rfl, and_assoc]
    by_cases h : j.source.state = .disabled <;> simp [h]
  | cons rsId rest =>
    rw [if_neg (List.cons_ne_nil rsId rest)]
    cases hcleared : j.cleared with
    | true =>
      rw [stateOf_job_of_cleared hj x occasion validCron htodo hcleared id]
      simp [hdisabled]
    | false =>
      have hstate := stateOf_job_of_check hj x occasion validCron htodo hcleared id
      cases hactive : j.source.state.active with
      | false =>
        rw [Source.stateOf_workAfterCheck_of_inactive hactive] at hstate
        rw [enables_iff hdisabled hstate, and_assoc]
        have hother : j.source.state ≠ .disabled := by
          intro h
          rw [h] at hactive
          cases hactive
        simp [hother]
      | true =>
        by_cases hover : j.source.Overdrawn (x.world a.db)
        · rw [Source.stateOf_workAfterCheck_of_overdrawn hactive hover] at hstate
          rw [enables_iff hdisabled hstate]
          simp [hover]
        · rw [Source.stateOf_workAfterCheck_of_clear hactive hover] at hstate
          rw [enables_iff hdisabled hstate]
          simp [hover]

theorem job_keeps_disabled_iff (n : Nat) (x : Weather) (occasion : Occasion) :
    a.KeepsDisabled validCron (.job n x occasion) ↔
      a.MindsDisabled validCron (.job n x occasion) := by
  cases hj : a.running[n]? with
  | none =>
    refine iff_of_true (fun id h hne => absurd ?_ hne) (fun j hj' => ?_)
    · show (a.job validCron n x occasion).db.stateOf id = _
      simpa [job, hj] using h
    · rw [hj] at hj'
      cases hj'
  | some j =>
    have henables := fun {id : Nat} => @job_enables_iff validCron a n j hj x occasion id
    constructor
    · intro hkeeps j' hj' hdisabled
      rw [hj] at hj'
      obtain rfl := Option.some.inj hj'
      refine ⟨fun htodo hvalid => ?_, fun htodo hcleared hactive hvalid => ?_⟩
      · by_contra hstate
        obtain ⟨j', hj', _, htodo', _⟩ := hkeeps j.source.id hdisabled
          ((henables hdisabled).mpr ⟨rfl, by rw [if_pos htodo]; exact ⟨hvalid, hstate⟩⟩)
        rw [hj] at hj'
        obtain rfl := Option.some.inj hj'
        exact htodo' htodo
      · obtain ⟨j', hj', _, _, _, hclear⟩ := hkeeps j.source.id hdisabled
          ((henables hdisabled).mpr ⟨rfl, by
            rw [if_neg htodo, if_pos hactive]
            exact ⟨hcleared, hvalid⟩⟩)
        rw [hj] at hj'
        obtain rfl := Option.some.inj hj'
        exact hclear
    · intro hminds id hdisabled hleaves
      obtain ⟨rfl, hwrites⟩ := (henables hdisabled).mp hleaves
      obtain ⟨hfinished, hchecks⟩ := hminds j hj hdisabled
      split at hwrites
      next htodo => exact absurd (hfinished htodo hwrites.1) hwrites.2
      next htodo =>
        obtain ⟨hcleared, hwrites⟩ := hwrites
        refine ⟨j, hj, rfl, htodo, hcleared, ?_⟩
        split at hwrites
        next hactive => exact hchecks htodo hcleared hactive hwrites
        next => exact hwrites.2

/-- One action. -/
theorem keepsDisabled_iff (a : App) (action : Action) :
    a.KeepsDisabled validCron action ↔ a.MindsDisabled validCron action := by
  cases action with
  | queueAllWorks sourceId options x => exact call_keeps_disabled_iff false x sourceId _
  | queueWorkJobs sourceId rsIds x => exact call_keeps_disabled_iff false x sourceId _
  | importFromCouchdb sourceId x => exact call_keeps_disabled_iff true x sourceId _
  | queueImportJobs sourceId rsIds x => exact call_keeps_disabled_iff true x sourceId _
  | slice n now =>
    exact iff_of_true (fun id h hne => hne ((stateOf_slice n now id).trans h)) trivial
  | reset sourceId =>
    refine iff_of_true (fun id h hne => hne ?_) trivial
    refine withSource_induction (P := fun a' : App => a'.db.stateOf id = some .disabled) h ?_
    intro s _
    split
    · exact h
    · exact h
  | admin sourceId event x =>
    refine iff_of_true (fun id h hne => ?_) trivial
    cases hs : a.db.findSource sourceId with
    | none =>
      refine absurd ?_ hne
      show (a.withSource sourceId _).db.stateOf id = _
      rw [withSource_none hs]
      exact h
    | some s =>
      have hleaves : (s.fireEvent validCron event.event (x.world a.db)).2.2.db.stateOf id ≠
          some .disabled := by
        intro hsame
        refine hne ?_
        show (a.withSource sourceId _).db.stateOf id = _
        rw [withSource_some hs]
        exact hsame
      exact admin_may_enable sourceId event x s hs h hleaves
  | start n => exact iff_of_true (fun id h hne => hne ((stateOf_start n id).trans h)) trivial
  | job n x occasion => exact job_keeps_disabled_iff n x occasion

end App

/-- **When a disabled source stays disabled.** A run leaves `disabled` by the
permitted ways only, exactly if every queueing call for a disabled source has
something to queue, every job that finishes while its source is stored as
disabled has an object that is disabled, and none with an object that is not
active comes to a check that would have objected. -/
theorem keeps_disabled_iff (validCron : String → Bool) (actions : List Action) (a : App) :
    Along (App.step validCron) (App.KeepsDisabled validCron) actions a ↔
      Along (App.step validCron) (App.MindsDisabled validCron) actions a :=
  along_congr (fun a action => a.keepsDisabled_iff action)

/-- A source that has been disabled, with nothing to do. -/
def tired : App where
  db := { sources := Table.empty.insert { Source.citeulike with state := .disabled } }

/-- Queueing an empty list takes it back to `waiting`. -/
theorem empty_list_enables :
    ¬ Along (App.step (fun _ => true)) (App.KeepsDisabled (fun _ => true))
      [.queueWorkJobs 1 [] juneFirst] tired := by
  rintro ⟨hkeeps, _⟩
  exact hkeeps 1 (by decide) (by decide +kernel)

/-! ## Staying switched off -/

/-- The stored state is one an administrator has put the source in. -/
def App.Off (sourceId : Nat) (a : App) : Prop :=
  ∃ state, a.db.stateOf sourceId = some state ∧ state.active = false

def Action.Activates (sourceId : Nat) : Action → Prop
  | .admin id event _ => id = sourceId ∧ event = .activate
  | _ => False

/-- The job's next event stores no active state: it cannot be saved, or there is
none before a request, or it is a check of an object that is not active, which
stores the state of the object. -/
def Running.StoresNoActive (validCron : String → Bool) (j : Running) : Prop :=
  ¬ j.source.ValidConfig validCron ∨
    j.todo ≠ [] ∧ (j.cleared = true ∨ j.source.state.active = false)

/-- A job of a source that is switched off does not switch it on. -/
def App.MindsOff (validCron : String → Bool) (sourceId : Nat) (a : App) : Action → Prop
  | .job n _ _ => ∀ j, a.running[n]? = some j → j.source.id = sourceId → a.Off sourceId →
    j.StoresNoActive validCron
  | _ => True

namespace App

variable {a a' : App} {sourceId : Nat}

theorem Off.of_eq (h : a.Off sourceId)
    (heq : a'.db.stateOf sourceId = a.db.stateOf sourceId) : a'.Off sourceId := by
  obtain ⟨state, hstate, hoff⟩ := h
  exact ⟨state, heq.trans hstate, hoff⟩

/-- What overwrites the state decides. -/
theorem off_of_written (h : a.Off sourceId) {dest : SourceState}
    (hwritten : a'.db.stateOf sourceId = (a.db.stateOf sourceId).map (fun _ => dest)) :
    a'.Off sourceId ↔ dest.active = false := by
  obtain ⟨state, hstate, _⟩ := h
  rw [hstate] at hwritten
  constructor
  · rintro ⟨state', hstate', hoff'⟩
    rw [hwritten] at hstate'
    cases hstate'
    exact hoff'
  · exact fun hdest => ⟨dest, hwritten, hdest⟩

theorem off_iff_of_written (h : a.Off sourceId) {id : Nat} {valid : Prop} [Decidable valid]
    {dest : SourceState} (hactive : dest.active = true)
    (hstate : a'.db.stateOf sourceId =
      if sourceId = id ∧ valid then (a.db.stateOf sourceId).map (fun _ => dest)
      else a.db.stateOf sourceId) :
    a'.Off sourceId ↔ (id = sourceId → ¬ valid) := by
  by_cases hw : sourceId = id ∧ valid
  · rw [if_pos hw] at hstate
    rw [off_of_written h hstate, hactive]
    exact iff_of_false nofun (fun himp => himp hw.1.symm hw.2)
  · rw [if_neg hw] at hstate
    exact iff_of_true (h.of_eq hstate) (fun hid hv => hw ⟨hid.symm, hv⟩)

theorem beginCall_off (h : a.Off sourceId) {id : Nat} {s : Source}
    (hs : a.db.findSource id = some s) (imports : Bool) (x : Weather) (rsIds : List Nat) :
    (a.beginCall validCron imports x s rsIds).Off sourceId := by
  refine h.of_eq ?_
  rw [stateOf_beginCall]
  split
  next hempty =>
    rw [Source.stateOf_wait]
    split
    next hwrites =>
      obtain ⟨state, hstate, hoff⟩ := h
      rw [hwrites.1, id_findSource hs, stateOf_findSource hs] at hstate
      rw [← Option.some.inj hstate, hempty.1] at hoff
      cases hoff
    next => rfl
  next => rfl

theorem admin_off (h : a.Off sourceId) {id : Nat} {event : AdminEvent} {x : Weather}
    (hends : ¬ (Action.admin id event x).Activates sourceId) {s : Source}
    (hs : a.db.findSource id = some s) :
    ({ a with db := (s.fireEvent validCron event.event (x.world a.db)).2.2.db } :
      App).Off sourceId := by
  rcases s.stateOf_fireEvent_cases validCron event.event (x.world a.db) sourceId with
    hsame | ⟨t, ht, happlies, hid, hwritten⟩
  · exact h.of_eq hsame
  · refine (off_of_written h hwritten).mpr ?_
    rw [id_findSource hs] at hid
    cases event with
    | activate => exact absurd ⟨hid.symm, rfl⟩ hends
    | _ =>
      simp only [AdminEvent.event, Source.transitions, List.mem_cons, List.not_mem_nil,
        or_false] at ht
      rcases ht with rfl | rfl <;> rfl

/-- **When a job leaves a source off that is switched off.** -/
theorem job_off_iff (h : a.Off sourceId) {n : Nat} {j : Running} (hj : a.running[n]? = some j)
    (x : Weather) (occasion : Occasion) :
    (a.job validCron n x occasion).Off sourceId ↔
      (j.source.id = sourceId → j.StoresNoActive validCron) := by
  unfold Running.StoresNoActive
  cases htodo : j.todo with
  | nil =>
    have hstate := stateOf_job_of_finished hj x occasion validCron htodo sourceId
    rw [Source.stateOf_waitAfterCheck] at hstate
    rw [off_iff_of_written h (by split <;> rfl) hstate]
    simp
  | cons rsId rest =>
    cases hcleared : j.cleared with
    | true =>
      have hstate := stateOf_job_of_cleared hj x occasion validCron htodo hcleared sourceId
      exact iff_of_true (h.of_eq hstate) (fun _ => Or.inr ⟨List.cons_ne_nil _ _, Or.inl rfl⟩)
    | false =>
      have hstate := stateOf_job_of_check hj x occasion validCron htodo hcleared sourceId
      cases hactive : j.source.state.active with
      | false =>
        refine iff_of_true ?_ (fun _ => Or.inr ⟨List.cons_ne_nil _ _, Or.inr rfl⟩)
        rw [Source.stateOf_workAfterCheck_of_inactive hactive] at hstate
        split at hstate
        next => exact (off_of_written h hstate).mpr hactive
        next => exact h.of_eq hstate
      | true =>
        by_cases hover : j.source.Overdrawn (x.world a.db)
        · rw [Source.stateOf_workAfterCheck_of_overdrawn hactive hover] at hstate
          rw [off_iff_of_written h rfl hstate]
          simp
        · rw [Source.stateOf_workAfterCheck_of_clear hactive hover] at hstate
          rw [off_iff_of_written h rfl hstate]
          simp

/-- One action. -/
theorem keepsOff_iff (a : App) (action : Action) :
    (a.Off sourceId → ¬ action.Activates sourceId → (a.step validCron action).Off sourceId) ↔
      a.MindsOff validCron sourceId action := by
  cases action with
  | queueAllWorks id options x =>
    refine iff_of_true (fun h _ => ?_) trivial
    exact withSource_induction h (fun s hs => beginCall_off h hs false x _)
  | queueWorkJobs id rsIds x =>
    refine iff_of_true (fun h _ => ?_) trivial
    exact withSource_induction h (fun s hs => beginCall_off h hs false x _)
  | importFromCouchdb id x =>
    refine iff_of_true (fun h _ => ?_) trivial
    exact withSource_induction h (fun s hs => beginCall_off h hs true x _)
  | queueImportJobs id rsIds x =>
    refine iff_of_true (fun h _ => ?_) trivial
    exact withSource_induction h (fun s hs => beginCall_off h hs true x _)
  | slice n now => exact iff_of_true (fun h _ => h.of_eq (stateOf_slice n now sourceId)) trivial
  | reset id =>
    refine iff_of_true (fun h _ => withSource_induction h (fun s _ => ?_)) trivial
    split
    · exact h.of_eq rfl
    · exact h
  | admin id event x =>
    refine iff_of_true (fun h hends => ?_) trivial
    exact withSource_induction h (fun s hs => admin_off h hends hs)
  | start n => exact iff_of_true (fun h _ => h.of_eq (stateOf_start n sourceId)) trivial
  | job n x occasion =>
    constructor
    · intro hkeeps j hj hid h
      exact (job_off_iff h hj x occasion).mp (hkeeps h not_false) hid
    · intro hminds h _
      cases hj : a.running[n]? with
      | none => exact h.of_eq (by simp [step, job, hj])
      | some j => exact (job_off_iff h hj x occasion).mpr (fun hid => hminds j hj hid h)

end App

/-- **When a source that is switched off stays off.** It does until it is
activated, exactly if no job of it stores an active state in the meantime. -/
theorem stays_off_iff (validCron : String → Bool) (sourceId : Nat) (actions : List Action)
    (a : App) :
    Until (App.step validCron) (App.Off sourceId) (Action.Activates sourceId) actions a ↔
      Along (App.step validCron) (App.MindsOff validCron sourceId) actions a :=
  until_iff.trans (along_congr (fun a action => a.keepsOff_iff action))

/-- A batch of two; the administrator inactivates the source between the last
check and the last request. -/
def inactivatedInBetween : List Action :=
  let occasion := troubled.occasions 0
  [.queueAllWorks 1 {} juneFirst, .slice 0 1433116800, .start 0, .job 0 juneFirst occasion,
    .job 0 juneFirst occasion, .job 0 juneFirst occasion, .admin 1 .inactivate juneFirst,
    .job 0 juneFirst occasion, .job 0 juneFirst occasion]

/-- At its end the job stores `waiting`. -/
theorem finished_job_reactivates :
    ¬ Until (App.step (fun _ => true)) (App.Off 1) (Action.Activates 1) inactivatedInBetween
      shelf := by
  intro huntil
  have hoff : ((StateMachine.run (App.step (fun _ => true)) (inactivatedInBetween.take 7)
      shelf).db.stateOf 1) = some .inactive := by
    decide +kernel
  have hwaiting : ((StateMachine.run (App.step (fun _ => true)) inactivatedInBetween
      shelf).db.stateOf 1) = some .waiting := by
    decide +kernel
  obtain ⟨state, hstate, hstill⟩ := huntil (inactivatedInBetween.take 7)
    (inactivatedInBetween.drop 7) [] (by simp) ⟨_, hoff, rfl⟩ (by
      simp [inactivatedInBetween, Action.Activates])
  rw [List.take_append_drop, hwaiting] at hstate
  rw [← Option.some.inj hstate] at hstill
  cases hstill

end Application

end Lagotto
