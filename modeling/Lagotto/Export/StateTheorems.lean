/-
Lagotto.Export.StateTheorems — what `DataExport#state` says about the attempts
made so far.

`failed_at` is set when an attempt raises, and nothing ever clears it. So an
export that has failed once is reported as failed for good. `Leaves` is what
an attempt does to the time stamps, for an export to Zenodo and for an API
snapshot alike, and `reports_iff` says when the state tells how it ended:
exactly if what was noted before does not get in the way (`Undistorted`).

An attempt finds the record with the time stamps the one before has left.
Everything else may have changed in between.
-/
import Lagotto.Export.Zenodo
import Lagotto.Interaction.Turns

namespace Lagotto.Export

open Interaction
open Relational
open StateMachine
open Program (wp_bind wp_rescue wp_raising wp_bind_of_obeys obeys_bind obeys_raising exec_of_wp)

/-! ## Time stamps -/

/-- How an attempt ends: it raises, it completes the export, or it returns with
pages left. -/
inductive Outcome where
  | raised
  | completed
  | stopped
  deriving DecidableEq, Repr

/-- `state` tells how the attempt ended. -/
def Reports (stamps : Stamps) (outcome : Outcome) : Prop :=
  (stamps.state = .failed ↔ outcome = .raised) ∧ (stamps.state = .done ↔ outcome = .completed)

/-- The time stamps after an attempt. `recorded` is whether a failure could be
noted. -/
def Leaves (recorded : Prop) (before after : Stamps) : Outcome → Prop
  | .raised => after.failedAt.isSome = true ↔ before.failedAt.isSome = true ∨ recorded
  | .completed =>
    after.failedAt = before.failedAt ∧ after.finishedExportingAt.isSome = true
  | .stopped =>
    after.failedAt = before.failedAt ∧ after.finishedExportingAt = before.finishedExportingAt

/-- What was noted before goes with the outcome. -/
def Undistorted (recorded : Prop) (before : Stamps) : Outcome → Prop
  | .raised => before.failedAt.isSome = true ∨ recorded
  | .completed => before.failedAt = none
  | .stopped => before.failedAt = none ∧ before.finishedExportingAt = none

/-- A record is failed once it has a `failed_at`. -/
theorem state_eq_failed_iff (stamps : Stamps) :
    stamps.state = .failed ↔ stamps.failedAt.isSome = true := by
  unfold Stamps.state
  split
  · simp_all
  · split
    · simp_all
    · split <;> simp_all

/-- A record is done if it finished and never failed. -/
theorem state_eq_done_iff (stamps : Stamps) :
    stamps.state = .done ↔
      stamps.failedAt = none ∧ stamps.finishedExportingAt.isSome = true := by
  unfold Stamps.state
  split
  · simp_all [Option.isSome_iff_ne_none]
  · split
    · simp_all
    · split <;> simp_all

theorem reports_iff {recorded : Prop} {before after : Stamps} {outcome : Outcome}
    (h : Leaves recorded before after outcome) :
    Reports after outcome ↔ Undistorted recorded before outcome := by
  rw [Reports, state_eq_failed_iff, state_eq_done_iff]
  cases outcome with
  | raised =>
    simp only [Leaves] at h
    simp only [Undistorted, ← h]
    cases after.failedAt <;> simp
  | completed =>
    obtain ⟨hfailed, hfinished⟩ := h
    simp only [Undistorted, hfailed, hfinished]
    cases before.failedAt <;> simp
  | stopped =>
    obtain ⟨hfailed, hfinished⟩ := h
    simp only [Undistorted, hfailed, hfinished]
    cases before.failedAt <;> cases before.finishedExportingAt <;> simp

/-! ## Exports to Zenodo -/

section Zenodo

variable {env : ZenodoEnv} {id : Nat} {w : Archive} {e : ZenodoRecord} {failedAt : Option Time}

theorem id_of_find (h : w.find id = some e) : e.id = id := by
  have hid := Table.first_prop h
  exact beq_iff_eq.mp hid

theorem find_update (i : Nat) (f : ZenodoRecord → ZenodoRecord) :
    (w.update i f).find id = (w.find id).map (Table.updateRow (fun e => Row.id e == i) f) :=
  Table.first_id_updateAll w.exports (fun e => Row.id e == i) f id

theorem find_update_self (f : ZenodoRecord → ZenodoRecord) (h : w.find id = some e) :
    (w.update id f).find id = some (Row.withId id (f e)) := by
  have hid : Row.id e = id := id_of_find h
  rw [find_update, h, Option.map_some, Table.updateRow, hid, if_pos (by simp)]

/-- The export is there, with the time of the failure that was noted. -/
def FailedAt (id : Nat) (failedAt : Option Time) (w : Archive) : Prop :=
  ∃ e, w.find id = some e ∧ e.stamps.failedAt = failedAt

theorem FailedAt.update {i : Nat} {f : ZenodoRecord → ZenodoRecord}
    (hf : ∀ e, (f e).stamps.failedAt = e.stamps.failedAt) (h : FailedAt id failedAt w) :
    FailedAt id failedAt (w.update i f) := by
  obtain ⟨e, hfind, hfailed⟩ := h
  refine ⟨_, (find_update i f).trans (congrArg _ hfind), ?_⟩
  unfold Table.updateRow
  split
  · exact (hf e).trans hfailed
  · exact hfailed

/-- Calls that do not write `failed_at`. -/
def ZenodoCall.Sparing : ZenodoCall → Prop
  | .touch _ .failedAt => False
  | .recordFailure _ => False
  | _ => True

/-- A sparing call leaves `failed_at` alone. -/
theorem failedAt_zenodoEffect {r : ZenodoCall} (hr : r.Sparing) (h : FailedAt id failedAt w) :
    FailedAt id failedAt (zenodoEffect env r w).2 := by
  cases r with
  | touch i stamp =>
    cases stamp with
    | failedAt => exact hr.elim
    | startedExportingAt => exact h.update (fun _ => rfl)
    | finishedExportingAt => exact h.update (fun _ => rfl)
  | save i deposition => exact h.update (fun _ => rfl)
  | recordFailure i => exact hr.elim
  | _ => exact h

/-- A call that raises has had its effect or none. -/
theorem zenodoHandle_preserves {P : Archive → Prop} {r : ZenodoCall} (h : P w)
    (heffect : P (zenodoEffect env r w).2) : P (zenodoHandle env r w).2 := by
  unfold zenodoHandle
  split
  · exact heffect
  next hadEffect _ =>
    cases hadEffect with
    | false => exact h
    | true => exact heffect

theorem failedAt_zenodoHandle (r : ZenodoCall) (w : Archive) (hr : r.Sparing)
    (h : FailedAt id failedAt w) : FailedAt id failedAt (zenodoHandle env r w).2 :=
  zenodoHandle_preserves h (failedAt_zenodoEffect hr h)

/-- Conditions on calls and on their answers that an upload meets. -/
structure AllowsUpload (rely : (r : ZenodoCall) → Except ZenodoError r.Answer → Prop)
    (guarantee : ZenodoCall → Prop) (e : ZenodoRecord) : Prop where
  fileExists : ∀ file, guarantee (.fileExists file)
  findPreviousVersionOf : guarantee (.findPreviousVersionOf e)
  createDeposition : ∀ d : Deposition, d.madeFor = e →
    rely (.findPreviousVersionOf e) (.ok d.previousVersion) → guarantee (.createDeposition d)
  createDepositionFile : ∀ i file, guarantee (.createDepositionFile i file)
  publishDeposition : ∀ i, guarantee (.publishDeposition i)
  getDeposition : ∀ i, guarantee (.getDeposition i)
  save : ∀ deposition, guarantee (.save e.id deposition)

namespace AllowsUpload

variable {rely : (r : ZenodoCall) → Except ZenodoError r.Answer → Prop}
  {guarantee : ZenodoCall → Prop} (h : AllowsUpload rely guarantee e)

include h

theorem ensureFilesExists (files : List String) :
    (ZenodoRecord.ensureFilesExists files).Obeys rely guarantee (fun _ => True) := by
  induction files with
  | nil => exact trivial
  | cons file files ih =>
    refine obeys_bind (R := fun _ => True) (obeys_raising (h.fileExists file) fun _ _ => trivial)
      (fun (found : Bool) _ => ?_)
    cases found with
    | true => exact ih
    | false => exact trivial

theorem createDepositionFiles (i : Nat) (files : List String) :
    (ZenodoRecord.createDepositionFiles i files).Obeys rely guarantee (fun _ => True) := by
  induction files with
  | nil => exact trivial
  | cons file files ih =>
    exact obeys_bind (R := fun _ => True)
      (obeys_raising (h.createDepositionFile i file) fun _ _ => trivial) (fun _ _ => ih)

/-- The deposit obeys what its calls obey. -/
theorem deposit {previousVersion : Option ZenodoRecord}
    (hprevious : rely (.findPreviousVersionOf e) (.ok previousVersion)) :
    (e.deposit previousVersion).Obeys rely guarantee (fun _ => True) := by
  unfold ZenodoRecord.deposit
  split
  · exact trivial
  · exact obeys_raising (h.createDeposition _ rfl hprevious) fun _ _ => trivial

/-- What the lookup answers is known when the deposition is created. -/
theorem performUpload : e.performUpload.Obeys rely guarantee (fun _ => True) := by
  refine obeys_bind (R := fun previous => rely (.findPreviousVersionOf e) (.ok previous))
    (obeys_raising h.findPreviousVersionOf fun _ hprevious => hprevious)
    (fun previous hprevious => ?_)
  refine obeys_bind (h.deposit hprevious) (fun i _ => ?_)
  refine obeys_bind (h.createDepositionFiles i _) (fun _ _ => ?_)
  refine obeys_bind (R := fun _ => True)
    (obeys_raising (h.publishDeposition i) fun _ _ => trivial) (fun _ _ => ?_)
  refine obeys_bind (R := fun _ => True)
    (obeys_raising (h.getDeposition i) fun _ _ => trivial) (fun deposition _ => ?_)
  exact obeys_raising (h.save deposition) fun _ _ => trivial

end AllowsUpload

/-- A program of such calls. -/
def IsSparing {α : Type} (p : ZenodoM α) : Prop :=
  p.Obeys (fun _ _ => True) ZenodoCall.Sparing (fun _ => True)

theorem isSparing_zenodo {r : ZenodoCall} (hr : r.Sparing) : IsSparing (zenodo r) :=
  obeys_raising hr fun _ _ => trivial

theorem allowsUpload_sparing (e : ZenodoRecord) :
    AllowsUpload (fun _ _ => True) ZenodoCall.Sparing e where
  fileExists _ := trivial
  findPreviousVersionOf := trivial
  createDeposition _ _ _ := trivial
  createDepositionFile _ _ := trivial
  publishDeposition _ := trivial
  getDeposition _ := trivial
  save _ := trivial

/-- The last step of an upload sets `finished_exporting_at`. -/
theorem upload_wp (h : FailedAt e.id failedAt w) :
    e.upload.wp (zenodoHandle env)
      (fun _ w => ∃ e', w.find e.id = some e' ∧ e'.stamps.failedAt = failedAt ∧
        e'.stamps.finishedExportingAt.isSome = true)
      (fun _ w => FailedAt e.id failedAt w) w := by
  have hcall : ∀ (r : ZenodoCall) (w : Archive), r.Sparing → FailedAt e.id failedAt w →
      FailedAt e.id failedAt (zenodoHandle env r w).2 := failedAt_zenodoHandle
  have hraises : ∀ (ex : ZenodoError) (w : Archive), FailedAt e.id failedAt w →
      FailedAt e.id failedAt w := fun _ _ h => h
  refine wp_bind_of_obeys hcall (isSparing_zenodo (r := .build) trivial) h
    (fun _ w _ h => ?_) hraises
  refine wp_bind_of_obeys hcall (isSparing_zenodo (r := .touch e.id .startedExportingAt) trivial) h
    (fun _ w _ h => ?_) hraises
  refine wp_bind_of_obeys hcall ((allowsUpload_sparing e).ensureFilesExists _) h
    (fun _ w _ h => ?_) hraises
  refine wp_bind_of_obeys hcall (allowsUpload_sparing e).performUpload h
    (fun _ w _ h => ?_) hraises
  refine wp_raising.mpr ⟨fun _ hok => ?_, fun _ _ =>
    hcall (.touch e.id .finishedExportingAt) w trivial h⟩
  obtain ⟨e', hfind, hfailed⟩ := h
  cases hfault : env.faults (.touch e.id .finishedExportingAt) with
  | some hadEffect => simp [zenodoHandle, hfault] at hok
  | none =>
    simp only [zenodoHandle, hfault, zenodoEffect]
    exact ⟨_, find_update_self _ hfind, hfailed, rfl⟩

/-- Whether the failure of an attempt is noted: the `update_attributes` that
does it may raise as well. -/
def ZenodoEnv.Records (env : ZenodoEnv) (id : Nat) : Prop :=
  env.faults (.recordFailure id) ≠ some false

/-- The rescue leaves a record that raised. -/
theorem recordFailure_leaves {before : Stamps} (h : FailedAt id before.failedAt w) :
    ∃ e', (zenodoHandle env (.recordFailure id) w).2.find id = some e' ∧
      Leaves (env.Records id) before e'.stamps .raised := by
  obtain ⟨e, hfind, hfailed⟩ := h
  have heffect : ∃ e', (zenodoEffect env (.recordFailure id) w).2.find id = some e' ∧
      e'.stamps.failedAt.isSome = true := ⟨_, find_update_self _ hfind, rfl⟩
  obtain ⟨e', hfind', hsome⟩ := heffect
  simp only [Leaves, ZenodoEnv.Records]
  cases hfault : env.faults (.recordFailure id) with
  | none => exact ⟨e', by simp only [zenodoHandle, hfault, hfind'], by simp [hsome]⟩
  | some hadEffect =>
    cases hadEffect with
    | true => exact ⟨e', by simp only [zenodoHandle, hfault, if_true, hfind'], by simp [hsome]⟩
    | false =>
      refine ⟨e, ?_, by simp [hfailed]⟩
      simp only [zenodoHandle, hfault, Bool.false_eq_true, if_false, hfind]

/-- What an attempt leaves of the time stamps, whichever way it ends. -/
theorem exportNow_wp (env : ZenodoEnv) (hfind : w.find e.id = some e) :
    e.exportNow.wp (zenodoHandle env)
      (fun _ w => ∃ e', w.find e.id = some e' ∧
        Leaves (env.Records e.id) e.stamps e'.stamps .completed)
      (fun _ w => ∃ e', w.find e.id = some e' ∧
        Leaves (env.Records e.id) e.stamps e'.stamps .raised) w := by
  unfold ZenodoRecord.exportNow
  split
  next hfinished => exact ⟨e, hfind, rfl, hfinished⟩
  next =>
    rw [wp_rescue]
    refine Program.wp_mono (upload_wp ⟨e, hfind, rfl⟩) (fun _ w h => h) (fun ex w h => ?_)
    have hrecord : (zenodo (.recordFailure e.id)).wp (zenodoHandle env)
        (fun _ w => ∃ e', w.find e.id = some e' ∧
          Leaves (env.Records e.id) e.stamps e'.stamps .raised)
        (fun _ w => ∃ e', w.find e.id = some e' ∧
          Leaves (env.Records e.id) e.stamps e'.stamps .raised) w :=
      wp_raising.mpr ⟨fun _ _ => recordFailure_leaves h, fun _ _ => recordFailure_leaves h⟩
    exact (wp_bind _ _).mpr hrecord

/-- The two ways an attempt ends. -/
theorem exportAttempt_leaves (env : ZenodoEnv) (hfind : w.find id = some e) :
    (∃ e', (exportAttempt env id w).1 = some (.ok ()) ∧
      (exportAttempt env id w).2.find id = some e' ∧
      Leaves (env.Records id) e.stamps e'.stamps .completed) ∨
    ∃ ex e', (exportAttempt env id w).1 = some (.error ex) ∧
      (exportAttempt env id w).2.find id = some e' ∧
      Leaves (env.Records id) e.stamps e'.stamps .raised := by
  obtain rfl := id_of_find hfind
  obtain ⟨hok, herror⟩ := exec_of_wp (exportNow_wp env hfind)
  simp only [exportAttempt, hfind]
  cases hresult : (e.exportNow.exec (zenodoHandle env) w).1 with
  | ok u =>
    obtain ⟨e', hfind', hleaves⟩ := hok u hresult
    exact .inl ⟨e', rfl, hfind', hleaves⟩
  | error ex =>
    obtain ⟨e', hfind', hleaves⟩ := herror ex hresult
    exact .inr ⟨ex, e', rfl, hfind', hleaves⟩

/-- One attempt to export the record of an id, whatever else the archive has
become. -/
structure ZenodoAttempt (id : Nat) where
  env : ZenodoEnv
  archive : Archive
  found : (archive.find id).isSome = true

namespace ZenodoAttempt

/-- The archive, with the time stamps the attempt before has left. -/
def start (a : ZenodoAttempt id) (before : Stamps) : Archive :=
  a.archive.update id (fun e => { e with stamps := before })

def outcome (a : ZenodoAttempt id) (before : Stamps) : Outcome :=
  match (exportAttempt a.env id (a.start before)).1 with
  | some (.error _) => .raised
  | _ => .completed

def step (a : ZenodoAttempt id) (before : Stamps) : Stamps :=
  ((exportAttempt a.env id (a.start before)).2.find id).elim before (·.stamps)

theorem leaves (a : ZenodoAttempt id) (before : Stamps) :
    Leaves (a.env.Records id) before (a.step before) (a.outcome before) := by
  obtain ⟨e, hfound⟩ := Option.isSome_iff_exists.mp a.found
  have hfind := find_update_self (fun e => { e with stamps := before }) hfound
  rcases exportAttempt_leaves a.env hfind with
    ⟨e', hresult, hfind', hleaves⟩ | ⟨ex, e', hresult, hfind', hleaves⟩
  · simp only [outcome, step, start, hresult, hfind']
    exact hleaves
  · simp only [outcome, step, start, hresult, hfind']
    exact hleaves

end ZenodoAttempt

end Zenodo

/-! ## API snapshots -/

section Snapshot

variable {env : Env} {id : Nat} {w : World} {failedAt finishedAt : Option Time}

/-- The snapshot is there, with these time stamps. -/
def Stamped (id : Nat) (failedAt finishedAt : Option Time) (w : World) : Prop :=
  ∃ s, w.snapshots id = some s ∧ s.failedAt = failedAt ∧ s.finishedExportingAt = finishedAt

theorem Stamped.updateSnapshot {i : Nat} {f : ApiSnapshot → ApiSnapshot}
    (hfailed : ∀ s, (f s).failedAt = s.failedAt)
    (hfinished : ∀ s, (f s).finishedExportingAt = s.finishedExportingAt)
    (h : Stamped id failedAt finishedAt w) :
    Stamped id failedAt finishedAt (w.updateSnapshot i f) := by
  obtain ⟨s, hs, hfailedAt, hfinishedAt⟩ := h
  by_cases hid : id = i
  · subst hid
    refine ⟨f s, ?_, (hfailed s).trans hfailedAt, (hfinished s).trans hfinishedAt⟩
    simp [World.updateSnapshot, hs]
  · refine ⟨s, ?_, hfailedAt, hfinishedAt⟩
    simp [World.updateSnapshot, hid, hs]

/-- Calls that write neither. -/
def ExportCall.Unstamping : ExportCall → Prop
  | .touch _ .failedAt => False
  | .touch _ .finishedExportingAt => False
  | .createSnapshot _ _ => False
  | _ => True

/-- A call that stamps nothing keeps the stamps. -/
theorem stamped_effect {r : ExportCall} (hr : r.Unstamping) (h : Stamped id failedAt finishedAt w) :
    Stamped id failedAt finishedAt (effect env r w).2 := by
  cases r with
  | createSnapshot _ _ => exact hr.elim
  | touch i stamp =>
    cases stamp with
    | startedExportingAt => exact h.updateSnapshot (fun _ => rfl) (fun _ => rfl)
    | finishedExportingAt => exact hr.elim
    | failedAt => exact hr.elim
  | saveData i data => exact h.updateSnapshot (fun _ => rfl) (fun _ => rfl)
  | rm path =>
    unfold effect
    dsimp only
    split <;> exact h
  | addToZip zip path name =>
    unfold effect
    dsimp only
    split <;> exact h
  | createZenodoDataExport attributes =>
    unfold effect
    dsimp only
    split <;> exact h
  | _ => exact h

theorem stamped_handle (r : ExportCall) (w : World) (hr : r.Unstamping)
    (h : Stamped id failedAt finishedAt w) : Stamped id failedAt finishedAt (handle env r w).2 := by
  unfold handle
  split
  · exact stamped_effect hr h
  · unfold remains
    split
    · exact h
    · split
      · exact h
      · exact stamped_effect hr h

/-- A program of such calls. -/
def IsUnstamping {α : Type} (p : ExportM α) : Prop :=
  p.Obeys (fun _ _ => True) ExportCall.Unstamping (fun _ => True)

theorem isUnstamping_call {r : ExportCall} (hr : r.Unstamping) : IsUnstamping (call r) :=
  obeys_raising hr fun _ _ => trivial

theorem IsUnstamping.bind {α β : Type} {p : ExportM α} {f : α → ExportM β}
    (hp : IsUnstamping p) (hf : ∀ a, IsUnstamping (f a)) : IsUnstamping (p.bind f) :=
  obeys_bind hp fun a _ => hf a

theorem isUnstamping_removeOld (s : ApiSnapshot) (path : String) :
    IsUnstamping (s.removeOld path) := by
  unfold ApiSnapshot.removeOld
  split
  · refine (isUnstamping_call (r := .fileExists path) trivial).bind (fun (present : Bool) => ?_)
    cases present with
    | true => exact isUnstamping_call trivial
    | false => exact trivial
  · exact trivial

theorem isUnstamping_openBenchmark (s : ApiSnapshot) (path : String) :
    IsUnstamping (s.openBenchmark path) := by
  unfold ApiSnapshot.openBenchmark
  split
  · refine (isUnstamping_removeOld s _).bind (fun _ => ?_)
    exact (isUnstamping_call (r := .append _ "") trivial).bind (fun _ => trivial)
  · exact trivial

theorem isUnstamping_prepare (s : ApiSnapshot) : IsUnstamping s.prepare := by
  have htouch : IsUnstamping s.touchStarted := by
    unfold ApiSnapshot.touchStarted
    split
    · exact isUnstamping_call trivial
    · exact trivial
  have hdir : IsUnstamping s.makeDir := by
    refine (isUnstamping_call (r := .dirExists _) trivial).bind (fun (present : Bool) => ?_)
    cases present with
    | true => exact trivial
    | false => exact isUnstamping_call trivial
  refine htouch.bind (fun _ => hdir.bind (fun _ => ?_))
  split
  · exact trivial
  · refine (isUnstamping_removeOld s _).bind (fun _ => ?_)
    refine (isUnstamping_openBenchmark s _).bind (fun _ => ?_)
    exact (isUnstamping_call (r := .newTempfile _) trivial).bind (fun _ => trivial)

theorem isUnstamping_report (request : Request) (benchmark : Option String) :
    IsUnstamping (report env request benchmark) := by
  cases benchmark with
  | none => exact trivial
  | some path => exact isUnstamping_call trivial

/-- The crawl stamps nothing. -/
theorem isUnstamping_crawlFrom (url : String) (data : SnapshotData) (benchmark : Option String)
    (fuel : Nat) (page : Option Int) (c : Crawler) :
    IsUnstamping (crawlFrom env url data benchmark fuel page c) := by
  induction fuel generalizing page c with
  | zero => exact trivial
  | succ fuel ih =>
    refine (isUnstamping_call (r := .get _) trivial).bind (fun (body : Body) => ?_)
    cases hprocess : c.process body with
    | error ex => exact trivial
    | ok c' =>
      refine IsUnstamping.bind (p := .done c') trivial (fun c' => ?_)
      refine (isUnstamping_report _ benchmark).bind (fun _ => ?_)
      split
      · exact ih _ _
      · exact trivial

/-- Whether the failure of an attempt is noted. -/
def Env.Records (env : Env) (id : Nat) : Prop := env.faults (.touch id .failedAt) ≠ some 0

variable {s : ApiSnapshot}

theorem touchFinished_wp (h : Stamped id failedAt finishedAt w) :
    (call (.touch id .finishedExportingAt)).wp (handle env)
      (fun _ w => Stamped id failedAt (some env.now) w)
      (fun _ w => ∃ finishedAt', Stamped id failedAt finishedAt' w) w := by
  obtain ⟨s, hs, hfailed, hfinished⟩ := h
  have heffect : Stamped id failedAt (some env.now)
      (effect env (.touch id .finishedExportingAt) w).2 :=
    ⟨s.touch .finishedExportingAt env.now,
      by simp [effect, World.updateSnapshot, hs], hfailed, rfl⟩
  refine wp_raising.mpr ⟨fun _ hok => ?_, fun _ _ => ?_⟩
  · cases hfault : env.faults (.touch id .finishedExportingAt) with
    | some written => simp [handle, hfault] at hok
    | none =>
      simp only [handle, hfault]
      exact heffect
  · cases hfault : env.faults (.touch id .finishedExportingAt) with
    | none =>
      simp only [handle, hfault]
      exact ⟨_, heffect⟩
    | some written =>
      simp only [handle, hfault, remains]
      split
      · exact ⟨_, s, hs, hfailed, hfinished⟩
      · exact ⟨_, heffect⟩

/-- The rescue of the job leaves a snapshot that raised. -/
theorem touchFailed_leaves {before : Stamps} (h : Stamped id before.failedAt finishedAt w) :
    ∃ s', (handle env (.touch id .failedAt) w).2.snapshots id = some s' ∧
      Leaves (env.Records id) before s'.stamps .raised := by
  obtain ⟨s, hs, hfailed, -⟩ := h
  have heffect : (effect env (.touch id .failedAt) w).2.snapshots id =
      some (s.touch .failedAt env.now) := by
    simp [effect, World.updateSnapshot, hs]
  simp only [Leaves, Env.Records]
  cases hfault : env.faults (.touch id .failedAt) with
  | none =>
    refine ⟨s.touch .failedAt env.now, ?_, by simp [ApiSnapshot.stamps, ApiSnapshot.touch]⟩
    simp only [handle, hfault]
    exact heffect
  | some written =>
    cases written with
    | zero =>
      refine ⟨s, ?_, by simp [ApiSnapshot.stamps, hfailed]⟩
      simp only [handle, hfault, remains, if_true, hs]
    | succ written =>
      refine ⟨s.touch .failedAt env.now, ?_, by simp [ApiSnapshot.stamps, ApiSnapshot.touch]⟩
      simp only [handle, hfault, remains, Nat.succ_ne_zero, if_false]
      exact heffect

/-- What is stored after the crawl: the time stamp of the end only if no page
is left. -/
theorem store_wp (path : String) (c : Crawler) (h : Stamped s.id failedAt finishedAt w) :
    (s.store path c).wp (handle env)
      (fun _ w => ∃ finishedAt', Stamped s.id failedAt finishedAt' w ∧
        if s.finished c then finishedAt'.isSome = true else finishedAt' = finishedAt)
      (fun _ w => ∃ finishedAt', Stamped s.id failedAt finishedAt' w) w := by
  have hcall : ∀ (r : ExportCall) (w : World), r.Unstamping → Stamped s.id failedAt finishedAt w →
      Stamped s.id failedAt finishedAt (handle env r w).2 := stamped_handle
  have hraises : ∀ (ex : ExportError) (w : World), Stamped s.id failedAt finishedAt w →
      ∃ finishedAt', Stamped s.id failedAt finishedAt' w := fun _ _ h => ⟨_, h⟩
  refine wp_bind_of_obeys hcall (isUnstamping_call (r := .saveData s.id _) trivial) h
    (fun _ w _ h => ?_) hraises
  refine wp_bind_of_obeys hcall (isUnstamping_call (r := .append path _) trivial) h
    (fun _ w _ h => ?_) hraises
  refine wp_bind_of_obeys hcall (isUnstamping_call (r := .createFileWriteLog _) trivial) h
    (fun _ w _ h => ?_) hraises
  split
  · exact Program.wp_mono (touchFinished_wp h) (fun _ w h => ⟨_, h, rfl⟩) (fun _ w h => h)
  · exact ⟨_, h, rfl⟩

/-- What an attempt leaves of the time stamps, whichever way it ends. -/
theorem snapshot_wp (env : Env) (fuel : Nat) (hs : w.snapshots s.id = some s) :
    (s.snapshot env fuel).wp (handle env)
      (fun result w => ∃ s', w.snapshots s.id = some s' ∧
        Leaves (env.Records s.id) s.stamps s'.stamps
          (if s.finished result.2 then .completed else .stopped))
      (fun _ w => ∃ s', w.snapshots s.id = some s' ∧
        Leaves (env.Records s.id) s.stamps s'.stamps .raised) w := by
  have hcall : ∀ (r : ExportCall) (w : World), r.Unstamping →
      Stamped s.id s.failedAt s.finishedExportingAt w →
      Stamped s.id s.failedAt s.finishedExportingAt (handle env r w).2 := stamped_handle
  unfold ApiSnapshot.snapshot
  rw [wp_rescue]
  refine Program.wp_mono
    (Q := fun result w => ∃ finishedAt', Stamped s.id s.failedAt finishedAt' w ∧
      if s.finished result.2 then finishedAt'.isSome = true
      else finishedAt' = s.finishedExportingAt)
    (E := fun _ w => ∃ finishedAt', Stamped s.id s.failedAt finishedAt' w) ?_
    (fun result w h => ?_) (fun ex w h => ?_)
  · refine wp_bind_of_obeys hcall (isUnstamping_prepare s) ⟨s, hs, rfl, rfl⟩
      (fun prepared w _ h => ?_) (fun _ _ h => ⟨_, h⟩)
    refine wp_bind_of_obeys hcall (isUnstamping_crawlFrom _ _ prepared.2 fuel _ _) h
      (fun c w _ h => ?_) (fun _ _ h => ⟨_, h⟩)
    exact (wp_bind _ _).mpr (Program.wp_mono (store_wp prepared.1 c h) (fun _ _ h => h)
      (fun _ _ h => h))
  · obtain ⟨finishedAt', ⟨s', hs', hfailed, hfinished⟩, hend⟩ := h
    refine ⟨s', hs', ?_⟩
    split at hend
    next hdone =>
      rw [if_pos hdone]
      exact ⟨hfailed, (congrArg Option.isSome hfinished).trans hend⟩
    next hleft =>
      rw [if_neg hleft]
      exact ⟨hfailed, hfinished.trans hend⟩
  · obtain ⟨finishedAt', h⟩ := h
    have htouch : (call (.touch s.id .failedAt)).wp (handle env)
        (fun _ w => ∃ s', w.snapshots s.id = some s' ∧
          Leaves (env.Records s.id) s.stamps s'.stamps .raised)
        (fun _ w => ∃ s', w.snapshots s.id = some s' ∧
          Leaves (env.Records s.id) s.stamps s'.stamps .raised) w :=
      wp_raising.mpr ⟨fun _ _ => touchFailed_leaves h, fun _ _ => touchFailed_leaves h⟩
    exact (wp_bind _ _).mpr htouch

/-- One attempt to take a snapshot, whatever else has changed. -/
structure SnapshotAttempt where
  env : Env
  fuel : Nat
  world : World
  /-- The record, but for its time stamps. -/
  snapshot : ApiSnapshot

namespace SnapshotAttempt

/-- The record, with the time stamps the attempt before has left. -/
def record (a : SnapshotAttempt) (before : Stamps) : ApiSnapshot :=
  { a.snapshot with
    startedExportingAt := before.startedExportingAt
    finishedExportingAt := before.finishedExportingAt
    failedAt := before.failedAt }

def start (a : SnapshotAttempt) (before : Stamps) : World :=
  { a.world with
    snapshots := Function.update a.world.snapshots a.snapshot.id (some (a.record before)) }

def result (a : SnapshotAttempt) (before : Stamps) :
    Except ExportError (String × Crawler) × World :=
  ((a.record before).snapshot a.env a.fuel).exec (handle a.env) (a.start before)

def outcome (a : SnapshotAttempt) (before : Stamps) : Outcome :=
  match (a.result before).1 with
  | .error _ => .raised
  | .ok (_, c) => if (a.record before).finished c then .completed else .stopped

def step (a : SnapshotAttempt) (before : Stamps) : Stamps :=
  ((a.result before).2.snapshots a.snapshot.id).elim before (·.stamps)

theorem step_eq (a : SnapshotAttempt) {before : Stamps} {s' : ApiSnapshot}
    (h : (a.result before).2.snapshots a.snapshot.id = some s') : a.step before = s'.stamps := by
  rw [step, h]
  rfl

theorem leaves (a : SnapshotAttempt) (before : Stamps) :
    Leaves (a.env.Records a.snapshot.id) before (a.step before) (a.outcome before) := by
  have hs : (a.start before).snapshots (a.record before).id = some (a.record before) :=
    Function.update_self ..
  obtain ⟨hok, herror⟩ := exec_of_wp (snapshot_wp a.env a.fuel hs)
  cases hresult : (a.result before).1 with
  | ok result =>
    obtain ⟨s', hs', hleaves⟩ := hok result hresult
    rw [a.step_eq hs', outcome, hresult]
    exact hleaves
  | error ex =>
    obtain ⟨s', hs', hleaves⟩ := herror ex hresult
    rw [a.step_eq hs', outcome, hresult]
    exact hleaves

end SnapshotAttempt

end Snapshot

/-! ## Any sequence of attempts -/

/-- **`state` tells how every attempt has ended exactly if the time stamps left
by the attempts before do not get in the way.** -/
theorem state_reports_attempts_iff (id : Nat) (exports : List (ZenodoAttempt id))
    (snapshots : List SnapshotAttempt) :
    (Along ZenodoAttempt.step (fun before a => Reports (a.step before) (a.outcome before))
        exports {} ↔
      Along ZenodoAttempt.step
        (fun before a => Undistorted (a.env.Records id) before (a.outcome before)) exports {}) ∧
    (Along SnapshotAttempt.step (fun before a => Reports (a.step before) (a.outcome before))
        snapshots {} ↔
      Along SnapshotAttempt.step
        (fun before a => Undistorted (a.env.Records a.snapshot.id) before (a.outcome before))
        snapshots {}) :=
  ⟨along_congr fun before a => reports_iff (a.leaves before),
    along_congr fun before a => reports_iff (a.leaves before)⟩

section Retry

/-- The export of a report. -/
def reportExport : Archive where
  exports := Table.empty.insert
    { attributes :=
        { id := 0, name := "alm_combined_stats_report", files := ["report.zip"]
          publicationDate := "2015-05-01", title := "Cumulative Report", description := "Report"
          creators := [some "Lagotto"], keywords := zenodoKeywords
          codeRepositoryUrl := "https://github.com/lagotto/lagotto" }
      createdAt := 0 }

/-- An attempt in which some calls raise. -/
def reportAttempt (now : Time) (faults : ZenodoCall → Option Bool) : ZenodoAttempt 1 where
  env :=
    { now := now, files := fun _ => true
      deposition := fun id => { id := id, recordUrl := none, doi := none }
      scan := fun rows => rows, scan_perm := fun _ => .refl _, faults := faults }
  archive := reportExport
  found := rfl

def noServer : ZenodoCall → Option Bool
  | .createDeposition _ => some false
  | _ => none

/-- A failed attempt, and one that completes the export: it is reported as
failed. -/
theorem retried_export_failed :
    (reportAttempt 2 (fun _ => none)).outcome ((reportAttempt 1 noServer).step {}) = .completed ∧
      (StateMachine.run ZenodoAttempt.step
        [reportAttempt 1 noServer, reportAttempt 2 (fun _ => none)] {}).state = .failed ∧
      ¬ Along ZenodoAttempt.step (fun before a => Reports (a.step before) (a.outcome before))
        [reportAttempt 1 noServer, reportAttempt 2 (fun _ => none)] {} := by
  have houtcome : (reportAttempt 2 (fun _ => none)).outcome ((reportAttempt 1 noServer).step {}) =
      .completed := rfl
  have hstate : (StateMachine.run ZenodoAttempt.step
      [reportAttempt 1 noServer, reportAttempt 2 (fun _ => none)] {}).state = .failed := rfl
  refine ⟨houtcome, hstate, fun h => ?_⟩
  have hraised := h.2.1.1.mp hstate
  rw [houtcome] at hraised
  cases hraised

end Retry

end Lagotto.Export
