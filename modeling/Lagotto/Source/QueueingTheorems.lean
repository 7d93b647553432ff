/-
Lagotto.Source.QueueingTheorems — what queueing selects and marks.

Without the option `:all` the ids `queue_all_works` selects are distinct ids
of retrieval statuses that are not queued (`unqueued_of_worksToQueue`). The
slices of a call make up the list it was given, or there are none.
-/
import Lagotto.Source.Queueing
import Lagotto.Source.StatableTheorems

namespace Lagotto

open Interaction
open Relational

namespace Source

/-- The rows `queue_all_works` selects, in its order, are rows of the table. -/
theorem worksToQueue_perm (s : Source) (options : QueueOptions) (now : Time) (db : Db) :
    (s.worksToQueue options now db).Perm
      ((db.retrievalStatuses.rows.filter (s.selects options now db)).map (·.id)) := by
  unfold worksToQueue
  refine List.Perm.map _ ?_
  split
  · exact .refl _
  · exact List.perm_insertionSort _ _

theorem nodup_worksToQueue (s : Source) (options : QueueOptions) (now : Time) (db : Db) :
    (s.worksToQueue options now db).Nodup := by
  refine (worksToQueue_perm s options now db).nodup_iff.mpr ?_
  exact db.retrievalStatuses.ids_nodup.sublist (List.filter_sublist.map _)

/-- Without `:all`, the ids are those of rows that are not queued. -/
theorem unqueued_of_worksToQueue {s : Source} {options : QueueOptions} {now : Time} {db : Db}
    (hall : options.all = false) {id : Nat} (h : id ∈ s.worksToQueue options now db) :
    ∃ r ∈ db.retrievalStatuses.rows, r.id = id ∧ r.Unqueued := by
  obtain ⟨r, hr, rfl⟩ := List.mem_map.mp ((worksToQueue_perm s options now db).mem_iff.mp h)
  obtain ⟨hrow, hselects⟩ := List.mem_filter.mp hr
  refine ⟨r, hrow, rfl, ?_⟩
  unfold selects at hselects
  rw [Bool.and_eq_true] at hselects
  have hwork := hselects.2
  split at hwork
  next => cases hwork
  next =>
    rw [hall, Bool.false_or, Bool.and_eq_true] at hwork
    have hstale := hwork.2
    rw [RetrievalStatus.stale, Bool.and_eq_true] at hstale
    exact Option.isNone_iff_eq_none.mp hstale.1

/-- The only event of a queueing call is `wait`, which unqueues nothing. -/
theorem fireEvent_wait_frame (validCron : String → Bool) (s : Source) (w : World) :
    Db.Frame (fun _ => False) RetrievalStatus.Unqueued w.db
      (s.fireEvent validCron .wait w).2.2.db := by
  have hevent := s.fireEvent_frame validCron .wait w
  have hstays : Event.entersInactive .wait s.state = false := by
    cases s.state <;> rfl
  refine hevent.mono ?_ (fun _ hr => hr.1)
  rintro r ⟨_, h | h⟩
  · cases h
  · rw [hstays] at h
    cases h

/-- **What comes before the loop of a queueing call.** -/
theorem toSlices_cases (validCron : String → Bool) (s : Source) (rsIds : List Nat) (w : World) :
    ∃ result s' w', s.toSlices validCron rsIds w = (result, s', w') ∧ s'.id = s.id ∧
      Db.Frame (fun _ => False) RetrievalStatus.Unqueued w.db w'.db ∧
      ∀ slices, result = .ok slices → slices = [] ∨ slices.flatten = rsIds := by
  have hid := s.id_fireEvent validCron .wait w
  have hwait := s.fireEvent_wait_frame validCron w
  unfold toSlices
  rcases hfire : s.fireEvent validCron .wait w with ⟨ok, s', w'⟩
  rw [hfire] at hid hwait
  split_ifs with hactive hempty hsize
  · refine ⟨_, _, _, rfl, rfl, .refl _, fun slices h => Or.inl ?_⟩
    exact (Except.ok.inj h).symm
  · refine ⟨_, _, _, rfl, hid, hwait, fun slices h => Or.inl ?_⟩
    exact (Except.ok.inj h).symm
  · exact ⟨_, _, _, rfl, rfl, .refl _, fun slices h => by cases h⟩
  · refine ⟨_, _, _, rfl, rfl, .refl _, fun slices h => Or.inr ?_⟩
    rw [← Except.ok.inj h]
    exact Batch.flatten_eachSlice (by omega) rsIds

/-! ## Marks -/

/-- A slice marks its own rows. -/
theorem mem_queueSlice {s : Source} {now : Time} {rsIds : List Nat} {db : Db}
    {r : RetrievalStatus} (h : r ∈ (s.queueSlice now rsIds db).retrievalStatuses.rows) :
    (r.id ∈ rsIds ∧ r.queuedAt = some now) ∨
      (r.id ∉ rsIds ∧ r ∈ db.retrievalStatuses.rows) := by
  obtain ⟨old, hold, rfl⟩ := List.mem_map.mp h
  unfold Table.updateRow
  split
  next hin => exact Or.inl ⟨List.contains_iff_mem.mp hin, rfl⟩
  next hout => exact Or.inr ⟨fun hin => hout (List.contains_iff_mem.mpr hin), hold⟩

theorem sourceJobs_queueSlice (s : Source) (now : Time) (rsIds : List Nat) (db : Db) :
    (s.queueSlice now rsIds db).sourceJobs = db.sourceJobs ++ [(rsIds, s.id)] := by
  simp [Db.sourceJobs, queueSlice, Job.sourceArguments]

theorem importSlice_frame (rsIds : List Nat) (db : Db) :
    Db.Frame (fun _ => False) RetrievalStatus.Unqueued db (importSlice rsIds db) := by
  refine ⟨.refl _, ?_, fun _ => rfl⟩
  simp [Db.sourceJobs, importSlice, Job.sourceArguments]

theorem resetQueue_frame (s : Source) (db : Db) :
    Db.Frame (fun r => r.sourceId = s.id) RetrievalStatus.Unqueued db (s.resetQueue db) := by
  have h := Table.touches_updateAll RetrievalStatus.Unqueued db.retrievalStatuses
    (fun r => r.sourceId == s.id && r.queuedAt.isSome) (fun r => { r with queuedAt := none })
    (fun _ _ => rfl)
  refine Db.frame_of_touches (h.mono (fun r hr => ?_) (fun _ hr => hr)) rfl rfl
  exact beq_iff_eq.mp (Bool.and_eq_true_iff.mp hr).1

end Source

end Lagotto
