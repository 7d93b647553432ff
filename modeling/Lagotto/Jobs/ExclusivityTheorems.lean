/-
Lagotto.Jobs.ExclusivityTheorems — when a retrieval status is in one job only.

The mark `queued_at` is what is meant to keep a retrieval status from being
queued while a job for it is unfinished. It does so as long as nobody queues
without looking at it (the option `:all`, a list of ids of one's own), two
queueing calls do not overlap, nobody removes the marks of a whole source
while a job for it is unfinished, and nobody queues what a running job has
already been through. `LetsJobsFinish` says this of an action in the state it is
taken in. `Exclusive` is the invariant of such runs: what unfinished jobs
have still to do is marked, and what is about to be queued is not.
-/
import Lagotto.Jobs.ApplicationTheorems

namespace Lagotto

open Relational
open StateMachine

namespace Application

open SourceJob

variable {validCron : String → Bool}

/-! ## Actions that let jobs finish -/

/-- The ids a call has yet to queue. -/
def Call.pending (c : Call) : List Nat := if c.imports then [] else c.slices.flatten

namespace App

/-- The ids of all unfinished jobs. -/
def held (a : App) : List Nat := a.unfinished.flatten

/-- Those among them that have not been worked on. -/
def awaited (a : App) : List Nat :=
  (a.db.sourceJobs.map (·.1)).flatten ++ (a.running.map (·.todo)).flatten

def pending (a : App) : List Nat := a.calls.flatMap (·.pending)

/-- No other call is about to queue the id, and no running job has been through
it. -/
def Untaken (a : App) (id : Nat) : Prop := id ∉ a.pending ∧ ∀ j ∈ a.running, id ∉ j.done

/-- The id is that of a retrieval status which is not queued. -/
def Unqueued (a : App) (id : Nat) : Prop :=
  ∃ r ∈ a.db.retrievalStatuses.rows, r.id = id ∧ r.Unqueued

/-- None of the ids belongs to the source. -/
def Quiet (a : App) (sourceId : Nat) (ids : List Nat) : Prop :=
  ∀ r ∈ a.db.retrievalStatuses.rows, r.sourceId = sourceId → r.id ∉ ids

/-- The application without one of its running jobs. -/
def without (a : App) (n : Nat) : App := { a with running := a.running.eraseIdx n }

/-- What keeps an action from getting in the way of unfinished jobs. -/
def LetsJobsFinish (a : App) : Action → Prop
  | .queueAllWorks sourceId options x => options.all = false ∧
    ∀ s, a.db.findSource sourceId = some s →
      ∀ id ∈ s.worksToQueue options ⌊x.now⌋ a.db, a.Untaken id
  | .queueWorkJobs _ rsIds _ => rsIds.Nodup ∧ ∀ id ∈ rsIds, a.Unqueued id ∧ a.Untaken id
  | .importFromCouchdb .. | .queueImportJobs .. | .slice .. | .start _ => True
  | .reset sourceId => a.Quiet sourceId a.held
  | .admin sourceId event _ => ∀ s, a.db.findSource sourceId = some s →
    event.event.entersInactive s.state = true → a.Quiet sourceId a.held
  | .job n _ _ => ∀ j, a.running[n]? = some j → j.source.state = .inactive →
    a.Quiet j.source.id (a.without n).held

end App

/-! ## The invariant -/

structure Exclusive (a : App) : Prop where
  nodup : (a.held ++ a.pending).Nodup
  bounded : ∀ id ∈ a.held ++ a.pending, id < a.db.retrievalStatuses.nextId
  awaited : ∀ r ∈ a.db.retrievalStatuses.rows, r.id ∈ a.awaited → ¬ r.Unqueued
  pending : ∀ r ∈ a.db.retrievalStatuses.rows, r.id ∈ a.pending → r.Unqueued

/-- An id is held by what waits or by a job that is through with it. -/
theorem mem_held {a : App} {id : Nat} :
    id ∈ a.held ↔ id ∈ a.awaited ∨ ∃ j ∈ a.running, id ∈ j.done := by
  simp only [App.held, App.awaited, App.unfinished, Running.rsIds, List.flatten_append,
    List.mem_append, List.mem_flatten, List.mem_map]
  constructor
  · rintro (h | ⟨_, ⟨j, hj, rfl⟩, hid⟩)
    · exact Or.inl (Or.inl h)
    · rcases List.mem_append.mp hid with hdone | htodo
      · exact Or.inr ⟨j, hj, hdone⟩
      · exact Or.inl (Or.inr ⟨_, ⟨j, hj, rfl⟩, htodo⟩)
  · rintro ((h | ⟨_, ⟨j, hj, rfl⟩, hid⟩) | ⟨j, hj, hid⟩)
    · exact Or.inl h
    · exact Or.inr ⟨_, ⟨j, hj, rfl⟩, List.mem_append_right _ hid⟩
    · exact Or.inr ⟨_, ⟨j, hj, rfl⟩, List.mem_append_left _ hid⟩

theorem nodup_of_subperm {l l' : List Nat} (h : l.Subperm l') (hnodup : l'.Nodup) : l.Nodup := by
  obtain ⟨l₁, hperm, hsub⟩ := h
  exact hperm.nodup_iff.mp (hnodup.sublist hsub)

namespace Exclusive

variable {a a' : App} {n : Nat} {c : Call} {j : Running} {db' : Db}

/-- An idle application has nothing twice. -/
theorem idle (h : a.Idle) : Exclusive a := by
  have hheld : a.held = [] := by simp [App.held, App.unfinished, h.jobs, h.running]
  have hawaited : a.awaited = [] := by simp [App.awaited, h.jobs, h.running]
  have hpending : a.pending = [] := by simp [App.pending, h.calls]
  constructor
  · simp [hheld, hpending]
  · simp [hheld, hpending]
  · simp [hawaited]
  · simp [hpending]

/-- What unqueues nothing that is awaited keeps the invariant, if no job and no
id to queue is added. A retrieval status that is awaited may be deleted. -/
theorem transfer (h : Exclusive a) {touched written : RetrievalStatus → Prop}
    (htouches : Table.Touches touched written a.db.retrievalStatuses a'.db.retrievalStatuses)
    (hwritten : ∀ r, written r → r.Unqueued)
    (hheld : a'.held.Subperm a.held) (hpending : a'.pending.Perm a.pending)
    (hawaited : ∀ id ∈ a'.awaited, id ∈ a.awaited ∧
      ∀ r ∈ a.db.retrievalStatuses.rows, r.id = id → touched r → ∀ r', ¬ written r') :
    Exclusive a' := by
  have hall : (a'.held ++ a'.pending).Subperm (a.held ++ a.pending) :=
    (hpending.append_left _).subperm.trans ((List.subperm_append_right _).mpr hheld)
  refine ⟨nodup_of_subperm hall h.nodup, ?_, ?_, ?_⟩
  · intro id hid
    exact Nat.lt_of_lt_of_le (h.bounded id (hall.subset hid)) htouches.nextId
  · intro r hr hid
    obtain ⟨hold, huntouched⟩ := hawaited r.id hid
    rcases htouches.origin r hr with hrow | ⟨hw, hnew | ⟨r', hr', hid', htouched⟩⟩
    · exact h.awaited r hrow hold
    · have hlt := h.bounded r.id (List.mem_append_left _ (mem_held.mpr (Or.inl hold)))
      exact absurd hnew (Nat.not_le_of_lt hlt)
    · exact absurd hw (huntouched r' hr' hid' htouched r)
  · intro r hr hid
    rcases htouches.origin r hr with hrow | ⟨hw, _⟩
    · exact h.pending r hrow (hpending.mem_iff.mp hid)
    · exact hwritten r hw

theorem of_frame (h : Exclusive a) {touched written : RetrievalStatus → Prop}
    (hframe : Db.Frame touched written a.db db') (hwritten : ∀ r, written r → r.Unqueued)
    (huntouched : ∀ r ∈ a.db.retrievalStatuses.rows, r.id ∈ a.held → touched r →
      ∀ r', ¬ written r') :
    Exclusive { a with db := db' } := by
  refine h.transfer hframe.statuses hwritten ?_ (.refl _) ?_
  · simp only [App.held, App.unfinished, hframe.jobs]
    exact List.Subperm.refl _
  · intro id hid
    have hold : id ∈ a.awaited := by
      simpa only [App.awaited, hframe.jobs] using hid
    refine ⟨hold, ?_⟩
    rintro r hr rfl
    exact huntouched r hr (mem_held.mpr (Or.inl hold))

/-- A call may begin with ids that are neither queued nor taken. -/
theorem addCall (h : Exclusive a) (hnodup : c.pending.Nodup)
    (hfree : ∀ id ∈ c.pending, a.Unqueued id ∧ a.Untaken id) :
    Exclusive { a with calls := a.calls ++ [c] } := by
  have hpending : ({ a with calls := a.calls ++ [c] } : App).pending = a.pending ++ c.pending := by
    simp [App.pending]
  have hheld : ∀ id ∈ c.pending, id ∉ a.held := by
    intro id hid hin
    obtain ⟨⟨r, hr, rfl, hunqueued⟩, _, hdone⟩ := hfree id hid
    rcases mem_held.mp hin with hawaited | ⟨j, hj, hin'⟩
    · exact h.awaited r hr hawaited hunqueued
    · exact hdone j hj hin'
  constructor
  · rw [hpending, ← List.append_assoc, List.nodup_append]
    refine ⟨h.nodup, hnodup, ?_⟩
    rintro id hid _ hid' rfl
    rcases List.mem_append.mp hid with hin | hin
    · exact hheld id hid' hin
    · exact (hfree id hid').2.1 hin
  · rw [hpending, ← List.append_assoc]
    intro id hid
    rcases List.mem_append.mp hid with hold | hnew
    · exact h.bounded id hold
    · obtain ⟨⟨r, hr, rfl, _⟩, _⟩ := hfree id hnew
      exact a.db.retrievalStatuses.bounded r hr
  · exact h.awaited
  · rw [hpending]
    intro r hr hid
    rcases List.mem_append.mp hid with hold | hnew
    · exact h.pending r hr hold
    · obtain ⟨⟨r', hr', hid', hunqueued⟩, _⟩ := hfree r.id hnew
      rw [← a.db.retrievalStatuses.eq_of_id_eq hr' hr hid']
      exact hunqueued

/-- A call for free rows has none twice. -/
theorem beginCall (h : Exclusive a) (imports : Bool) (x : Weather) (s : Source) {rsIds : List Nat}
    (hnodup : imports = false → rsIds.Nodup)
    (hfree : imports = false → ∀ id ∈ rsIds, a.Unqueued id ∧ a.Untaken id) :
    Exclusive (a.beginCall validCron imports x s rsIds) := by
  obtain ⟨db', hframe, hbegin⟩ := App.beginCall_cases validCron imports x a s rsIds
  have h' : Exclusive { a with db := db' } :=
    h.of_frame hframe (fun _ hr => hr) (fun _ _ _ => False.elim)
  rcases hbegin with hbegin | ⟨c, himports, _, hslices, hbegin⟩
  · rw [hbegin]
    exact h'
  · rw [hbegin]
    have hcall : c.pending = [] ∨ (imports = false ∧ c.pending = rsIds) := by
      unfold Call.pending
      rw [himports]
      cases imports with
      | true => exact Or.inl rfl
      | false =>
        rcases hslices with hnil | hflatten
        · exact Or.inl (by simp [hnil])
        · exact Or.inr ⟨rfl, by simp [hflatten]⟩
    rcases hcall with hnil | ⟨hwork, hids⟩
    · exact h'.addCall (c := c) (by simp [hnil]) (by simp [hnil])
    · refine h'.addCall (c := c) (hids ▸ hnodup hwork) ?_
      rw [hids]
      intro id hid
      obtain ⟨⟨r, hr, hrid, hunqueued⟩, huntaken⟩ := hfree hwork id hid
      exact ⟨⟨r, hframe.statuses.kept r hr not_false, hrid, hunqueued⟩, huntaken⟩

/-- The call whose turn it is, and the others. -/
theorem pending_perm (c' : Call) (hc : a.calls[n]? = some c) :
    ∃ others : List Nat, a.pending.Perm (c.pending ++ others) ∧
      ((a.calls.set n c').flatMap (·.pending)).Perm (c'.pending ++ others) := by
  obtain ⟨hlt, hget⟩ := List.getElem?_eq_some_iff.mp hc
  refine ⟨(a.calls.eraseIdx n).flatMap (·.pending), ?_, ?_⟩
  · have hperm := (List.getElem_cons_eraseIdx_perm hlt).symm.flatMap_right (·.pending)
    rw [hget, List.flatMap_cons] at hperm
    exact hperm
  · have hperm := (List.set_perm_cons_eraseIdx hlt c').flatMap_right (·.pending)
    rw [List.flatMap_cons] at hperm
    exact hperm

/-- A slice moves from the call to a job, and is marked. -/
theorem queueSlice (h : Exclusive a) {now : Time} {rsIds : List Nat} {rest : List (List Nat)}
    (hc : a.calls[n]? = some c) (hwork : c.imports = false) (hslices : c.slices = rsIds :: rest) :
    Exclusive { a with
      db := c.source.queueSlice now rsIds a.db
      calls := a.calls.set n { c with slices := rest } } := by
  obtain ⟨others, hbefore, hafter⟩ := pending_perm { c with slices := rest } hc
  have hpending : c.pending = rsIds ++ ({ c with slices := rest } : Call).pending := by
    simp [Call.pending, hwork, hslices]
  rw [hpending, List.append_assoc] at hbefore
  have hheld : ({ a with db := c.source.queueSlice now rsIds a.db
                         calls := a.calls.set n { c with slices := rest } } : App).held.Perm
      (rsIds ++ a.held) := by
    simp only [App.held, App.unfinished, Source.sourceJobs_queueSlice, List.map_append,
      List.map_cons, List.map_nil, List.flatten_append, List.flatten_cons, List.flatten_nil,
      List.append_nil, List.append_assoc]
    exact (List.perm_append_comm_assoc ..)
  have hall := (hheld.append hafter).trans
    ((List.append_assoc ..) ▸ List.perm_append_comm_assoc rsIds a.held _)
  have hsame := hall.trans (hbefore.symm.append_left a.held)
  have hdisjoint : ∀ id ∈ ({ c with slices := rest } : Call).pending ++ others, id ∉ rsIds := by
    have hnodup := (hbefore.append_left a.held).nodup_iff.mp h.nodup
    have hright := (List.nodup_append.mp hnodup).2.1
    intro id hid hin
    exact (List.nodup_append.mp hright).2.2 id hin id hid rfl
  constructor
  · exact hsame.nodup_iff.mpr h.nodup
  · intro id hid
    exact h.bounded id (hsame.mem_iff.mp hid)
  · intro r hr hid hunqueued
    rcases Source.mem_queueSlice hr with ⟨_, hmarked⟩ | ⟨hout, hold⟩
    · rw [RetrievalStatus.Unqueued, hmarked] at hunqueued
      cases hunqueued
    · refine h.awaited r hold ?_ hunqueued
      simp only [App.awaited, Source.sourceJobs_queueSlice, List.map_append, List.map_cons,
        List.map_nil, List.flatten_append, List.flatten_cons, List.flatten_nil, List.append_nil,
        List.mem_append] at hid ⊢
      tauto
  · intro r hr hid
    have hid' := hafter.mem_iff.mp hid
    rcases Source.mem_queueSlice hr with ⟨hin, _⟩ | ⟨_, hold⟩
    · exact absurd hin (hdisjoint r.id hid')
    · exact h.pending r hold (hbefore.mem_iff.mpr (List.mem_append_right _ hid'))

/-- A slice of an import leaves the queue of this application alone. -/
theorem importSlice (h : Exclusive a) (rsIds : List Nat) (rest : List (List Nat))
    (hc : a.calls[n]? = some c) (himports : c.imports = true) :
    Exclusive { a with
      db := Source.importSlice rsIds a.db
      calls := a.calls.set n { c with slices := rest } } := by
  have hframe := Source.importSlice_frame rsIds a.db
  obtain ⟨others, hbefore, hafter⟩ := pending_perm { c with slices := rest } hc
  have hnil : ∀ slices, ({ c with slices := slices } : Call).pending = [] := by
    simp [Call.pending, himports]
  rw [hnil c.slices] at hbefore
  rw [hnil rest] at hafter
  refine h.transfer hframe.statuses (fun _ hr => hr) ?_ (hafter.trans hbefore.symm)
    (fun id hid => ⟨?_, fun _ _ _ => False.elim⟩)
  · simp only [App.held, App.unfinished, hframe.jobs]
    exact .refl _
  · simpa only [App.awaited, hframe.jobs] using hid

theorem slice (h : Exclusive a) (n : Nat) (now : Time) : Exclusive (a.slice n now) := by
  rcases App.slice_cases n now a with hslice | ⟨c, rsIds, rest, hc, hslices, hslice⟩
  · rw [hslice]
    exact h
  · rw [hslice]
    split
    next himports => exact h.importSlice rsIds rest hc himports
    next hwork => exact h.queueSlice hc (by simpa using hwork) hslices

theorem start (h : Exclusive a) (n : Nat) : Exclusive (a.start n) := by
  rcases App.start_cases n a with hstart | ⟨rsIds, sourceId, db', hperm, hstatuses, hsources, hs⟩
  · rw [hstart]
    exact h
  · have hqueue := (hperm.map (fun job : List Nat × Nat => job.1)).flatten
    rw [List.map_cons, List.flatten_cons] at hqueue
    have htouches : Table.Touches (fun _ => False) RetrievalStatus.Unqueued
        a.db.retrievalStatuses db'.retrievalStatuses := by
      rw [hstatuses]
      exact .refl _
    rcases hs with ⟨hstart, _⟩ | ⟨s, _, hstart⟩
    · -- without its source the job is gone
      rw [hstart]
      refine h.transfer htouches (fun _ hr => hr) ?_ (.refl _)
        (fun id hid => ⟨?_, fun _ _ _ => False.elim⟩)
      · simp only [App.held, App.unfinished, List.flatten_append]
        exact (List.subperm_append_right _).mpr
          ((List.sublist_append_right ..).subperm.trans hqueue.symm.subperm)
      · refine (hqueue.append_right _).mem_iff.mpr ?_
        exact List.append_assoc .. ▸ List.mem_append_right rsIds hid
    · rw [hstart]
      refine h.transfer htouches (fun _ hr => hr) (App.unfinished_start s hperm).flatten.subperm
        (.refl _) (fun id hid => ⟨?_, fun _ _ _ => False.elim⟩)
      refine (hqueue.append_right _).mem_iff.mpr ?_
      simp only [App.awaited, List.map_append, List.map_cons, List.map_nil, List.flatten_append,
        List.flatten_cons, List.flatten_nil, List.append_nil, List.mem_append] at hid ⊢
      tauto

/-- What a running job has to do, and the others. -/
theorem awaited_perm (hj : a.running[n]? = some j) (hjobs : db'.sourceJobs = a.db.sourceJobs) :
    a.awaited.Perm (j.todo ++ ({ a.without n with db := db' } : App).awaited) ∧
      ∀ j' : Running, ({ a with db := db', running := a.running.set n j' } : App).awaited.Perm
        (j'.todo ++ ({ a.without n with db := db' } : App).awaited) := by
  obtain ⟨hlt, hget⟩ := List.getElem?_eq_some_iff.mp hj
  unfold App.awaited
  simp only [hjobs, App.without]
  constructor
  · have hperm := ((List.getElem_cons_eraseIdx_perm hlt).symm.map (·.todo)).flatten
    rw [hget, List.map_cons, List.flatten_cons] at hperm
    exact (hperm.append_left _).trans (List.perm_append_comm_assoc ..)
  · intro j'
    have hperm := ((List.set_perm_cons_eraseIdx hlt j').map (·.todo)).flatten
    rw [List.map_cons, List.flatten_cons] at hperm
    exact (hperm.append_left _).trans (List.perm_append_comm_assoc ..)

/-- No other job holds an id of this one. -/
theorem not_mem_without (h : Exclusive a) (hj : a.running[n]? = some j) {id : Nat}
    (hid : id ∈ j.rsIds) : id ∉ (a.without n).held := by
  have hperm := (App.unfinished_eraseIdx hj (rfl : a.db.sourceJobs = a.db.sourceJobs)).flatten
  have hnodup := hperm.nodup_iff.mp (List.nodup_append.mp h.nodup).1
  rw [List.flatten_cons] at hnodup
  exact fun hin => (List.nodup_append.mp hnodup).2.2 id hid id hin rfl

/-- A job is not given an id twice. -/
theorem not_mem_todo (h : Exclusive a) (hj : a.running[n]? = some j) {rsId : Nat} {rest : List Nat}
    (htodo : j.todo = rsId :: rest) : rsId ∉ rest := by
  have hnodup : j.rsIds.Nodup := by
    refine (List.nodup_flatten.mp (List.nodup_append.mp h.nodup).1).1 j.rsIds ?_
    exact List.mem_append_right _ (List.mem_map_of_mem (List.mem_of_getElem? hj))
  rw [Running.rsIds, htodo] at hnodup
  exact (List.nodup_cons.mp (List.nodup_append.mp hnodup).2.1).1

/-- A job ends. What it unqueues is its own. -/
theorem jobEnds (h : Exclusive a) (hj : a.running[n]? = some j) (hends : j.Ends a.db db')
    (hfinish : j.source.state = .inactive → ∀ r ∈ a.db.retrievalStatuses.rows,
      r.sourceId = j.source.id → r.id ∉ (a.without n).held) :
    Exclusive { a with db := db', running := a.running.eraseIdx n } := by
  have hheld := (App.unfinished_eraseIdx hj hends.frame.jobs).flatten
  rw [List.flatten_cons] at hheld
  have hawaited := (awaited_perm hj hends.frame.jobs).1
  refine h.transfer hends.frame.statuses (fun _ hr => hr) ?_ (.refl _) (fun id hid => ⟨?_, ?_⟩)
  · exact (List.sublist_append_right ..).subperm.trans hheld.symm.subperm
  · exact hawaited.mem_iff.mpr (List.mem_append_right _ hid)
  · have hother : id ∈ (a.without n).held := by
      refine mem_held.mpr (Or.inl ?_)
      simpa only [App.awaited, App.without, hends.frame.jobs] using hid
    rintro r hr rfl (hin | ⟨hinactive, hsource⟩)
    · exact absurd hother (h.not_mem_without hj hin)
    · exact absurd hother (hfinish hinactive r hr hsource)

/-- A job goes on. The id it has worked on does not come again, in this job or
another. -/
theorem jobGoesOn (h : Exclusive a) {j j' : Running} (hj : a.running[n]? = some j)
    (hgoes : j.GoesOn j' a.db db') :
    Exclusive { a with db := db', running := a.running.set n j' } := by
  rcases hgoes.progress with ⟨htodo, hframe⟩ | ⟨rsId, htodo, hframe⟩
  · have hheld := App.unfinished_set hj hgoes.rsIds hframe.jobs
    obtain ⟨hbefore, hafter⟩ := awaited_perm hj hframe.jobs
    refine h.transfer hframe.statuses (fun _ hr => hr)
      (by rw [App.held, hheld]; exact .refl _) (.refl _)
      (fun id hid => ⟨hbefore.mem_iff.mpr ?_, fun _ _ _ => False.elim⟩)
    rw [← htodo]
    exact (hafter j').mem_iff.mp hid
  · have hheld := App.unfinished_set hj hgoes.rsIds hframe.jobs
    obtain ⟨hbefore, hafter⟩ := awaited_perm hj hframe.jobs
    refine h.transfer hframe.statuses (fun _ hr => hr)
      (by rw [App.held, hheld]; exact .refl _) (.refl _) (fun id hid => ?_)
    have hid' := (hafter j').mem_iff.mp hid
    refine ⟨hbefore.mem_iff.mpr ?_, ?_⟩
    · rw [htodo]
      exact List.mem_cons_of_mem _ hid'
    · rintro r _ hrid hrsId
      rw [hrid] at hrsId
      subst hrsId
      rcases List.mem_append.mp hid' with hagain | hother
      · exact absurd hagain (h.not_mem_todo hj htodo)
      · have hin : id ∈ j.rsIds := by simp [Running.rsIds, htodo]
        refine absurd (mem_held.mpr (Or.inl ?_)) (h.not_mem_without hj hin)
        simpa only [App.awaited, App.without, hframe.jobs] using hother

theorem job (h : Exclusive a) (n : Nat) (x : Weather) (occasion : Occasion)
    (hfinish : a.LetsJobsFinish (.job n x occasion)) :
    Exclusive (a.job validCron n x occasion) := by
  rcases App.job_cases validCron n x occasion a with hjob | ⟨j, hj, ⟨db', hends, hjob⟩ |
    ⟨j', db', hgoes, hjob⟩⟩
  · rw [hjob]
    exact h
  · rw [hjob]
    exact h.jobEnds hj hends (hfinish j hj)
  · rw [hjob]
    exact h.jobGoesOn hj hgoes

/-- **Actions that let jobs finish keep the invariant.** -/
theorem step (h : Exclusive a) (action : Action) (hfinish : a.LetsJobsFinish action) :
    Exclusive (a.step validCron action) := by
  cases action with
  | queueAllWorks sourceId options x =>
    refine App.withSource_induction h (fun s hs => h.beginCall false x s ?_ ?_)
    · exact fun _ => s.nodup_worksToQueue ..
    · exact fun _ id hid =>
        ⟨Source.unqueued_of_worksToQueue hfinish.1 hid, hfinish.2 s hs id hid⟩
  | queueWorkJobs sourceId rsIds x =>
    exact App.withSource_induction h (fun s _ =>
      h.beginCall false x s (fun _ => hfinish.1) (fun _ => hfinish.2))
  | importFromCouchdb sourceId x =>
    exact App.withSource_induction h (fun s _ => h.beginCall true x s nofun nofun)
  | queueImportJobs sourceId rsIds x =>
    exact App.withSource_induction h (fun s _ => h.beginCall true x s nofun nofun)
  | slice n now => exact h.slice n now
  | reset sourceId =>
    refine App.withSource_induction h (fun s hs => ?_)
    split
    · refine h.of_frame (s.resetQueue_frame a.db) (fun _ hr => hr) (fun r hr hheld hsource => ?_)
      rw [id_findSource hs] at hsource
      exact absurd hheld (hfinish r hr hsource)
    · exact h
  | admin sourceId event x =>
    refine App.withSource_induction h (fun s hs => ?_)
    have hframe := s.fireEvent_frame validCron event.event (x.world a.db)
    refine h.of_frame hframe (fun _ hr => hr.1) ?_
    rintro r hr hheld ⟨hsource, _⟩ r' ⟨_, henters⟩
    rw [id_findSource hs] at hsource
    exact hfinish s hs henters r hr hsource hheld
  | start n => exact h.start n
  | job n x occasion => exact h.job n x occasion hfinish

end Exclusive

/-! ## Runs that let jobs finish -/

/-- A retrieval status that is marked as queued is not queued again, and a job
that ends leaves the marks of other jobs alone. -/
def App.Respects (validCron : String → Bool) (a : App) : Action → Prop
  | .slice n _ => ∀ c rsIds rest, a.calls[n]? = some c → c.imports = false →
    c.slices = rsIds :: rest →
      ∀ r ∈ a.db.retrievalStatuses.rows, r.id ∈ rsIds → r.queuedAt = none
  | .job n x occasion => ∀ j, a.running[n]? = some j →
    (j.step validCron x occasion a.db).1 = none →
      ∀ r ∈ a.db.retrievalStatuses.rows, r.queuedAt ≠ none → r.id ∈ (a.without n).held →
        r ∈ (a.job validCron n x occasion).db.retrievalStatuses.rows
  | _ => True

/-- In an exclusive application no step disturbs another job. -/
theorem Exclusive.respects {a : App} (h : Exclusive a) (action : Action)
    (hfinish : a.LetsJobsFinish action) : a.Respects validCron action := by
  cases action with
  | slice n now =>
    intro c rsIds rest hc hwork hslices r hr hid
    refine h.pending r hr (List.mem_flatMap.mpr ⟨c, List.mem_of_getElem? hc, ?_⟩)
    simp [Call.pending, hwork, hslices, hid]
  | job n x occasion =>
    intro j hj hended r hr _ hother
    rcases j.step_cases validCron x occasion a.db with ⟨db', hstep, hends⟩ | ⟨j', db', hstep, _⟩
    · have hjob : (a.job validCron n x occasion).db = db' := by simp [App.job, hj, hstep]
      rw [hjob]
      refine hends.frame.statuses.kept r hr ?_
      rintro (hin | ⟨hinactive, hsource⟩)
      · exact h.not_mem_without hj hin hother
      · exact hfinish j hj hinactive r hr hsource hother
    · rw [hstep] at hended
      cases hended
  | _ => trivial

/-- **Jobs are kept apart.** From an idle application on, as long as
every action lets jobs finish, no two unfinished jobs share a retrieval status,
nothing that is marked is queued again, and no job that ends removes another
one's mark. -/
theorem jobs_exclusive (validCron : String → Bool) (actions : List Action) (a : App)
    (hidle : a.Idle) (hfinish : Along (App.step validCron) App.LetsJobsFinish actions a) :
    (a.run validCron actions).unfinished.Pairwise List.Disjoint ∧
      Along (App.step validCron) (App.Respects validCron) actions a := by
  have hstep : ∀ a action, Exclusive a → a.LetsJobsFinish action →
      Exclusive (App.step validCron action a) := fun a action h hc => h.step action hc
  constructor
  · have h : Exclusive (a.run validCron actions) :=
      invariant_along hstep (Exclusive.idle hidle) hfinish
    exact (List.nodup_flatten.mp (List.nodup_append.mp h.nodup).1).2
  · exact along_of_invariant hstep (fun a action h hc => h.respects action hc)
      (Exclusive.idle hidle) hfinish

theorem untaken_of_quiet {a : App} (hpending : a.pending = []) (hrunning : a.running = [])
    (id : Nat) : a.Untaken id := by
  simp [App.Untaken, hpending, hrunning]

/-- Queueing what is due, and again an hour later. -/
theorem due_twice_exclusive :
    (shelf.run (fun _ => true) [.queueAllWorks 1 {} juneFirst, .slice 0 1433116800,
        .queueAllWorks 1 {} { juneFirst with now := 1433120400 }]).unfinished = [[1, 2]] ∧
      (shelf.run (fun _ => true) [.queueAllWorks 1 {} juneFirst, .slice 0 1433116800,
        .queueAllWorks 1 {} { juneFirst with now := 1433120400 }]).unfinished.Pairwise
          List.Disjoint := by
  refine ⟨by decide +kernel, (jobs_exclusive (fun _ => true) _ shelf idle_shelf ?_).1⟩
  refine ⟨⟨rfl, fun _ _ id _ => untaken_of_quiet rfl rfl id⟩, trivial,
    ⟨rfl, fun _ _ id _ => untaken_of_quiet ?_ ?_ id⟩, trivial⟩
  · decide +kernel
  · exact List.length_eq_zero_iff.mp (by decide +kernel)

/-- Queueing with `:all` twice puts both retrieval statuses into two jobs. -/
theorem all_twice_shares :
    ¬ (shelf.run (fun _ => true) [.queueAllWorks 1 { all := true } juneFirst, .slice 0 1433116800,
        .queueAllWorks 1 { all := true } juneFirst, .slice 1 1433116800]).unfinished.Pairwise
          List.Disjoint := by
  have hjobs : (shelf.run (fun _ => true) [.queueAllWorks 1 { all := true } juneFirst,
      .slice 0 1433116800, .queueAllWorks 1 { all := true } juneFirst,
      .slice 1 1433116800]).unfinished = [[1, 2], [1, 2]] := by
    decide +kernel
  rw [hjobs]
  intro h
  exact (List.pairwise_cons.mp h).1 [1, 2] (List.mem_singleton.mpr rfl)
    (List.mem_cons_self ..) (List.mem_cons_self ..)

end Application

end Lagotto
