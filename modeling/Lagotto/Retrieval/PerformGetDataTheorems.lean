/-
Lagotto.Retrieval.PerformGetDataTheorems — what `perform_get_data` leaves
alone.

No adapter can touch a retrieval status or its months and days: none of its
calls does (`handle_frame`), and neither does `update_works`. So all depends
on what `store` writes, and on whether it is reached (`Reaches`,
`keepsStatus_of_not_reached`).
-/
import Lagotto.Retrieval.PerformGetData
import Lagotto.Retrieval.PeriodsTheorems
import Lagotto.Retrieval.UpdateWorksTheorems

namespace Lagotto

open Interaction
open Relational

/-! ## What the preparation leaves alone -/

/-- All retrieval statuses, months and days, the sources and the queue are as
they were, but for new retrieval statuses, which are not queued. -/
structure StatusFrame (before after : Db) : Prop where
  statuses : Table.Touches (fun _ => False) RetrievalStatus.Unqueued before.retrievalStatuses
    after.retrievalStatuses
  months : after.months = before.months
  days : after.days = before.days
  sources : after.sources = before.sources
  queue : after.queue = before.queue

theorem StatusFrame.refl (db : Db) : StatusFrame db db := ⟨.refl _, rfl, rfl, rfl, rfl⟩

theorem StatusFrame.trans {db₁ db₂ db₃ : Db} (h₁₂ : StatusFrame db₁ db₂)
    (h₂₃ : StatusFrame db₂ db₃) : StatusFrame db₁ db₃ :=
  ⟨h₁₂.statuses.trans h₂₃.statuses, h₂₃.months.trans h₁₂.months, h₂₃.days.trans h₁₂.days,
    h₂₃.sources.trans h₁₂.sources, h₂₃.queue.trans h₁₂.queue⟩

theorem StatusFrame.status {before after : Db} (h : StatusFrame before after) {rs : RetrievalStatus}
    (hrs : rs ∈ before.retrievalStatuses.rows) : rs ∈ after.retrievalStatuses.rows :=
  h.statuses.kept rs hrs not_false

theorem updateAttributes_frame {env : Env} {w : Work} {p : Params} {db db' : Db}
    (h : updateAttributes env w p db = .ok (some db')) :
    StatusFrame db db' := by
  obtain ⟨_, _, rfl⟩ := updateAttributes_some h
  exact ⟨.refl _, rfl, rfl, rfl, rfl⟩

theorem getResult_frame (env : Env) (web : Web) (status : RetrievalStatus) (url : String)
    (s : Session) : StatusFrame s.db (getResult env web status url s).2.db := by
  unfold getResult
  split
  next => exact .refl _
  next =>
    split
    next => exact .refl _
    next =>
      split
      next => exact .refl _
      next => exact ⟨.refl _, rfl, rfl, rfl, rfl⟩

theorem updateWork_frame (env : Env) (w : Work) (p : Params) (s : Session) :
    StatusFrame s.db (updateWork env w p s).2.db := by
  unfold updateWork
  split
  next => exact .refl _
  next saved hsaved =>
    cases saved with
    | none => exact .refl _
    | some db' => exact updateAttributes_frame hsaved

/-- **No call of an adapter touches a retrieval status.** -/
theorem handle_frame (env : Env) (web : Web) (status : RetrievalStatus) (c : Call)
    (s : Session) : StatusFrame s.db (handle env web status c s).2.db := by
  cases c with
  | get url => exact getResult_frame env web status url s
  | alert a => exact ⟨.refl _, rfl, rfl, rfl, rfl⟩
  | update w p => exact updateWork_frame env w p s

theorem createWork_frame {env : Env} {p : Params} {db db' : Db} {id : Nat}
    (h : createWork env p db = .ok (id, db')) : StatusFrame db db' := by
  unfold createWork at h
  split at h
  next => cases h
  next =>
    obtain ⟨_, rfl⟩ := Prod.mk.inj (Except.ok.inj h)
    split
    next => exact ⟨Table.touches_firstOrCreateAll (fun _ _ => rfl) _ _, rfl, rfl, rfl, rfl⟩
    next => exact ⟨.refl _, rfl, rfl, rfl, rfl⟩

theorem findOrCreate_frame (env : Env) (p : Params) (db : Db) :
    StatusFrame db (findOrCreate env p db).2 :=
  findOrCreate_preserves (.refl db) (fun _ _ hcreate => createWork_frame hcreate)
    (fun _ _ _ hsaved => updateAttributes_frame hsaved)
    (fun _ _ h => h.trans ⟨.refl _, rfl, rfl, rfl, rfl⟩) (fun _ => ⟨.refl _, rfl, rfl, rfl, rfl⟩)

namespace Retrieval

variable (env : Env) (web : Web) (moment : Moment) (adapter : Adapter) (r : Retrieval)

/-- What every call of an adapter and every `find_or_create` preserves holds
when the method comes to write. -/
theorem prepared_preserves {P : Db → Prop}
    (hcall : ∀ c s, P s.db → P (handle env web r.rs c s).2.db)
    (hwork : ∀ p db, P db → P (findOrCreate env p db).2) {db : Db} (h : P db) :
    P (r.prepared env web moment adapter db).2 := by
  have hrun : ∀ {α : Type} (program : Fetch α) (s : Session), P s.db →
      P (program.run (handle env web r.rs) s).2.db := fun program s hs =>
    Program.run_preserves (P := fun s : Session => P s.db) hcall program hs
  have hfetched : P (r.fetched env web adapter db).2.db := hrun _ _ h
  have hparsed : P (r.parsed env web moment adapter db).2.db := by
    have htoParse : P (r.toParse env web moment adapter db).2.db := by
      unfold toParse
      rcases hfetch : r.fetched env web adapter db with ⟨_ | data, s⟩
      all_goals rw [hfetch] at hfetched
      · exact hfetched
      · dsimp only
        split_ifs <;> exact hfetched
    unfold parsed
    rcases hparse : r.toParse env web moment adapter db with ⟨_ | _ | data, s⟩
    all_goals rw [hparse] at htoParse
    · exact htoParse
    · exact htoParse
    · have hdata := hrun (adapter.parseData r.source data r.work) s htoParse
      dsimp only
      rcases hresult : (adapter.parseData r.source data r.work).run (handle env web r.rs) s
        with ⟨_ | result, s'⟩
      all_goals
        rw [hresult] at hdata
        exact hdata
  unfold prepared
  rcases hresult : r.parsed env web moment adapter db with ⟨_ | _ | result, s⟩
  all_goals rw [hresult] at hparsed
  · exact hparsed
  · exact hparsed
  · have hworks : P (updateWorks env result.1.works s.db).2 :=
      updateWorks_preserves (fun item _ db h => hwork _ db h) hparsed
    dsimp only
    rcases hupdate : updateWorks env result.1.works s.db with ⟨_ | _, db'⟩
    all_goals
      rw [hupdate] at hworks
      exact hworks

/-- **Up to the point where it writes, the method leaves the status alone.** -/
theorem prepared_frame (db : Db) :
    StatusFrame db (r.prepared env web moment adapter db).2 :=
  r.prepared_preserves env web moment adapter (P := StatusFrame db)
    (fun c s h => h.trans (handle_frame env web r.rs c s))
    (fun p db' h => h.trans (findOrCreate_frame env p db')) (.refl db)

/-! ## What is written -/

/-- The counts, the URL and the extra data of the retrieval status, and its
months and days, are as they were. -/
structure KeepsStatus (rs : RetrievalStatus) (before after : Db) : Prop where
  status : ∃ row ∈ after.retrievalStatuses.rows, row.id = rs.id ∧ row.metrics = rs.metrics ∧
    row.eventsUrl = rs.eventsUrl ∧ row.extra = rs.extra
  months : after.months.rows.filter (fun m => m.retrievalStatusId == rs.id) =
    before.months.rows.filter (fun m => m.retrievalStatusId == rs.id)
  days : after.days.rows.filter (fun d => d.retrievalStatusId == rs.id) =
    before.days.rows.filter (fun d => d.retrievalStatusId == rs.id)

theorem keepsStatus_of_frame {rs : RetrievalStatus} {before after : Db}
    (hrs : rs ∈ before.retrievalStatuses.rows) (h : StatusFrame before after) :
    KeepsStatus rs before after where
  status := ⟨rs, h.status hrs, rfl, rfl, rfl, rfl⟩
  months := by rw [h.months]
  days := by rw [h.days]

@[simp] theorem sources_updateData (staleAt : Time) (events : Events) (work : Work) (db : Db) :
    (r.updateData env moment staleAt events work db).sources = db.sources := by
  unfold updateData
  split <;> rfl

@[simp] theorem queue_updateData (staleAt : Time) (events : Events) (work : Work) (db : Db) :
    (r.updateData env moment staleAt events work db).queue = db.queue := by
  unfold updateData
  split <;> rfl

theorem statuses_updateData (staleAt : Time) (events : Events) (work : Work) (db : Db) :
    Table.Touches (fun row => row.id = r.rs.id) RetrievalStatus.Unqueued db.retrievalStatuses
      (r.updateData env moment staleAt events work db).retrievalStatuses := by
  have hassigned : (r.assigned moment staleAt events).Unqueued := rfl
  unfold updateData
  split
  · exact Table.touches_put db.retrievalStatuses hassigned
  · exact .refl _

/-- Beside months and days `store` writes what `update_data` writes, if it
gets there. -/
theorem store_cases (events : Events) (work : Work) (db : Db) :
    (r.store env moment events work db).2 = db ∨ ∃ staleAt months days,
      (r.store env moment events work db).2 =
        { r.updateData env moment staleAt events work db with months := months, days := days } := by
  unfold store
  split
  next => exact Or.inl rfl
  next staleAt _ =>
    right
    dsimp only
    split
    next => exact ⟨staleAt, _, _, rfl⟩
    next => exact ⟨staleAt, _, _, rfl⟩

/-- The method ends with what it has prepared, or with what is stored on top
of that. -/
theorem performGetData_cases (db : Db) :
    (r.performGetData env web moment adapter db).2 = (r.prepared env web moment adapter db).2 ∨
      ∃ events work, (r.performGetData env web moment adapter db).2 =
        (r.store env moment events work (r.prepared env web moment adapter db).2).2 := by
  unfold performGetData
  split
  next heq => exact Or.inl (by rw [heq])
  next heq => exact Or.inl (by rw [heq])
  next parsed work db' heq => exact Or.inr ⟨parsed.events, work, by rw [heq]⟩

/-- The sources and the queue are as they were, and no retrieval status is
touched but one. -/
structure WriteFrame (rsId : Nat) (before after : Db) : Prop where
  statuses : Table.Touches (fun row => row.id = rsId) RetrievalStatus.Unqueued
    before.retrievalStatuses after.retrievalStatuses
  sources : after.sources = before.sources
  queue : after.queue = before.queue

theorem store_frame (events : Events) (work : Work) (db : Db) :
    WriteFrame r.rs.id db (r.store env moment events work db).2 := by
  rcases r.store_cases env moment events work db with h | ⟨staleAt, months, days, h⟩
  · rw [h]
    exact ⟨.refl _, rfl, rfl⟩
  · rw [h]
    exact ⟨r.statuses_updateData env moment staleAt events work db,
      r.sources_updateData env moment staleAt events work db,
      r.queue_updateData env moment staleAt events work db⟩

/-- **`perform_get_data` unqueues its own retrieval status, if any.** It leaves
the sources and the queue alone. -/
theorem performGetData_frame (db : Db) :
    WriteFrame r.rs.id db (r.performGetData env web moment adapter db).2 := by
  have hprepared := r.prepared_frame env web moment adapter db
  have hstatuses : Table.Touches (fun row => row.id = r.rs.id) RetrievalStatus.Unqueued
      db.retrievalStatuses (r.prepared env web moment adapter db).2.retrievalStatuses :=
    hprepared.statuses.mono (fun _ h => h.elim) (fun _ h => h)
  rcases r.performGetData_cases env web moment adapter db with h | ⟨events, work, h⟩
  · rw [h]
    exact ⟨hstatuses, hprepared.sources, hprepared.queue⟩
  · have hstore := r.store_frame env moment events work (r.prepared env web moment adapter db).2
    rw [h]
    exact ⟨hstatuses.trans hstore.statuses, hstore.sources.trans hprepared.sources,
      hstore.queue.trans hprepared.queue⟩

/-- The row of the retrieval status after `store`, if it is valid. -/
theorem first_store {events : Events} {work : Work} {db : Db} {staleAt : Time}
    (hrs : r.rs ∈ db.retrievalStatuses.rows) (hstale : moment.staleAt = .ok staleAt)
    (hvalid : r.valid env work db = true) :
    (r.store env moment events work db).2.retrievalStatuses.first (fun rs => rs.id == r.rs.id) =
      some (r.assigned moment staleAt events) := by
  have hput : (r.store env moment events work db).2.retrievalStatuses =
      db.retrievalStatuses.put (r.assigned moment staleAt events) := by
    simp only [store, hstale, updateData, hvalid, if_true]
    split <;> rfl
  have hfirst : db.retrievalStatuses.first (fun rs => rs.id == r.rs.id) = some r.rs := by
    refine Table.first_eq_of_unique hrs (by simp) ?_
    intro s hs hid
    exact db.retrievalStatuses.eq_of_id_eq hs hrs (beq_iff_eq.mp hid)
  rw [hput]
  exact Table.first_put hfirst rfl (by simp [assigned])

/-! ## Whether it writes -/

/-- What has to happen for the method to write: `get_data` returns a hash that
carries no error, nobody looks for a log path, and `parse_data` and
`update_works` do not raise. -/
structure Reaches (db : Db) (parsed : Parsed) (work : Work) (db' : Db) : Prop where
  logstash : moment.logstash = false
  runs : ∃ data s s', r.fetched env web adapter db = (.ok data, s) ∧ data.isHash = true ∧
    data.carriesError = false ∧
    (adapter.parseData r.source data r.work).run (handle env web r.rs) s =
      (.ok (parsed, work), s') ∧
    updateWorks env parsed.works s'.db = (.ok (), db')

theorem toParse_some {db : Db} {data : Value} {s : Session} :
    r.toParse env web moment adapter db = (.ok (some data), s) ↔
      moment.logstash = false ∧ r.fetched env web adapter db = (.ok data, s) ∧
        data.isHash = true ∧ data.carriesError = false := by
  constructor
  · intro h
    unfold toParse at h
    split at h
    next => cases h
    next data' s' hfetched =>
      split at h
      next => cases h
      next hlog =>
        split at h
        next => cases h
        next hhash =>
          split at h
          next => cases h
          next hcarries =>
            cases h
            exact ⟨by simpa using hlog, hfetched, by simpa using hhash, by simpa using hcarries⟩
  · rintro ⟨hlog, hfetched, hhash, hcarries⟩
    simp [toParse, hlog, hfetched, hhash, hcarries]

theorem prepared_some {db db' : Db} {parsed : Parsed} {work : Work} :
    r.prepared env web moment adapter db = (.ok (some (parsed, work)), db') ↔
      r.Reaches env web moment adapter db parsed work db' := by
  constructor
  · intro h
    unfold prepared Retrieval.parsed at h
    split at h
    next => cases h
    next => cases h
    next result s' hparsed =>
      split at h
      next => cases h
      next hworks =>
        cases h
        split at hparsed
        next => cases hparsed
        next => cases hparsed
        next data s hparse =>
          split at hparsed
          next => cases hparsed
          next hrun =>
            cases hparsed
            obtain ⟨hlog, hfetched, hhash, hcarries⟩ :=
              (r.toParse_some env web moment adapter).mp hparse
            exact ⟨hlog, data, s, s', hfetched, hhash, hcarries, hrun, hworks⟩
  · rintro ⟨hlog, data, s, s', hfetched, hhash, hcarries, hrun, hworks⟩
    have hparse := (r.toParse_some env web moment adapter).mpr ⟨hlog, hfetched, hhash, hcarries⟩
    simp [prepared, Retrieval.parsed, hparse, hrun, hworks]

/-- A retrieval that does not come to write keeps everything. -/
theorem keepsStatus_of_not_reached {db : Db} (hrs : r.rs ∈ db.retrievalStatuses.rows)
    (h : ∀ parsed work db', ¬ r.Reaches env web moment adapter db parsed work db') :
    KeepsStatus r.rs db (r.performGetData env web moment adapter db).2 := by
  have hkeeps := keepsStatus_of_frame hrs (r.prepared_frame env web moment adapter db)
  simp only [← prepared_some] at h
  unfold performGetData
  rcases hprepared : r.prepared env web moment adapter db with ⟨e | _ | ⟨parsed, work⟩, db'⟩
  · rw [hprepared] at hkeeps
    exact hkeeps
  · rw [hprepared] at hkeeps
    exact hkeeps
  · exact absurd hprepared (h parsed work db')

end Retrieval

end Lagotto
