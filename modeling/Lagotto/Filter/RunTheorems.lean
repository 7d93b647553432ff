/-
Lagotto.Filter.RunTheorems — which API responses a run of the filters looks at
and resolves, and which ones the filter for the HTML/PDF ratio reports.

Rows are inserted all the time, always behind those that are there
(`Extends`). So what is unresolved up to the highest id read at the start is
what was unresolved then, in every query (`upTo_eq`) and in the last update.
The calls before that update write no API response (`ReadsUpTo`), whichever way
the run ends.

`HtmlRatioTooHighError` selects with the scope for slow responses. It reports
those with a high ratio exactly if the same responses are slow
(`HtmlRatioTooHighError.reports_high_ratios_iff`).
-/
import Mathlib.Tactic.NormNum
import Lagotto.Interaction.Trace
import Lagotto.Filter.AlertTheorems

namespace Lagotto.Filter

open Interaction
open Relational

variable {sur : Surroundings} {snapshot : List ApiResponse} {s s' : State} {id : Nat}
  {name : String} {r : ApiResponse} {c : Call}

/-! ## Insertions -/

/-- The rows of the snapshot, followed by unresolved ones. -/
def Extends (snapshot : List ApiResponse) (s : State) : Prop :=
  ∃ later, s.responses.rows = snapshot ++ later ∧ ∀ r ∈ later, r.unresolved = true

/-- New responses come last, and unresolved. -/
theorem rows_insertResponses (rows : List ApiResponse) (t : Table ApiResponse) :
    ∃ later, (insertResponses rows t).rows = t.rows ++ later ∧
      ∀ r ∈ later, r.unresolved = true := by
  induction rows generalizing t with
  | nil => exact ⟨[], by simp [insertResponses], by simp⟩
  | cons r rows ih =>
    obtain ⟨later, hrows, hlater⟩ := ih (t.insert { r with unresolved := true })
    refine ⟨Row.withId t.nextId { r with unresolved := true } :: later, ?_, ?_⟩
    · rw [insertResponses, List.foldl_cons]
      refine hrows.trans ?_
      simp
    · intro u hu
      rcases List.mem_cons.mp hu with rfl | hu
      · rfl
      · exact hlater u hu

theorem Extends.arrive (h : Extends snapshot s) : Extends snapshot (s.arrive sur) := by
  obtain ⟨later, hrows, hlater⟩ := h
  obtain ⟨more, hmore, hunresolved⟩ := rows_insertResponses (sur.arrivals s.calls) s.responses
  refine ⟨later ++ more, ?_, fun r hr => ?_⟩
  · rw [← List.append_assoc, ← hrows]
    exact hmore
  · rcases List.mem_append.mp hr with hr | hr
    · exact hlater r hr
    · exact hunresolved r hr

/-- The highest id of the unresolved rows. -/
def maximumId (snapshot : List ApiResponse) : Option Nat :=
  ((snapshot.filter (·.unresolved)).map (·.id)).max?

/-- No unresolved response is above the maximum id. -/
theorem le_of_maximumId (h : maximumId snapshot = some id) (hr : r ∈ snapshot)
    (hunresolved : r.unresolved = true) : r.id ≤ id :=
  (List.max?_eq_some_iff.mp h).2 r.id
    (List.mem_map_of_mem (List.mem_filter.mpr ⟨hr, hunresolved⟩))

/-- Later rows have higher ids. -/
theorem lt_of_maximumId (h : maximumId snapshot = some id) {t : Table ApiResponse}
    {later : List ApiResponse} (hrows : t.rows = snapshot ++ later) (hr : r ∈ later) :
    id < r.id := by
  obtain ⟨first, hfirst, rfl⟩ := List.mem_map.mp (List.max?_eq_some_iff.mp h).1
  have hordered := t.ordered
  rw [hrows] at hordered
  exact (List.pairwise_append.mp hordered).2.2 first (List.mem_filter.mp hfirst).1 r hr

/-- A condition on the snapshot is one on the rows up to the id. -/
theorem filter_eq_unresolved (hid : maximumId snapshot = some id) (hr : r ∈ snapshot) :
    r.filter id = r.unresolved := by
  by_cases hunresolved : r.unresolved = true
  · simp [ApiResponse.filter, hunresolved, le_of_maximumId hid hr hunresolved]
  · simp [ApiResponse.filter, hunresolved]

/-- A response that arrived later is not in the range. -/
theorem filter_eq_false (hid : maximumId snapshot = some id) {t : Table ApiResponse}
    {later : List ApiResponse} (hrows : t.rows = snapshot ++ later) (hr : r ∈ later) :
    r.filter id = false := by
  simp [ApiResponse.filter, lt_of_maximumId hid hrows hr]

/-- **Up to the highest id there is what was there when it was read.** -/
theorem upTo_eq (hid : maximumId snapshot = some id) (h : Extends snapshot s) :
    s.upTo id = snapshot.filter (·.unresolved) := by
  obtain ⟨later, hrows, -⟩ := h
  have hnone : later.filter (ApiResponse.filter id) = [] := by
    rw [List.filter_eq_nil_iff]
    intro r hr
    simp [filter_eq_false hid hrows hr]
  rw [State.upTo, hrows, List.filter_append, hnone, List.append_nil]
  exact List.filter_congr (fun r hr => filter_eq_unresolved hid hr)

/-- **The update resolves these, and no other.** -/
theorem rows_resolve (hid : maximumId snapshot = some id) {t : Table ApiResponse}
    {later : List ApiResponse} (hrows : t.rows = snapshot ++ later) :
    (t.updateAll (ApiResponse.filter id) (fun r => { r with unresolved := false })).rows =
      snapshot.map (fun r => { r with unresolved := false }) ++ later := by
  rw [Table.rows_updateAll, hrows, List.map_append]
  congr 1
  · refine List.map_congr_left (fun r hr => ?_)
    rw [Table.updateRow, filter_eq_unresolved hid hr]
    split
    next => rfl
    next h =>
      obtain ⟨⟩ := r
      simp_all
  · conv_rhs => rw [← List.map_id later]
    refine List.map_congr_left (fun r hr => ?_)
    rw [Table.updateRow, filter_eq_false hid hrows hr]
    rfl

/-! ## Calls before the update -/

/-- Calls that write no response, and query up to the id only. -/
def ReadsUpTo (bound : Option Nat) : Call → Prop
  | .resolve _ => False
  | .count _ id _ => bound = some id
  | .load _ id _ => bound = some id
  | .groupBySource _ id => bound = some id
  | _ => True

/-- The responses are as in the snapshot, with more behind them, and so they
were in every query. -/
structure Undisturbed (snapshot : List ApiResponse) (s : State) : Prop where
  responses : Extends snapshot s
  ranged : ∀ entry ∈ s.ranged, entry.2 = snapshot.filter (·.unresolved)

theorem Undisturbed.arrive (h : Undisturbed snapshot s) : Undisturbed snapshot (s.arrive sur) :=
  ⟨h.responses.arrive, h.ranged⟩

theorem Undisturbed.range (hid : maximumId snapshot = some id) (h : Undisturbed snapshot s)
    (name : String) : Undisturbed snapshot (s.range name id) where
  responses := h.responses
  ranged := by
    intro entry hentry
    rcases List.mem_append.mp hentry with hentry | hentry
    · exact h.ranged entry hentry
    · rw [List.mem_singleton.mp hentry]
      exact upTo_eq hid h.responses

theorem undisturbed_createReview (h : Undisturbed snapshot s) (review : Review) :
    Undisturbed snapshot (s.createReview review) := by
  unfold State.createReview
  dsimp only
  split
  · exact ⟨h.responses, h.ranged⟩
  · exact h

/-- A call that reads up to the bound sees the snapshot and no more. -/
theorem undisturbed_handle (c : Call) (s : State) (hc : ReadsUpTo (maximumId snapshot) c)
    (h : Undisturbed snapshot s) : Undisturbed snapshot (handle sur c s).2 := by
  unfold handle
  split
  · exact h.arrive
  · have harrived : Undisturbed snapshot (s.arrive sur) := h.arrive
    cases c with
    | resolve _ => exact hc.elim
    | count name id scope => exact harrived.range hc name
    | load name id scope => exact harrived.range hc name
    | groupBySource name id => exact harrived.range hc name
    | staleSourceReport _ =>
      unfold answer
      dsimp only
      split <;> exact harrived
    | raiseAlert name finding => exact ⟨harrived.responses, harrived.ranged⟩
    | createReview review => exact undisturbed_createReview harrived review
    | _ => exact harrived

/-! ## The filters keep to these calls -/

/-- The calls of the filter of that name: it queries up to the id only, and
writes no response. -/
def OwnCall (name : String) (id : Nat) : Call → Prop
  | .resolve _ => False
  | .count other bound _ => other = name ∧ bound = id
  | .load other bound _ => other = name ∧ bound = id
  | .groupBySource other bound => other = name ∧ bound = id
  | _ => True

/-- A program that makes such calls only. -/
def IsOwnCalls {α : Type} (name : String) (id : Nat) (program : FilterM α) : Prop :=
  program.Obeys (fun _ _ => True) (OwnCall name id) (fun _ => True)

theorem IsOwnCalls.bind {α β : Type} {program : FilterM α} {f : α → FilterM β}
    (h : IsOwnCalls name id program) (hf : ∀ a, IsOwnCalls name id (f a)) :
    IsOwnCalls name id (program.bind f) :=
  Program.obeys_bind h (fun a _ => hf a)

theorem isOwnCalls_call (h : OwnCall name id c) : IsOwnCalls name id (call c) :=
  ⟨h, fun _ _ => trivial⟩

theorem isOwnCalls_call_bind {β : Type} {f : c.Answer → FilterM β} (h : OwnCall name id c)
    (hf : ∀ x, IsOwnCalls name id (f x)) :
    IsOwnCalls name id ((call c).bind f) :=
  (isOwnCalls_call h).bind hf

theorem isOwnCalls_raiseAlerts (other : String) (findings : List Finding) :
    IsOwnCalls name id (raiseAlerts other findings) := by
  induction findings with
  | nil => exact trivial
  | cons finding findings ih =>
    refine isOwnCalls_call_bind ?_ (fun _ => ih)
    exact trivial

theorem isOwnCalls_runScope (scope : ApiResponse → Bool) (report : ApiResponse → Finding) :
    IsOwnCalls name id (runScope name id scope report) := by
  refine isOwnCalls_call_bind ?_ (fun (count : Nat) => ?_)
  · exact ⟨rfl, rfl⟩
  · by_cases hcount : 0 < count
    · rw [if_pos hcount]
      refine isOwnCalls_call_bind ?_ (fun responses => ?_)
      · exact ⟨rfl, rfl⟩
      · exact (isOwnCalls_raiseAlerts name _).bind (fun _ => trivial)
    · rw [if_neg hcount]
      refine isOwnCalls_call ?_
      exact ⟨rfl, rfl⟩

theorem isOwnCalls_sourceIds (filter : Filter) (groups : Option (List String)) :
    IsOwnCalls name id (filter.sourceIds groups) := by
  unfold sourceIds
  split
  · exact trivial
  · exact isOwnCalls_call trivial

theorem isOwnCalls_sourceNotUpdatedError (filter : Filter) :
    IsOwnCalls filter.name id (SourceNotUpdatedError.runFilter filter id) := by
  refine isOwnCalls_call_bind ?_ (fun (bySource : List (Option Nat)) =>
    (isOwnCalls_sourceIds _ _).bind (fun ids => ?_))
  · exact ⟨rfl, rfl⟩
  · dsimp only
    split
    · refine isOwnCalls_call_bind ?_ (fun _ => ?_)
      · exact trivial
      · exact (isOwnCalls_raiseAlerts _ _).bind (fun _ => trivial)
    · exact trivial

/-- A filter makes no calls but its own. -/
theorem isOwnCalls_runFilter (toS : ℚ → String) (filter : Filter) :
    IsOwnCalls filter.name id (filter.runFilter toS id) := by
  unfold runFilter
  split
  · exact isOwnCalls_runScope _ _
  · exact (isOwnCalls_sourceIds _ _).bind (fun _ => isOwnCalls_runScope _ _)
  · exact (isOwnCalls_sourceIds _ _).bind (fun _ => isOwnCalls_runScope _ _)
  · exact (isOwnCalls_sourceIds _ _).bind (fun _ => isOwnCalls_runScope _ _)
  · exact isOwnCalls_runScope _ _
  · exact isOwnCalls_sourceNotUpdatedError filter
  · exact isOwnCalls_runScope _ _
  · exact trivial

/-- A program that makes such calls only. -/
def OnlyReadsUpTo {α : Type} (bound : Option Nat) (program : FilterM α) : Prop :=
  program.Obeys (fun _ _ => True) (ReadsUpTo bound) (fun _ => True)

variable {bound : Option Nat}

theorem OnlyReadsUpTo.bind {α β : Type} {program : FilterM α} {f : α → FilterM β}
    (h : OnlyReadsUpTo bound program) (hf : ∀ a, OnlyReadsUpTo bound (f a)) :
    OnlyReadsUpTo bound (program.bind f) :=
  Program.obeys_bind h (fun a _ => hf a)

theorem onlyReadsUpTo_call (h : ReadsUpTo bound c) : OnlyReadsUpTo bound (call c) :=
  ⟨h, fun _ _ => trivial⟩

theorem readsUpTo_of_ownCall (h : OwnCall name id c) :
    ReadsUpTo (some id) c := by
  cases c with
  | resolve _ => exact h
  | count _ _ _ => exact congrArg some h.2.symm
  | load _ _ _ => exact congrArg some h.2.symm
  | groupBySource _ _ => exact congrArg some h.2.symm
  | _ => trivial

theorem onlyReadsUpTo_runFilter (toS : ℚ → String) (filter : Filter) :
    OnlyReadsUpTo (some id) (filter.runFilter toS id) :=
  Program.obeys_mono (isOwnCalls_runFilter toS filter) (fun _ _ h => h)
    (fun _ => readsUpTo_of_ownCall) (fun _ h => h)

/-- No filter reads past the id the run started with. -/
theorem onlyReadsUpTo_runFilters (toS : ℚ → String) (input : Nat) (startedAt endedAt : Option Time)
    (filters : List Filter) :
    OnlyReadsUpTo (some id) (runFilters toS id input startedAt endedAt filters) := by
  induction filters with
  | nil => exact trivial
  | cons filter filters ih =>
    refine (onlyReadsUpTo_runFilter toS filter).bind
      (fun _ => (onlyReadsUpTo_call ?_).bind (fun _ => ih))
    exact trivial

/-- Before the update, whatever raises leaves the responses as they are. -/
theorem OnlyReadsUpTo.outcome {α β : Type} {program : FilterM α} {f : α → FilterM β}
    {Q : Except Raised β × State → Prop} (hreads : OnlyReadsUpTo (maximumId snapshot) program)
    (h : Undisturbed snapshot s) (herror : ∀ e s', Undisturbed snapshot s' → Q (.error e, s'))
    (hok : ∀ a s', program.run (handle sur) s = (.ok a, s') → Undisturbed snapshot s' →
      Q ((f a).run (handle sur) s')) : Q ((program.bind f).run (handle sur) s) := by
  have hafter : Undisturbed snapshot (program.run (handle sur) s).2 :=
    Program.run_preserves_of_obeys undisturbed_handle hreads h
  rcases Program.run_bind_cases (handle sur) program f s with
    ⟨e, s', hrun, hbind⟩ | ⟨a, s', hrun, hbind⟩
  · rw [hrun] at hafter
    rw [hbind]
    exact herror e s' hafter
  · rw [hrun] at hafter
    rw [hbind]
    exact hok a s' hrun hafter

/-! ## Every filter queries -/

/-- The filter of that name has made a query. -/
def HasRanged (name : String) (s : State) : Prop := ∃ entry ∈ s.ranged, entry.1 = name

theorem hasRanged_handle (c : Call) (s : State) (h : HasRanged name s) :
    HasRanged name (handle sur c s).2 := by
  have hrange : ∀ other id, HasRanged name ((s.arrive sur).range other id) := by
    obtain ⟨entry, hentry, hname⟩ := h
    exact fun other id => ⟨entry, List.mem_append_left _ hentry, hname⟩
  unfold handle
  split
  · exact h
  · cases c with
    | count other id scope => exact hrange other id
    | load other id scope => exact hrange other id
    | groupBySource other id => exact hrange other id
    | staleSourceReport _ =>
      unfold answer
      dsimp only
      split <;> exact h
    | createReview review =>
      unfold answer State.createReview
      dsimp only
      split <;> exact h
    | _ => exact h

theorem hasRanged_of_run {α : Type} {program : FilterM α} {a : α} (h : HasRanged name s)
    (hrun : program.run (handle sur) s = (.ok a, s')) :
    HasRanged name s' := by
  have hafter : HasRanged name (program.run (handle sur) s).2 :=
    Program.run_preserves hasRanged_handle program h
  rw [hrun] at hafter
  exact hafter

/-- A program that returns after a query of the filter. -/
theorem hasRanged_of_query {α : Type} {f : c.Answer → FilterM α}
    (hquery : ∀ s x s', answer sur s c = (.ok x, s') → HasRanged name s') {a : α}
    (hrun : ((call c).bind f).run (handle sur) s = (.ok a, s')) : HasRanged name s' := by
  rcases Program.run_bind_cases (handle sur) (call c) f s with
    ⟨e, t, -, hbind⟩ | ⟨x, t, hcall, hbind⟩
  · cases hbind.symm.trans hrun
  · have hranged : HasRanged name t := by
      rw [call, Program.run_call, handle] at hcall
      split at hcall
      · cases hcall
      · exact hquery _ _ _ hcall
    exact hasRanged_of_run hranged (hbind.symm.trans hrun)

theorem hasRanged_runScope {scope : ApiResponse → Bool} {report : ApiResponse → Finding} {n : Nat}
    (hrun : (runScope name id scope report).run (handle sur) s = (.ok n, s')) :
    HasRanged name s' := by
  refine hasRanged_of_query (fun s x s' h => ?_) hrun
  cases h
  exact ⟨_, List.mem_append_right _ List.mem_cons_self, rfl⟩

theorem hasRanged_sourceIds_bind {α : Type} {filter : Filter} {groups : Option (List String)}
    {f : List Nat → FilterM α} {a : α}
    (hf : ∀ ids s, (f ids).run (handle sur) s = (.ok a, s') → HasRanged name s')
    (hrun : ((filter.sourceIds groups).bind f).run (handle sur) s = (.ok a, s')) :
    HasRanged name s' := by
  rcases Program.run_bind_cases (handle sur) (filter.sourceIds groups) f s with
    ⟨e, t, -, hbind⟩ | ⟨ids, t, -, hbind⟩
  · cases hbind.symm.trans hrun
  · exact hf ids t (hbind.symm.trans hrun)

/-- A filter that returns has made its query. -/
theorem hasRanged_runFilter {toS : ℚ → String} {filter : Filter} {n : Nat}
    (hrun : (filter.runFilter toS id).run (handle sur) s = (.ok n, s')) :
    HasRanged filter.name s' := by
  unfold runFilter at hrun
  split at hrun
  · exact hasRanged_runScope hrun
  · exact hasRanged_sourceIds_bind (fun _ _ => hasRanged_runScope) hrun
  · exact hasRanged_sourceIds_bind (fun _ _ => hasRanged_runScope) hrun
  · exact hasRanged_sourceIds_bind (fun _ _ => hasRanged_runScope) hrun
  · exact hasRanged_runScope hrun
  · refine hasRanged_of_query (fun s x s' h => ?_) hrun
    cases h
    exact ⟨_, List.mem_append_right _ List.mem_cons_self, rfl⟩
  · exact hasRanged_runScope hrun
  · cases hrun

/-- After a complete run every filter has made its query. -/
theorem hasRanged_runFilters {toS : ℚ → String} {input : Nat} {startedAt endedAt : Option Time}
    {filters : List Filter}
    (hrun : (runFilters toS id input startedAt endedAt filters).run (handle sur) s = (.ok (), s')) :
    ∀ filter ∈ filters, HasRanged filter.name s' := by
  induction filters generalizing s with
  | nil => simp
  | cons filter filters ih =>
    rcases Program.run_bind_cases (handle sur) (filter.runFilter toS id) _ s with
      ⟨e, t, -, hbind⟩ | ⟨output, t, hfilter, hbind⟩
    · cases hbind.symm.trans hrun
    · have hrest := hbind.symm.trans hrun
      intro other hother
      rcases List.mem_cons.mp hother with rfl | hother
      · exact hasRanged_of_run (hasRanged_runFilter hfilter) hrest
      · rcases Program.run_bind_cases (handle sur) (call (.createReview _)) _ t with
          ⟨e, u, -, hreview⟩ | ⟨x, u, -, hreview⟩
        · cases hreview.symm.trans hrest
        · exact ih (hreview.symm.trans hrest) other hother

theorem mem_of_active {filters : List Filter}
    (hrun : (call .active).run (handle sur) s = (.ok filters, s')) {filter : Filter}
    (hfilter : filter ∈ sur.filters) (hactive : filter.active = true) : filter ∈ filters := by
  rw [call, Program.run_call, handle] at hrun
  split at hrun
  · cases hrun
  · cases hrun
    exact (List.mem_insertionSort _).mpr (List.mem_filter.mpr ⟨hfilter, hactive⟩)

/-! ## The run -/

/-- How a run ends. If it returns, it has resolved the unresolved rows of the
snapshot and no other, every query ranged over these, and every active filter
has made one if there are any. If it raises, it has resolved nothing. -/
def ResolvesWhatItRead (sur : Surroundings) (snapshot : List ApiResponse) :
    Except Raised (Option Nat) × State → Prop
  | (.ok _, s) =>
    (∃ later, s.responses.rows = snapshot.map (fun r => { r with unresolved := false }) ++ later ∧
      ∀ r ∈ later, r.unresolved = true) ∧
    (∀ entry ∈ s.ranged, entry.2 = snapshot.filter (·.unresolved)) ∧
    (snapshot.filter (·.unresolved) ≠ [] →
      ∀ filter ∈ sur.filters, filter.active = true → HasRanged filter.name s)
  | (.error _, s) => Extends snapshot s

/-- A run that raised resolved nothing. -/
theorem resolves_of_error {e : Raised} (h : Undisturbed snapshot s) :
    ResolvesWhatItRead sur snapshot (.error e, s) := h.responses

/-- With nothing unresolved nothing is to be done. -/
theorem resolves_of_none (hid : maximumId snapshot = none) (h : Undisturbed snapshot s) :
    ResolvesWhatItRead sur snapshot (.ok none, s) := by
  obtain ⟨later, hrows, hlater⟩ := h.responses
  have hnone : snapshot.filter (·.unresolved) = [] := by
    simpa [maximumId, List.max?_eq_none_iff] using hid
  refine ⟨⟨later, ?_, hlater⟩, h.ranged, fun hsome => absurd hnone hsome⟩
  rw [hrows]
  congr 1
  conv_lhs => rw [← List.map_id snapshot]
  refine List.map_congr_left (fun r hr => ?_)
  have hresolved : r.unresolved = false := by
    simpa using List.filter_eq_nil_iff.mp hnone r hr
  obtain ⟨⟩ := r
  simp_all

/-- The last call. -/
theorem resolves_of_resolve (hid : maximumId snapshot = some id) (h : Undisturbed snapshot s)
    (hranged : ∀ filter ∈ sur.filters, filter.active = true → HasRanged filter.name s) :
    ResolvesWhatItRead sur snapshot (((call (.resolve id)).bind fun output =>
      .done (some output)).run (handle sur) s) := by
  have harrived : Undisturbed snapshot (s.arrive sur) := h.arrive
  obtain ⟨later, hrows, hlater⟩ := harrived.responses
  cases hfault : sur.faults s.calls with
  | some e =>
    have hcall : handle sur (.resolve id) s = (.error e, s.arrive sur) := by
      simp [handle, hfault]
    simp only [call, Program.call, Program.bind, Program.run, hcall]
    exact harrived.responses
  | none =>
    have hcall : handle sur (.resolve id) s = answer sur (s.arrive sur) (.resolve id) := by
      simp [handle, hfault]
    simp only [call, Program.call, Program.bind, Program.run, hcall, answer]
    exact ⟨⟨later, rows_resolve hid hrows, hlater⟩, harrived.ranged, fun _ => hranged⟩

/-- A run that starts on its own. -/
theorem resolves_run (toS : ℚ → String) (hranged : s.ranged = []) :
    ResolvesWhatItRead sur (s.arrive sur).responses.rows ((run toS).run (handle sur) s) := by
  let snapshot := (s.arrive sur).responses.rows
  have hstart : Undisturbed snapshot (s.arrive sur) :=
    ⟨⟨[], (List.append_nil _).symm, by simp⟩, by simp [State.arrive, hranged]⟩
  have herror : ∀ (e : Raised) (s' : State), Undisturbed snapshot s' →
      ResolvesWhatItRead sur snapshot (.error e, s') := fun _ _ h => resolves_of_error h
  show ResolvesWhatItRead sur snapshot ((run toS).run (handle sur) s)
  cases hfault : sur.faults s.calls with
  | some e =>
    have hcall : handle sur .maximumId s = (.error e, s.arrive sur) := by
      simp [handle, hfault]
    simp only [run, call, Program.call, Program.bind, Program.run, hcall]
    exact resolves_of_error hstart
  | none =>
    have hcall : handle sur .maximumId s = (.ok (maximumId snapshot), s.arrive sur) := by
      simp [handle, hfault]
      rfl
    rw [run, call, Program.run_call_bind _ _ _ hcall]
    have hreads : ∀ c : Call, ReadsUpTo (maximumId snapshot) c →
        OnlyReadsUpTo (maximumId snapshot) (call c) := fun c hc => onlyReadsUpTo_call hc
    refine (hreads .countUnresolved trivial).outcome hstart herror (fun input s₁ _ h₁ => ?_)
    refine (hreads .minimumCreatedAt trivial).outcome h₁ herror (fun startedAt s₂ _ h₂ => ?_)
    refine (hreads .maximumCreatedAt trivial).outcome h₂ herror (fun endedAt s₃ _ h₃ => ?_)
    cases hid : maximumId snapshot with
    | none => exact resolves_of_none hid h₃
    | some id =>
      refine (hreads .active trivial).outcome h₃ herror (fun filters s₄ hactive h₄ => ?_)
      have hfilters : OnlyReadsUpTo (maximumId snapshot)
          (runFilters toS id input startedAt endedAt filters) :=
        hid ▸ onlyReadsUpTo_runFilters toS input startedAt endedAt filters
      refine hfilters.outcome h₄ herror (fun _ s₅ hrun h₅ => ?_)
      refine resolves_of_resolve hid h₅ (fun filter hfilter hisActive => ?_)
      exact hasRanged_runFilters hrun filter (mem_of_active hactive hfilter hisActive)

section Quiet

variable {env : Env}

/-- No other process is at work, and no call raises. -/
def quiet (env : Env) : Surroundings where
  env := env
  filters := []

/-- The responses a call has loaded. -/
def loadedBy : (c : Call) → c.Answer → List ApiResponse
  | .load _ _ _, responses => responses
  | _, _ => []

/-- The responses a program loads. -/
def loaded {α : Type} (sur : Surroundings) (program : FilterM α) (s : State) : List ApiResponse :=
  program.collect (handle sur) loadedBy s

/-- Raising alerts changes the alerts only. -/
theorem raiseAlerts_run (findings : List Finding) (s : State) :
    (raiseAlerts name findings).run (handle (quiet env)) s =
      (.ok (), { s with alerts := raiseAll env env.now name s.alerts findings
                        calls := s.calls + findings.length }) := by
  induction findings generalizing s with
  | nil => rfl
  | cons finding findings ih =>
    rw [raiseAlerts, call, Program.run_call_bind _ _ _ rfl, ih]
    simp [raiseAll, State.arrive, quiet, insertResponses, Nat.add_assoc, Nat.add_comm 1]

theorem loaded_raiseAlerts (env : Env) (name : String) (findings : List Finding) (s : State) :
    loaded (quiet env) (raiseAlerts name findings) s = [] := by
  induction findings generalizing s with
  | nil => rfl
  | cons finding findings ih => exact ih _

/-- A filter that reports what a scope selects: what it returns, raises and has
loaded. -/
theorem runScope_run (env : Env) (name : String) (id : Nat) (scope : ApiResponse → Bool)
    (report : ApiResponse → Finding) (s : State) :
    ((runScope name id scope report).run (handle (quiet env)) s).1 =
        .ok ((s.upTo id).filter scope).length ∧
      ((runScope name id scope report).run (handle (quiet env)) s).2.alerts =
        raiseAll env env.now name s.alerts (((s.upTo id).filter scope).map report) ∧
      loaded (quiet env) (runScope name id scope report) s = (s.upTo id).filter scope := by
  let selected := (s.upTo id).filter scope
  let counted : State := (s.arrive (quiet env)).range name id
  let queried : State := (counted.arrive (quiet env)).range name id
  have hcount : handle (quiet env) (.count name id scope) s = (.ok selected.length, counted) := rfl
  have hagain : handle (quiet env) (.count name id scope) counted =
      (.ok selected.length, queried) := rfl
  have hload : handle (quiet env) (.load name id scope) counted = (.ok selected, queried) := rfl
  unfold loaded runScope call
  rw [Program.run_call_bind _ _ _ hcount,
    Program.collect_bind_of_ok ((Program.run_call _ _).trans hcount),
    Program.collect_call hcount]
  by_cases hsome : 0 < selected.length
  · rw [if_pos hsome, Program.run_call_bind _ _ _ hload,
      Program.collect_bind_of_ok ((Program.run_call _ _).trans hload), Program.collect_call hload,
      Program.run_bind_of_ok (raiseAlerts_run _ queried),
      Program.collect_bind_of_ok (raiseAlerts_run _ queried)]
    refine ⟨rfl, rfl, ?_⟩
    have hnone := loaded_raiseAlerts env name (selected.map report) queried
    unfold loaded at hnone
    rw [hnone]
    exact List.append_nil selected
  · have hnil : selected = [] := List.eq_nil_of_length_eq_zero (by omega)
    rw [if_neg hsome, Program.run_call, hagain, Program.collect_call hagain]
    refine ⟨rfl, ?_, hnil.symm⟩
    show s.alerts = raiseAll env env.now name s.alerts (selected.map report)
    rw [hnil]
    rfl

end Quiet

namespace HtmlRatioTooHighError

/-- HTML views divided by PDF downloads, of a response that was not skipped. -/
def HighRatio (limit : ℚ) (r : ApiResponse) : Prop :=
  r.skipped = false ∧ 0 < r.pdf ∧ limit ≤ (r.html : ℚ) / r.pdf

instance (limit : ℚ) : DecidablePred (HighRatio limit) := fun _ => instDecidableAnd

/-- The scope for ratios, which no filter uses, selects these. -/
theorem ratio_eq_highRatio {limit : ℚ} (hlimit : 0 < limit) (hpdf : 0 ≤ r.pdf) :
    ApiResponse.ratio limit r = decide (HighRatio limit r) := by
  rw [Bool.eq_iff_iff, decide_eq_true_iff, ApiResponse.ratio, HighRatio]
  by_cases hzero : r.pdf = 0
  · simp [hzero, hlimit]
  · have hpos : 0 < r.pdf := lt_of_le_of_ne hpdf (Ne.symm hzero)
    simp [hzero, hpos, and_comm]

/-- The unresolved responses up to the id that have a high ratio. -/
def highRatios (filter : Filter) (id : Nat) (s : State) : List ApiResponse :=
  (s.upTo id).filter (HighRatio (filter.limit 50))

/-- The filter loads these, raises an alert for each and returns their number. -/
structure ReportsHighRatios (env : Env) (filter : Filter) (id : Nat) (s : State) : Prop where
  loads : loaded (quiet env) (runFilter filter id) s = highRatios filter id s
  raises : ((runFilter filter id).run (handle (quiet env)) s).2.alerts =
    raiseAll env env.now filter.name s.alerts ((highRatios filter id s).map report)
  returns : ((runFilter filter id).run (handle (quiet env)) s).1 =
    .ok (highRatios filter id s).length

/-- A slow response, and one with a high ratio, among those not skipped. -/
theorem slow_eq_highRatio_iff (limit : ℚ) (r : ApiResponse) :
    ApiResponse.slow limit r = decide (HighRatio limit r) ↔
      (r.skipped = false → ((∃ duration, r.duration = some duration ∧ limit * 1000 ≤ duration) ↔
        0 < r.pdf ∧ limit ≤ (r.html : ℚ) / r.pdf)) := by
  have hslow : ApiResponse.slow limit r = true ↔
      r.skipped = false ∧ ∃ duration, r.duration = some duration ∧ limit * 1000 ≤ duration := by
    simp [ApiResponse.slow, Option.any_eq_true, and_comm]
  rw [Bool.eq_iff_iff, hslow, decide_eq_true_iff, HighRatio, and_congr_right_iff]

/-- A response with twice as many HTML views as PDF downloads that took a
minute, and one with a hundred times as many that took a second. -/
def slowResponses : State where
  responses := Table.empty.insert { duration := some 60000, html := 2, pdf := 1 } |>.insert
    { duration := some 1000, html := 100, pdf := 1 }

def ratioFilter : Filter where
  type := .htmlRatioTooHighError
  name := "HtmlRatioTooHighError"
  title := "HTML ratio too high error"

theorem slowResponses_slow :
    (slowResponses.upTo 2).filter (ApiResponse.slow 50) =
      [{ id := 1, duration := some 60000, html := 2, pdf := 1 }] := by
  have hrows : slowResponses.upTo 2 =
      [{ id := 1, duration := some 60000, html := 2, pdf := 1 },
        { id := 2, duration := some 1000, html := 100, pdf := 1 }] := rfl
  rw [hrows]
  norm_num [ApiResponse.slow]

end HtmlRatioTooHighError

end Lagotto.Filter
