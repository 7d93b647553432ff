/-
Lagotto.Filter.MilestoneTheorems — which milestones `CitationMilestoneAlert`
reports over a series of runs.

A run that returns has shown the filter what was unresolved when it began
(`selected_eq`) and has resolved it, so each response is in one run, however the
responses are spread over the runs and whatever else is recorded meanwhile
(`selections_eq`). The filter selects a response if the quotient by the limit
has grown (`milestones_of_isOf`), that is, if a multiple of the limit was
reached with it. The totals of one work and source follow one another, so every
multiple is reached with exactly one of the responses.
-/
import Mathlib.Data.Rat.Floor
import Lagotto.Filter.RunTheorems
import Lagotto.Relational.Thresholds

namespace Lagotto.Filter

open Interaction
open Relational
open StateMachine

variable {sur : Surroundings} {snapshot : List ApiResponse} {s s' : State} {id : Nat}
variable {toS : ℚ → String} {name : String} {filter : Filter} {rows : List ApiResponse}
  {r : ApiResponse} {before : Int}

/-! ## What a filter selects -/

/-- What the filter of that name loads. -/
def selectedBy (name : String) : (c : Call) → c.Answer → List ApiResponse
  | .load other _ _, responses => if other = name then responses else []
  | _, _ => []

/-- The responses that the filter of that name selects in a program. -/
def selectedIn {α : Type} (sur : Surroundings) (name : String) (program : FilterM α) (s : State) :
    List ApiResponse :=
  program.collect (handle sur) (selectedBy name) s

/-- Before the update: what is selected in the first part, and then. -/
theorem OnlyReadsUpTo.selectedIn_bind {α β : Type} {program : FilterM α} {f : α → FilterM β} {b : β}
    (hreads : OnlyReadsUpTo (maximumId snapshot) program) (h : Undisturbed snapshot s)
    (hrun : (program.bind f).run (handle sur) s = (.ok b, s')) (name : String) :
    ∃ a t, program.run (handle sur) s = (.ok a, t) ∧ Undisturbed snapshot t ∧
      (f a).run (handle sur) t = (.ok b, s') ∧
      selectedIn sur name (program.bind f) s =
        selectedIn sur name program s ++ selectedIn sur name (f a) t := by
  have hafter : Undisturbed snapshot (program.run (handle sur) s).2 :=
    Program.run_preserves_of_obeys undisturbed_handle hreads h
  rcases Program.run_bind_cases (handle sur) program f s with
    ⟨e, t, -, hbind⟩ | ⟨a, t, hfirst, hbind⟩
  · cases hbind.symm.trans hrun
  · rw [hfirst] at hafter
    exact ⟨a, t, hfirst, hafter, hbind.symm.trans hrun, Program.collect_bind_of_ok hfirst⟩

/-- A call that has returned, with no fault. -/
theorem answer_of_run_call {c : Call} {x : c.Answer}
    (hrun : (call c).run (handle sur) s = (.ok x, s')) :
    answer sur (s.arrive sur) c = (.ok x, s') := by
  rw [call, Program.run_call, handle] at hrun
  split at hrun
  · cases hrun
  · exact hrun

theorem selectedIn_call {c : Call} {x : c.Answer}
    (hrun : (call c).run (handle sur) s = (.ok x, s')) :
    selectedIn sur name (call c) s = selectedBy name c x := by
  rw [call, Program.run_call] at hrun
  exact Program.collect_call hrun

/-- A call that loads nothing. -/
theorem selectedIn_call_bind {β : Type} {c : Call} {f : c.Answer → FilterM β} {b : β}
    (h : Undisturbed snapshot s) (hrun : ((call c).bind f).run (handle sur) s = (.ok b, s'))
    (hc : ReadsUpTo (maximumId snapshot) c) (name : String)
    (hsilent : ∀ x, selectedBy name c x = []) :
    ∃ x t, answer sur (s.arrive sur) c = (.ok x, t) ∧ Undisturbed snapshot t ∧
      (f x).run (handle sur) t = (.ok b, s') ∧
      selectedIn sur name ((call c).bind f) s = selectedIn sur name (f x) t := by
  obtain ⟨x, t, hx, ht, hrest, hselected⟩ := (onlyReadsUpTo_call hc).selectedIn_bind h hrun name
  rw [selectedIn_call hx, hsilent x, List.nil_append] at hselected
  exact ⟨x, t, answer_of_run_call hx, ht, hrest, hselected⟩

theorem selectedIn_raiseAlerts (sur : Surroundings) (name other : String)
    (findings : List Finding) (s : State) :
    selectedIn sur name (raiseAlerts other findings) s = [] := by
  have hobeys : (raiseAlerts other findings).Obeys (fun _ _ => True)
      (fun c => ∃ finding, c = .raiseAlert other finding) (fun _ => True) := by
    induction findings with
    | nil => exact trivial
    | cons finding findings ih => exact ⟨⟨finding, rfl⟩, fun _ _ => ih⟩
  refine Program.collect_eq_nil_of_obeys ?_ hobeys s
  rintro _ _ ⟨finding, rfl⟩
  rfl

/-- A filter with a scope selects what the scope does. -/
theorem selectedIn_runScope {scope : ApiResponse → Bool} {report : ApiResponse → Finding} {n : Nat}
    (hid : maximumId snapshot = some id) (h : Undisturbed snapshot s)
    (hrun : (runScope name id scope report).run (handle sur) s = (.ok n, s')) :
    selectedIn sur name (runScope name id scope report) s =
      (snapshot.filter (·.unresolved)).filter scope := by
  have hreads : OnlyReadsUpTo (maximumId snapshot) (call (.count name id scope)) :=
    onlyReadsUpTo_call hid
  obtain ⟨count, t, hcount, ht, hrest, hselected⟩ := hreads.selectedIn_bind h hrun name
  have hupTo : ∀ {u : State}, Undisturbed snapshot u →
      (u.arrive sur).upTo id = snapshot.filter (·.unresolved) :=
    fun hu => upTo_eq hid hu.arrive.responses
  have hlength : count = ((snapshot.filter (·.unresolved)).filter scope).length := by
    cases answer_of_run_call hcount
    rw [hupTo h]
  refine hselected.trans ?_
  rw [selectedIn_call hcount]
  by_cases hpos : 0 < count
  · rw [if_pos hpos] at hrest ⊢
    have hload : OnlyReadsUpTo (maximumId snapshot) (call (.load name id scope)) :=
      onlyReadsUpTo_call hid
    obtain ⟨responses, u, hresponses, -, hraise, hselected'⟩ := hload.selectedIn_bind ht hrest name
    have hrows : responses = (snapshot.filter (·.unresolved)).filter scope := by
      cases answer_of_run_call hresponses
      rw [hupTo ht]
    rcases Program.run_bind_cases (handle sur) (raiseAlerts name (responses.map report))
      (fun _ => .done responses.length) u with ⟨e, v, -, hbind⟩ | ⟨_, v, hok, -⟩
    · cases hbind.symm.trans hraise
    · rw [hselected', selectedIn_call hresponses, selectedIn, Program.collect_bind_of_ok hok]
      have hnone := selectedIn_raiseAlerts sur name name (responses.map report) u
      rw [selectedIn] at hnone
      rw [hnone, hrows]
      simp [selectedBy, Program.collect]
  · rw [if_neg hpos] at hrest ⊢
    have hnil : (snapshot.filter (·.unresolved)).filter scope = [] :=
      List.length_eq_zero_iff.mp (hlength ▸ Nat.eq_zero_of_not_pos hpos)
    rw [selectedIn_call hrest, hnil]
    rfl

/-! ## What the filter for milestones selects -/

/-- `source_ids` of the filter for milestones. -/
def watched (filter : Filter) (sur : Surroundings) : List Nat :=
  filter.configSourceIds.getD (activeSources sur (some ["cited", "saved"]))

/-- The scope it selects with. -/
def milestones (filter : Filter) (sur : Surroundings) : ApiResponse → Bool :=
  ApiResponse.citationMilestone (filter.limit 50) (filter.watched sur)

theorem sourceIds_eq_watched {ids : List Nat}
    (hrun : (filter.sourceIds (some ["cited", "saved"])).run (handle sur) s = (.ok ids, s')) :
    ids = filter.watched sur := by
  unfold sourceIds at hrun
  unfold watched
  split at hrun
  next hconfig =>
    cases hrun
    rw [hconfig]
    rfl
  next hconfig =>
    cases answer_of_run_call hrun
    rw [hconfig]
    rfl

theorem selectedIn_sourceIds (sur : Surroundings) (name : String) (filter : Filter)
    (groups : Option (List String)) (s : State) :
    selectedIn sur name (filter.sourceIds groups) s = [] := by
  have hobeys : (filter.sourceIds groups).Obeys (fun _ _ => True)
      (fun c => c = .activeSources groups) (fun _ => True) := by
    unfold sourceIds
    split
    · exact trivial
    · exact ⟨rfl, fun _ _ => trivial⟩
  refine Program.collect_eq_nil_of_obeys ?_ hobeys s
  rintro _ _ rfl
  rfl

theorem onlyReadsUpTo_sourceIds (bound : Option Nat) (filter : Filter)
    (groups : Option (List String)) : OnlyReadsUpTo bound (filter.sourceIds groups) := by
  unfold sourceIds
  split
  · exact trivial
  · exact onlyReadsUpTo_call trivial

theorem selectedIn_citationMilestoneAlert {n : Nat} (htype : filter.type = .citationMilestoneAlert)
    (hid : maximumId snapshot = some id) (h : Undisturbed snapshot s)
    (hrun : (filter.runFilter toS id).run (handle sur) s = (.ok n, s')) :
    selectedIn sur filter.name (filter.runFilter toS id) s =
      (snapshot.filter (·.unresolved)).filter (filter.milestones sur) := by
  rw [runFilter, htype] at hrun ⊢
  obtain ⟨ids, t, hids, ht, hrest, hselected⟩ :=
    (onlyReadsUpTo_sourceIds _ filter _).selectedIn_bind h hrun filter.name
  refine hselected.trans ?_
  rw [selectedIn_sourceIds, List.nil_append, selectedIn_runScope hid ht hrest,
    sourceIds_eq_watched hids]
  rfl

/-- Another filter loads under its own name. -/
theorem selectedIn_of_name_ne (hname : filter.name ≠ name) (s : State) :
    selectedIn sur name (filter.runFilter toS id) s = [] := by
  refine Program.collect_eq_nil_of_obeys ?_ (isOwnCalls_runFilter toS filter) s
  intro c x hown
  cases c with
  | load other bound scope => exact if_neg (hown.1 ▸ hname)
  | _ => rfl

section Loop

variable {input : Nat} {startedAt endedAt : Option Time}

/-- One turn of the loop through the filters. -/
theorem selectedIn_runFilters_cons {filters : List Filter} (hid : maximumId snapshot = some id)
    (h : Undisturbed snapshot s)
    (hrun : (runFilters toS id input startedAt endedAt (filter :: filters)).run (handle sur) s =
      (.ok (), s')) (name : String) :
    ∃ n t u, (filter.runFilter toS id).run (handle sur) s = (.ok n, t) ∧ Undisturbed snapshot u ∧
      (runFilters toS id input startedAt endedAt filters).run (handle sur) u = (.ok (), s') ∧
      selectedIn sur name (runFilters toS id input startedAt endedAt (filter :: filters)) s =
        selectedIn sur name (filter.runFilter toS id) s ++
          selectedIn sur name (runFilters toS id input startedAt endedAt filters) u := by
  have hfilter : OnlyReadsUpTo (maximumId snapshot) (filter.runFilter toS id) :=
    hid ▸ onlyReadsUpTo_runFilter toS filter
  obtain ⟨n, t, hn, ht, hrest, hselected⟩ := hfilter.selectedIn_bind h hrun name
  obtain ⟨_, u, -, hu, hrest', hselected'⟩ :=
    selectedIn_call_bind ht hrest trivial name (fun _ => rfl)
  exact ⟨n, t, u, hn, hu, hrest', hselected.trans (congrArg (_ ++ ·) hselected')⟩

theorem selectedIn_runFilters_of_not_mem {filters : List Filter}
    (hid : maximumId snapshot = some id) (hnames : ∀ filter ∈ filters, filter.name ≠ name)
    (h : Undisturbed snapshot s)
    (hrun : (runFilters toS id input startedAt endedAt filters).run (handle sur) s =
      (.ok (), s')) :
    selectedIn sur name (runFilters toS id input startedAt endedAt filters) s = [] := by
  induction filters generalizing s with
  | nil => rfl
  | cons filter filters ih =>
    obtain ⟨n, t, u, -, hu, hrest, hselected⟩ := selectedIn_runFilters_cons hid h hrun name
    rw [hselected, selectedIn_of_name_ne (hnames filter List.mem_cons_self), List.nil_append]
    exact ih (fun other hother => hnames other (List.mem_cons_of_mem filter hother)) hu hrest

theorem selectedIn_runFilters {filters : List Filter}
    (htype : filter.type = .citationMilestoneAlert) (hmem : filter ∈ filters)
    (hnames : (filters.map (·.name)).Nodup) (hid : maximumId snapshot = some id)
    (h : Undisturbed snapshot s)
    (hrun : (runFilters toS id input startedAt endedAt filters).run (handle sur) s =
      (.ok (), s')) :
    selectedIn sur filter.name (runFilters toS id input startedAt endedAt filters) s =
      (snapshot.filter (·.unresolved)).filter (filter.milestones sur) := by
  induction filters generalizing s with
  | nil => cases hmem
  | cons first filters ih =>
    obtain ⟨n, t, u, hfirst, hu, hrest, hselected⟩ :=
      selectedIn_runFilters_cons hid h hrun filter.name
    rw [List.map_cons, List.nodup_cons] at hnames
    rw [hselected]
    rcases List.mem_cons.mp hmem with rfl | hmem'
    · have hothers : ∀ other ∈ filters, other.name ≠ filter.name := by
        intro other hother hsame
        exact hnames.1 (List.mem_map.mpr ⟨other, hother, hsame⟩)
      rw [selectedIn_citationMilestoneAlert htype hid h hfirst,
        selectedIn_runFilters_of_not_mem hid hothers hu hrest, List.append_nil]
    · have hne : first.name ≠ filter.name := by
        intro hsame
        exact hnames.1 (List.mem_map.mpr ⟨filter, hmem', hsame.symm⟩)
      rw [selectedIn_of_name_ne hne, List.nil_append]
      exact ih hmem' hnames.2 hu hrest

end Loop

/-! ## Whole runs -/

/-- It is an active filter for milestones, and no other filter has its name. -/
structure RunsIn (filter : Filter) (sur : Surroundings) : Prop where
  type : filter.type = .citationMilestoneAlert
  mem : filter ∈ sur.filters
  active : filter.active = true
  names : (sur.filters.map (·.name)).Nodup

theorem RunsIn.nodup_active (h : filter.RunsIn sur) :
    (((sur.filters.filter (·.active)).insertionSort (fun a b => a.name ≤ b.name)).map
      (·.name)).Nodup := by
  have hactive : ((sur.filters.filter (·.active)).map (·.name)).Nodup :=
    h.names.sublist (List.filter_sublist.map _)
  exact ((List.perm_insertionSort _ _).map _).nodup_iff.mpr hactive

theorem RunsIn.mem_active (h : filter.RunsIn sur) :
    filter ∈ (sur.filters.filter (·.active)).insertionSort (fun a b => a.name ≤ b.name) :=
  (List.mem_insertionSort _).mpr (List.mem_filter.mpr ⟨h.mem, h.active⟩)

theorem selectedIn_resolve (sur : Surroundings) (name : String) (id : Nat) (s : State) :
    selectedIn sur name ((call (.resolve id)).bind fun output => .done (some output)) s = [] := by
  have hobeys : ((call (.resolve id)).bind fun output => (.done (some output) : FilterM _)).Obeys
      (fun _ _ => True) (fun c => c = .resolve id) (fun _ => True) := ⟨rfl, fun _ _ => trivial⟩
  refine Program.collect_eq_nil_of_obeys ?_ hobeys s
  rintro _ _ rfl
  rfl

/-- **A run that returns selects from what was unresolved when it began.** -/
theorem selected_eq (hfilter : filter.RunsIn sur) {n : Option Nat} (hranged : s.ranged = [])
    (hrun : (run toS).run (handle sur) s = (.ok n, s')) :
    selectedIn sur filter.name (run toS) s =
      (s.arrive sur).unresolved.filter (filter.milestones sur) := by
  let snapshot := (s.arrive sur).responses.rows
  have hstart : Undisturbed snapshot (s.arrive sur) :=
    ⟨⟨[], (List.append_nil _).symm, by simp⟩, by simp [State.arrive, hranged]⟩
  rcases Program.run_bind_cases (handle sur) (call .maximumId) _ s with
    ⟨e, t, -, hbind⟩ | ⟨highest, t, hhighest, hbind⟩
  · cases hbind.symm.trans hrun
  · have hselected : selectedIn sur filter.name (run toS) s = _ :=
      Program.collect_bind_of_ok hhighest
    have hnone : selectedIn sur filter.name (call .maximumId) s = [] := selectedIn_call hhighest
    obtain ⟨hid, rfl⟩ : maximumId snapshot = highest ∧ s.arrive sur = t := by
      cases answer_of_run_call hhighest
      exact ⟨rfl, rfl⟩
    obtain ⟨input, s₁, -, h₁, hrest₁, hselected₁⟩ :=
      selectedIn_call_bind hstart (hbind.symm.trans hrun) trivial filter.name (fun _ => rfl)
    obtain ⟨startedAt, s₂, -, h₂, hrest₂, hselected₂⟩ :=
      selectedIn_call_bind h₁ hrest₁ trivial filter.name (fun _ => rfl)
    obtain ⟨endedAt, s₃, -, h₃, hrest₃, hselected₃⟩ :=
      selectedIn_call_bind h₂ hrest₂ trivial filter.name (fun _ => rfl)
    refine hselected.trans ?_
    refine (congrArg₂ (· ++ ·) hnone (hselected₁.trans (hselected₂.trans hselected₃))).trans ?_
    cases highest with
    | none =>
      have hresolved : snapshot.filter (·.unresolved) = [] := by
        simpa [maximumId, List.max?_eq_none_iff] using hid
      rw [State.unresolved, hresolved]
      rfl
    | some id =>
      obtain ⟨filters, s₄, hactive, h₄, hrest₄, hselected₄⟩ :=
        selectedIn_call_bind h₃ hrest₃ trivial filter.name (fun _ => rfl)
      have hreads : OnlyReadsUpTo (maximumId snapshot)
          (runFilters toS id input startedAt endedAt filters) :=
        hid ▸ onlyReadsUpTo_runFilters toS input startedAt endedAt filters
      obtain ⟨_, s₅, hfilters, -, -, hselected₅⟩ :=
        hreads.selectedIn_bind h₄ hrest₄ filter.name
      cases hactive
      refine (hselected₄.trans hselected₅).trans ?_
      rw [selectedIn_runFilters hfilter.type hfilter.mem_active hfilter.nodup_active hid h₄
        hfilters, selectedIn_resolve, List.append_nil]
      rfl

/-! ## A series of runs -/

/-- The database as a new process finds it. -/
def State.afresh (s : State) : State :=
  { responses := s.responses, alerts := s.alerts, reviews := s.reviews }

/-- The database after a run. -/
def afterRun (toS : ℚ → String) (sur : Surroundings) (s : State) : State :=
  ((run toS).run (handle sur) s.afresh).2

/-- The run ends with a value. -/
def Returns (toS : ℚ → String) (s : State) (sur : Surroundings) : Prop :=
  ∃ n, ((run toS).run (handle sur) s.afresh).1 = .ok n

/-- What the filter of that name selects in a series of runs. -/
def selections (toS : ℚ → String) (name : String) : List Surroundings → State → List ApiResponse
  | [], _ => []
  | sur :: rest, s =>
    selectedIn sur name (run toS) s.afresh ++ selections toS name rest (afterRun toS sur s)

/-- A response as it was when it was recorded. -/
def recorded (r : ApiResponse) : ApiResponse := { r with unresolved := true }

theorem recorded_eq_self (h : r.unresolved = true) : recorded r = r := by
  obtain ⟨⟩ := r
  simp_all [recorded]

theorem map_recorded_eq_self (h : ∀ r ∈ rows, r.unresolved = true) :
    rows.map recorded = rows := by
  conv_rhs => rw [← List.map_id rows]
  exact List.map_congr_left (fun r hr => recorded_eq_self (h r hr))

/-- What one run selects and leaves behind. -/
theorem afterRun_cases (hfilter : filter.RunsIn sur) (hreturns : Returns toS s sur) :
    ∃ arrived later : List ApiResponse, (∀ r ∈ arrived, r.unresolved = true) ∧
      (∀ r ∈ later, r.unresolved = true) ∧
      (afterRun toS sur s).responses.rows =
        (s.responses.rows ++ arrived).map (fun r => { r with unresolved := false }) ++ later ∧
      selectedIn sur filter.name (run toS) s.afresh =
        (s.unresolved ++ arrived).filter (filter.milestones sur) := by
  obtain ⟨n, hn⟩ := hreturns
  have hrun : (run toS).run (handle sur) s.afresh = (.ok n, afterRun toS sur s) :=
    Prod.ext hn rfl
  have hends : ResolvesWhatItRead sur (s.afresh.arrive sur).responses.rows
      ((run toS).run (handle sur) s.afresh) := resolves_run toS rfl
  rw [hrun] at hends
  obtain ⟨⟨later, hrows, hlater⟩, -, -⟩ := hends
  obtain ⟨arrived, harrived, hunresolved⟩ := rows_insertResponses (sur.arrivals 0) s.responses
  refine ⟨arrived, later, hunresolved, hlater, ?_, ?_⟩
  · rw [hrows, ← harrived]
    rfl
  · rw [selected_eq hfilter rfl hrun]
    refine congrArg (List.filter _) ?_
    have hall : arrived.filter (·.unresolved) = arrived := List.filter_eq_self.mpr hunresolved
    rw [State.unresolved, State.unresolved, ← hall, ← List.filter_append, ← harrived]
    rfl

section Series

variable {runs : List Surroundings} {work source : Nat}

/-- The response is of this work and source. -/
def isOf (work source : Nat) (r : ApiResponse) : Bool :=
  r.workId == some work && r.sourceId == some source

/-- The integral part of the quotient by the number has grown. -/
def passes (number : ℚ) (r : ApiResponse) : Bool :=
  r.previousTotal.any (fun previousTotal : Int =>
    ((previousTotal : ℚ) / number).floor < ((r.total : ℚ) / number).floor)

theorem milestones_of_isOf (hnumber : filter.limit 50 ≠ 0) (hsource : source ∈ filter.watched sur)
    (hr : isOf work source r = true) :
    filter.milestones sur r = passes (filter.limit 50) r := by
  simp only [isOf, Bool.and_eq_true, beq_iff_eq] at hr
  cases hbefore : r.previousTotal with
  | none => simp [milestones, ApiResponse.citationMilestone, passes, hbefore]
  | some before =>
    simp [milestones, ApiResponse.citationMilestone, passes, hbefore, ApiResponse.ofSources,
      hnumber, hr.2, hsource]

/-- **Every response is in one run**: what is selected, with what is still to
come, is selected from all that was unresolved or has been recorded. -/
theorem selections_eq (work : Nat) (hfilter : ∀ sur ∈ runs, filter.RunsIn sur)
    (hnumber : filter.limit 50 ≠ 0) (hsource : ∀ sur ∈ runs, source ∈ filter.watched sur)
    (hreturns : Along (afterRun toS) (Returns toS) runs s) :
    ∃ arrived : List ApiResponse, (∀ r ∈ arrived, r.unresolved = true) ∧
      (StateMachine.run (afterRun toS) runs s).responses.rows.map recorded =
        s.responses.rows.map recorded ++ arrived ∧
      (selections toS filter.name runs s).filter (isOf work source) ++
          ((StateMachine.run (afterRun toS) runs s).unresolved.filter (isOf work source)).filter
            (passes (filter.limit 50)) =
        ((s.unresolved ++ arrived).filter (isOf work source)).filter
          (passes (filter.limit 50)) := by
  induction runs generalizing s with
  | nil => exact ⟨[], by simp, by simp, by simp [selections]⟩
  | cons sur rest ih =>
    obtain ⟨arrived, later, harrived, hlater, hrows, hselected⟩ :=
      afterRun_cases (hfilter sur List.mem_cons_self) hreturns.1
    obtain ⟨more, hmore, hmoreRows, hmoreSelected⟩ :=
      ih (fun other hother => hfilter other (List.mem_cons_of_mem sur hother))
        (fun other hother => hsource other (List.mem_cons_of_mem sur hother)) hreturns.2
    refine ⟨arrived ++ later ++ more, ?_, ?_, ?_⟩
    · intro r hr
      rcases List.mem_append.mp hr with hr | hr
      · rcases List.mem_append.mp hr with hr | hr
        · exact harrived r hr
        · exact hlater r hr
      · exact hmore r hr
    · have hrecorded : (afterRun toS sur s).responses.rows.map recorded =
          s.responses.rows.map recorded ++ (arrived ++ later) := by
        rw [hrows, List.map_append, List.map_map, map_recorded_eq_self hlater]
        refine (congrArg (· ++ later) (List.map_append (f := recorded))).trans ?_
        rw [map_recorded_eq_self harrived, List.append_assoc]
      rw [run_cons, hmoreRows, hrecorded, List.append_assoc]
    · have hpending : (afterRun toS sur s).unresolved = later := by
        rw [State.unresolved, hrows, List.filter_append, List.filter_eq_self.mpr hlater,
          List.filter_eq_nil_iff.mpr, List.nil_append]
        intro r hr
        obtain ⟨before, -, rfl⟩ := List.mem_map.mp hr
        exact Bool.false_ne_true
      have hfirst : (selectedIn sur filter.name (run toS) s.afresh).filter (isOf work source) =
          ((s.unresolved ++ arrived).filter (isOf work source)).filter
            (passes (filter.limit 50)) := by
        rw [hselected, List.filter_comm]
        refine List.filter_congr (fun r hr => ?_)
        exact milestones_of_isOf hnumber (hsource sur List.mem_cons_self) (List.mem_filter.mp hr).2
      rw [selections, List.filter_append, List.append_assoc, run_cons, hmoreSelected, hfirst,
        hpending]
      simp only [List.filter_append, List.append_assoc]

/-! ## Milestones -/

/-- The totals that were recorded, each with the one before. -/
def Recorded : Int → List ApiResponse → Prop
  | _, [] => True
  | before, r :: rest => r.previousTotal = some before ∧ before ≤ r.total ∧ Recorded r.total rest

/-- The number of the milestone was reached with this response. -/
def Reaches (number : ℚ) (k : ℤ) (r : ApiResponse) : Prop :=
  ∃ before : Int, r.previousTotal = some before ∧ (before : ℚ) < k * number ∧
    k * number ≤ (r.total : ℚ)

theorem passes_iff {number : ℚ} (hnumber : 0 < number) (r : ApiResponse) :
    passes number r = true ↔ ∃ k, Reaches number k r := by
  simp only [passes, Option.any_eq_true, decide_eq_true_eq, Reaches]
  constructor
  · rintro ⟨before, hbefore, hlt⟩
    obtain ⟨k, hk⟩ := (floor_div_lt_floor_div_iff hnumber _ _).mp hlt
    exact ⟨k, before, hbefore, hk⟩
  · rintro ⟨k, before, hbefore, hk⟩
    exact ⟨before, hbefore, (floor_div_lt_floor_div_iff hnumber _ _).mpr ⟨k, hk⟩⟩

/-- The total before, of a response that has one. -/
def lowerTotal (r : ApiResponse) : ℚ := ((r.previousTotal.getD 0 : Int) : ℚ)

def upperTotal (r : ApiResponse) : ℚ := ((r.total : Int) : ℚ)

theorem Recorded.consecutive (h : Recorded before rows) :
    Consecutive lowerTotal upperTotal (before : ℚ) rows := by
  induction rows generalizing before with
  | nil => trivial
  | cons r rest ih =>
    obtain ⟨hbefore, hle, hrest⟩ := h
    exact ⟨by rw [lowerTotal, hbefore]; rfl, Int.cast_le.mpr hle, ih hrest⟩

theorem Recorded.previousTotal (h : Recorded before rows) (hr : r ∈ rows) :
    r.previousTotal = some (r.previousTotal.getD 0) := by
  induction rows generalizing before with
  | nil => cases hr
  | cons first rest ih =>
    obtain ⟨hbefore, -, hrest⟩ := h
    rcases List.mem_cons.mp hr with rfl | hr
    · rw [hbefore]
      rfl
    · exact ih hrest hr

theorem Recorded.reaches_iff (h : Recorded before rows) {number : ℚ} {k : ℤ} (hr : r ∈ rows) :
    Reaches number k r ↔ lowerTotal r < k * number ∧ k * number ≤ upperTotal r := by
  constructor
  · rintro ⟨total, htotal, hk⟩
    rw [lowerTotal, htotal]
    exact hk
  · intro hk
    exact ⟨_, h.previousTotal hr, hk⟩

/-- The last total. -/
def lastTotal (before : Int) (rows : List ApiResponse) : Int := endOf (·.total) before rows

theorem cast_lastTotal (before : Int) (rows : List ApiResponse) :
    (lastTotal before rows : ℚ) = endOf upperTotal before rows := by
  unfold lastTotal
  induction rows generalizing before with
  | nil => rfl
  | cons r rest ih => exact ih r.total

theorem Recorded.map_recorded (h : Recorded before rows) :
    Recorded before (rows.map recorded) := by
  induction rows generalizing before with
  | nil => trivial
  | cons r rest ih => exact ⟨h.1, h.2.1, ih h.2.2⟩

theorem lastTotal_map_recorded (before : Int) (rows : List ApiResponse) :
    lastTotal before (rows.map recorded) = lastTotal before rows := by
  unfold lastTotal
  induction rows generalizing before with
  | nil => rfl
  | cons r rest ih => exact ih r.total

/-- The totals of a work and a source that the filter looks at, all of them
recorded and filtered in the course of the runs. -/
structure History (toS : ℚ → String) (filter : Filter) (work source : Nat)
    (runs : List Surroundings) (s : State) (first : Int) (rows : List ApiResponse) : Prop where
  rows_eq : rows =
    (StateMachine.run (afterRun toS) runs s).responses.rows.filter (isOf work source)
  watched : ∀ sur ∈ runs, source ∈ filter.watched sur
  unresolved : ∀ r ∈ s.responses.rows, isOf work source r = true → r.unresolved = true
  resolved : ∀ r ∈ rows, r.unresolved = false
  totals : Recorded first rows

theorem History.selected {first : Int} (h : History toS filter work source runs s first rows)
    (hfilter : ∀ sur ∈ runs, filter.RunsIn sur) (hnumber : filter.limit 50 ≠ 0)
    (hreturns : Along (afterRun toS) (Returns toS) runs s) :
    (selections toS filter.name runs s).filter (isOf work source) =
      (rows.map recorded).filter (passes (filter.limit 50)) := by
  obtain ⟨arrived, harrived, hrows, hselected⟩ :=
    selections_eq work hfilter hnumber h.watched hreturns
  have hdone : (StateMachine.run (afterRun toS) runs s).unresolved.filter (isOf work source) =
      [] := by
    rw [State.unresolved, List.filter_comm, ← h.rows_eq, List.filter_eq_nil_iff]
    intro r hr
    simp [h.resolved r hr]
  have hnew : s.unresolved.filter (isOf work source) =
      (s.responses.rows.map recorded).filter (isOf work source) := by
    rw [State.unresolved, List.filter_comm, List.filter_map]
    have hself : (s.responses.rows.filter (isOf work source)).filter (·.unresolved) =
        s.responses.rows.filter (isOf work source) :=
      List.filter_eq_self.mpr
        (fun r hr => h.unresolved r (List.mem_filter.mp hr).1 (List.mem_filter.mp hr).2)
    rw [hself]
    refine (map_recorded_eq_self ?_).symm
    intro r hr
    exact h.unresolved r (List.mem_filter.mp hr).1 (List.mem_filter.mp hr).2
  have hall : (s.unresolved ++ arrived).filter (isOf work source) = rows.map recorded := by
    rw [List.filter_append, hnew, ← List.filter_append, ← hrows, List.filter_map, h.rows_eq]
    rfl
  rw [hdone, List.filter_nil, List.append_nil, hall] at hselected
  exact hselected

theorem History.nodup {first : Int} (h : History toS filter work source runs s first rows) :
    (rows.map recorded).Nodup := by
  have hordered := (StateMachine.run (afterRun toS) runs s).responses.ordered
  have hlt : rows.Pairwise (fun a b => a.id < b.id) := by
    rw [h.rows_eq]
    exact hordered.sublist List.filter_sublist
  refine List.pairwise_map.mpr (hlt.imp ?_)
  intro a b hid hsame
  have hsameId : (recorded a).id = (recorded b).id := by rw [hsame]
  exact Nat.ne_of_lt hid hsameId

/-- With the limit zero nothing is selected. -/
theorem selections_of_zero (hfilter : ∀ sur ∈ runs, filter.RunsIn sur)
    (hreturns : Along (afterRun toS) (Returns toS) runs s) (hzero : filter.limit 50 = 0) :
    selections toS filter.name runs s = [] := by
  induction runs generalizing s with
  | nil => rfl
  | cons sur rest ih =>
    obtain ⟨arrived, later, -, -, -, hselected⟩ :=
      afterRun_cases (hfilter sur List.mem_cons_self) hreturns.1
    have hnone : ∀ r, filter.milestones sur r = false := by
      intro r
      simp [milestones, ApiResponse.citationMilestone, hzero]
    rw [selections, hselected, ih (fun other hother => hfilter other
      (List.mem_cons_of_mem sur hother)) hreturns.2, List.append_nil, List.filter_eq_nil_iff]
    intro r _
    simp [hnone r]

end Series

/-- **However the responses are spread over the runs, every milestone is
reported with the one response that reached it, and with the limit zero there
are none.** -/
theorem milestones_reported_once (toS : ℚ → String) (filter : Filter) (work source : Nat)
    (runs : List Surroundings) (s : State) (hfilter : ∀ sur ∈ runs, filter.RunsIn sur)
    (hreturns : Along (afterRun toS) (Returns toS) runs s) :
    (filter.limit 50 = 0 → selections toS filter.name runs s = []) ∧
      ∀ first rows, 0 < filter.limit 50 → History toS filter work source runs s first rows →
        let selected := (selections toS filter.name runs s).filter (isOf work source)
        selected.Nodup ∧
          (∀ r ∈ rows, recorded r ∈ selected ↔ ∃ k, Reaches (filter.limit 50) k r) ∧
          ∀ k : ℤ, (first : ℚ) < k * filter.limit 50 →
            k * filter.limit 50 ≤ (lastTotal first rows : ℚ) →
            ∃! r, r ∈ selected ∧ Reaches (filter.limit 50) k r := by
  refine ⟨selections_of_zero hfilter hreturns, ?_⟩
  intro first rows hpos h selected
  have hselected : selected = (rows.map recorded).filter (passes (filter.limit 50)) :=
    h.selected hfilter (ne_of_gt hpos) hreturns
  have hmem : ∀ r, r ∈ selected ↔ r ∈ rows.map recorded ∧ ∃ k, Reaches (filter.limit 50) k r := by
    intro r
    rw [hselected, List.mem_filter, passes_iff hpos]
  have htotals := h.totals.map_recorded
  refine ⟨?_, ?_, ?_⟩
  · rw [hselected]
    exact h.nodup.filter _
  · intro r hr
    rw [hmem]
    exact and_iff_right (List.mem_map_of_mem hr)
  · intro k hfirst hlast
    rw [← lastTotal_map_recorded, cast_lastTotal] at hlast
    obtain ⟨r, hr, hcovers⟩ := htotals.consecutive.exists_mem hfirst hlast
    have hreaches : Reaches (filter.limit 50) k r := (htotals.reaches_iff hr).mpr hcovers
    refine ⟨r, ⟨(hmem r).mpr ⟨hr, k, hreaches⟩, hreaches⟩, ?_⟩
    rintro other ⟨hother, hreaches'⟩
    have hother' := ((hmem other).mp hother).1
    exact htotals.consecutive.unique hother' hr ((htotals.reaches_iff hother').mp hreaches') hcovers

/-- A filter for every fiftieth citation in one source. -/
def everyFiftieth : Filter where
  type := .citationMilestoneAlert
  name := "CitationMilestoneAlert"
  title := "Citation milestone alert"
  configSourceIds := some [1]

/-- Two responses of one work, the second recorded while the first is filtered. -/
def twoRuns : List Surroundings :=
  [{ env := plainEnv, filters := [everyFiftieth]
     arrivals := fun n =>
      if n = 0 then
        [{ workId := some 1, sourceId := some 1, previousTotal := some 40, total := 60 }]
      else if n = 3 then
        [{ workId := some 1, sourceId := some 1, previousTotal := some 60, total := 120 }]
      else [] },
   { env := plainEnv, filters := [everyFiftieth] }]

def twoResponses : List ApiResponse :=
  [{ id := 1, workId := some 1, sourceId := some 1, previousTotal := some 40, total := 60
     unresolved := false },
   { id := 2, workId := some 1, sourceId := some 1, previousTotal := some 60, total := 120
     unresolved := false }]

def noText : ℚ → String := fun _ => ""

theorem twoRuns_rows :
    (StateMachine.run (afterRun noText) twoRuns {}).responses.rows = twoResponses := by
  decide +kernel

theorem returns_of_isOk (h : ((run toS).run (handle sur) s.afresh).1.isOk = true) :
    Returns toS s sur := by
  cases hresult : ((run toS).run (handle sur) s.afresh).1 with
  | ok n => exact ⟨n, hresult⟩
  | error e =>
    rw [hresult] at h
    cases h

theorem twoRuns_return : Along (afterRun noText) (Returns noText) twoRuns {} :=
  ⟨returns_of_isOk (by decide +kernel), returns_of_isOk (by decide +kernel), trivial⟩

theorem twoResponses_history :
    History noText everyFiftieth 1 1 twoRuns {} 40 twoResponses where
  rows_eq := by
    rw [twoRuns_rows]
    decide
  watched := by simp [twoRuns, watched, everyFiftieth]
  unresolved := by simp
  resolved := by decide
  totals := by simp [Recorded, twoResponses]

/-- The hundredth citation is reported once, with the second response. -/
theorem hundredth_reported_once :
    (∀ sur ∈ twoRuns, everyFiftieth.RunsIn sur) ∧
      Along (afterRun noText) (Returns noText) twoRuns {} ∧
      History noText everyFiftieth 1 1 twoRuns {} 40 twoResponses ∧
      ∃! r, r ∈ (selections noText everyFiftieth.name twoRuns {}).filter (isOf 1 1) ∧
        Reaches (everyFiftieth.limit 50) 2 r := by
  have hfilter : ∀ sur ∈ twoRuns, everyFiftieth.RunsIn sur := by
    have hone : ∀ sur ∈ twoRuns, sur.filters = [everyFiftieth] := by simp [twoRuns]
    intro sur hsur
    exact ⟨rfl, by simp [hone sur hsur], rfl, by simp [hone sur hsur]⟩
  have hlimit : everyFiftieth.limit 50 = 50 := rfl
  have hlast : lastTotal 40 twoResponses = 120 := rfl
  refine ⟨hfilter, twoRuns_return, twoResponses_history, ?_⟩
  refine ((milestones_reported_once noText everyFiftieth 1 1 twoRuns {} hfilter
    twoRuns_return).2 40 twoResponses ?_ twoResponses_history).2.2 2 ?_ ?_
  · norm_num [hlimit]
  · norm_num [hlimit]
  · norm_num [hlimit, hlast]

end Lagotto.Filter
