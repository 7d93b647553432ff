/-
Lagotto.Jobs.CronTheorems — what the daily task does to the API responses.

The responses are deleted by age, resolved or not, so that none is lost
unseen rests on the order of the tasks. The filters come first, and what they
have resolved they have looked at; what has come in since the first query of
the day is younger than a day, if the task does not take that long
(`Prompt`). A filter that raises ends the task before the deletion. So in
every run every id that was handed out is that of an unresolved response, or
of one that all filters of some day have looked at (`responses_looked_at`).
`Covers` is the invariant, in a form that the statements of either part
keep: inserting, updating, and deleting what it does not rest on.
-/
import Lagotto.Filter.RunTheorems
import Lagotto.Jobs.Cron
import Lagotto.Work.FindOrCreateTheorems

namespace Lagotto.Cron

open Interaction
open Relational
open StateMachine

variable {sur : Surroundings} {s : State}

/-! ## Every id that was handed out -/

/-- Every id that was handed out is that of a row with the property, or is known otherwise. -/
def Covers (p : ApiResponse → Prop) (known : Nat → Prop) (t : Table ApiResponse) : Prop :=
  ∀ n, 1 ≤ n → n < t.nextId → (∃ r ∈ t.rows, r.id = n ∧ p r) ∨ known n

section Covers

variable {p p' : ApiResponse → Prop} {known known' : Nat → Prop} {t : Table ApiResponse}

theorem Covers.mono (h : Covers p known t)
    (hp : ∀ r ∈ t.rows, 1 ≤ r.id → p r → p' r ∨ known' r.id)
    (hknown : ∀ n, known n → known' n) : Covers p' known' t := by
  intro n hn hlt
  rcases h n hn hlt with ⟨r, hr, rfl, hpr⟩ | hknown'
  · rcases hp r hr hn hpr with hpr' | hk
    · exact .inl ⟨r, hr, rfl, hpr'⟩
    · exact .inr hk
  · exact .inr (hknown n hknown')

theorem Covers.insert (h : Covers p known t) {r : ApiResponse}
    (hr : p (Row.withId t.nextId r)) : Covers p known (t.insert r) := by
  intro n hn hlt
  rcases Nat.lt_succ_iff_lt_or_eq.mp hlt with hlt | rfl
  · rcases h n hn hlt with ⟨u, hu, hun, hpu⟩ | hknown
    · exact .inl ⟨u, Table.mem_insert.mpr (.inl hu), hun, hpu⟩
    · exact .inr hknown
  · exact .inl ⟨Row.withId t.nextId r, Table.mem_insert.mpr (.inr rfl), rfl, hr⟩

theorem Covers.insertResponses (hp : ∀ r : ApiResponse, r.unresolved = true → p r)
    (h : Covers p known t) (rows : List ApiResponse) :
    Covers p known (Filter.insertResponses rows t) := by
  induction rows generalizing t with
  | nil => exact h
  | cons r rows ih => exact ih (h.insert (hp _ rfl))

theorem Covers.updateAll (h : Covers p known t) {which : ApiResponse → Bool}
    {f : ApiResponse → ApiResponse}
    (hp : ∀ r, p r → p (Table.updateRow which f r)) : Covers p known (t.updateAll which f) := by
  intro n hn hlt
  rcases h n hn hlt with ⟨r, hr, hrn, hpr⟩ | hknown
  · refine .inl ⟨Table.updateRow which f r, List.mem_map_of_mem hr, ?_, hp r hpr⟩
    exact (Table.id_updateRow which f r).trans hrn
  · exact .inr hknown

theorem Covers.deleteAll (h : Covers p known t) {which : ApiResponse → Bool}
    (hp : ∀ r ∈ t.rows, p r → which r = false) : Covers p known (t.deleteAll which) := by
  intro n hn hlt
  rcases h n hn hlt with ⟨r, hr, hrn, hpr⟩ | hknown
  · exact .inl ⟨r, List.mem_filter.mpr ⟨hr, by simp [hp r hr hpr]⟩, hrn, hpr⟩
  · exact .inr hknown

end Covers

/-! ## What was looked at -/

/-- Every filter that was active that day has queried the response of that id. -/
def Day.LookedAt (day : Day) (n : Nat) : Prop :=
  ∀ filter ∈ day.filters, filter.active = true →
    ∃ entry ∈ day.ranged, entry.1 = filter.name ∧ ∃ r ∈ entry.2, r.id = n

/-- There was such a day. -/
def State.LookedAt (s : State) (n : Nat) : Prop := ∃ day ∈ s.days, day.LookedAt n

/-! ## What a call of the filters does to the responses -/

/-- A call inserts what has come in, and may change rows, but neither their ids nor their ages. -/
theorem responses_handle (sur : Filter.Surroundings) (c : Filter.Call) (s : Filter.State) :
    (Filter.handle sur c s).2.calls = s.calls + 1 ∧
      ∃ which f, (∀ r : ApiResponse, (f r).createdAt = r.createdAt) ∧
        (Filter.handle sur c s).2.responses =
          (s.arrive sur).responses.updateAll which f := by
  have hsame : ∀ t : Table ApiResponse, t = t.updateAll (fun _ => false) id := by
    intro t
    refine Table.ext ?_ rfl
    exact (List.map_id t.rows).symm
  have hkeeps : ∀ s' : Filter.State, s'.responses = (s.arrive sur).responses →
      ∃ which f, (∀ r : ApiResponse, (f r).createdAt = r.createdAt) ∧
        s'.responses = (s.arrive sur).responses.updateAll which f :=
    fun s' h => ⟨fun _ => false, id, fun _ => rfl, h.trans (hsame _)⟩
  unfold Filter.handle
  split
  · exact ⟨rfl, hkeeps _ rfl⟩
  · cases c with
    | resolve id =>
      exact ⟨rfl, ApiResponse.filter id, (fun r => { r with unresolved := false }), fun _ => rfl,
        rfl⟩
    | staleSourceReport _ =>
      unfold Filter.answer
      dsimp only
      split <;> exact ⟨rfl, hkeeps _ rfl⟩
    | createReview review =>
      unfold Filter.answer Filter.State.createReview
      dsimp only
      split <;> exact ⟨rfl, hkeeps _ rfl⟩
    | _ => exact ⟨rfl, hkeeps _ rfl⟩

/-- What is there after an insertion was there before, or has just come in. -/
theorem mem_insertResponses {rows : List ApiResponse} {t : Table ApiResponse} {r : ApiResponse}
    (h : r ∈ (Filter.insertResponses rows t).rows) :
    r ∈ t.rows ∨ (r.unresolved = true ∧ ∃ u ∈ rows, r.createdAt = u.createdAt) := by
  induction rows generalizing t with
  | nil => exact .inl h
  | cons u rows ih =>
    rcases ih h with hmem | ⟨hunresolved, v, hv, hcreated⟩
    · rcases Table.mem_insert.mp hmem with hmem | rfl
      · exact .inl hmem
      · exact .inr ⟨rfl, u, List.mem_cons_self, rfl⟩
    · exact .inr ⟨hunresolved, v, List.mem_cons_of_mem u hv, hcreated⟩

/-! ## The filters -/

/-- What comes in after the call of number `start` is no older than the bound. -/
def Fresh (sur : Filter.Surroundings) (start : Nat) (bound : Time) : Prop :=
  ∀ k, start < k → ∀ r ∈ sur.arrivals k, bound ≤ r.createdAt

/-- While the filters run: no row is lost, and every row was there at the first
query or is recent. -/
structure Watched (sur : Filter.Surroundings) (start : Nat) (bound : Time) (ids : List Nat)
    (known : Nat → Prop) (s : Filter.State) : Prop where
  calls : start ≤ s.calls
  recent : ∀ r ∈ (s.arrive sur).responses.rows, r.id ∈ ids ∨ bound ≤ r.createdAt
  present : Covers (fun _ => True) known s.responses

section Filters

variable {fsur : Filter.Surroundings} {fs : Filter.State} {start : Nat} {bound : Time}
  {ids : List Nat} {known : Nat → Prop}

theorem Watched.handle (hfresh : Fresh fsur start bound) (c : Filter.Call) (fs : Filter.State)
    (h : Watched fsur start bound ids known fs) :
    Watched fsur start bound ids known (Filter.handle fsur c fs).2 := by
  obtain ⟨hcalls, which, f, hf, hresponses⟩ := responses_handle fsur c fs
  refine ⟨by rw [hcalls]; exact Nat.le_succ_of_le h.calls, ?_, ?_⟩
  · intro r hr
    rcases mem_insertResponses hr with hr | ⟨-, u, hu, hcreated⟩
    · rw [hresponses] at hr
      obtain ⟨u, hu, rfl⟩ := List.mem_map.mp hr
      have hid : (Table.updateRow which f u).id = u.id := Table.id_updateRow which f u
      have hcreated : (Table.updateRow which f u).createdAt = u.createdAt := by
        unfold Table.updateRow
        split
        · exact hf u
        · rfl
      rw [hid, hcreated]
      exact h.recent u hu
    · rw [hcalls] at hu
      rw [hcreated]
      exact .inr (hfresh _ (Nat.lt_succ_of_le h.calls) u hu)
  · rw [hresponses]
    exact (h.present.insertResponses (fun _ _ => trivial) _).updateAll (fun _ _ => trivial)

/-- The filters make at least one call. -/
theorem lt_calls_run (fsur : Filter.Surroundings) (toS : ℚ → String) (fs : Filter.State) :
    fs.calls < ((Filter.run toS).run (Filter.handle fsur) fs).2.calls := by
  have hmore : ∀ (c : Filter.Call) (s : Filter.State), fs.calls < s.calls →
      fs.calls < (Filter.handle fsur c s).2.calls := by
    intro c s h
    rw [(responses_handle fsur c s).1]
    exact Nat.lt_succ_of_lt h
  have hfirst := (responses_handle fsur .maximumId fs).1
  rw [Filter.run]
  rcases Program.run_bind_cases (Filter.handle fsur) (Filter.call .maximumId) _ fs with
    ⟨e, s', hcall, hbind⟩ | ⟨a, s', hcall, hbind⟩
  all_goals
    rw [Filter.call, Program.run_call] at hcall
    rw [hcall] at hfirst
    rw [hbind]
  · exact hfirst ▸ Nat.lt_succ_self _
  · exact Program.run_preserves hmore _ (hfirst ▸ Nat.lt_succ_self _)

/-- How the filters leave the responses: whatever is resolved now was looked at,
and what is not has come in since the first query. -/
def Filtered (filters : List Filter) (bound : Time) (known : Nat → Prop) :
    Except Raised (Option Nat) × Filter.State → Prop
  | (.ok _, s) =>
    Covers (·.unresolved = true) (fun n => known n ∨ (Day.mk filters s.ranged).LookedAt n)
        s.responses ∧
      ∀ r ∈ s.responses.rows, r.unresolved = true → bound ≤ r.createdAt
  | (.error _, s) => Covers (·.unresolved = true) known s.responses

/-- A resolved row was accounted for before. -/
theorem known_of_resolved {t : Table ApiResponse} (h : Covers (·.unresolved = true) known t)
    {r : ApiResponse} (hr : r ∈ t.rows) (hid : 1 ≤ r.id) (hresolved : ¬ r.unresolved = true) :
    known r.id := by
  rcases h r.id hid (t.bounded r hr) with ⟨u, hu, hur, hunresolved⟩ | hknown
  · rw [t.eq_of_id_eq hu hr hur] at hunresolved
    exact absurd hunresolved hresolved
  · exact hknown

theorem filtered_run (toS : ℚ → String) (hfresh : Fresh fsur fs.calls bound)
    (hranged : fs.ranged = []) (h : Covers (·.unresolved = true) known fs.responses) :
    Filtered fsur.filters bound known ((Filter.run toS).run (Filter.handle fsur) fs) := by
  have hsnapshot : Covers (·.unresolved = true) known (fs.arrive fsur).responses :=
    h.insertResponses (fun _ h => h) _
  have hwatched : Watched fsur fs.calls bound ((fs.arrive fsur).responses.rows.map (·.id)) known
      ((Filter.run toS).run (Filter.handle fsur) fs).2 :=
    Program.run_preserves (fun c s => Watched.handle hfresh c s) _
      ⟨le_refl _, fun r hr => .inl (List.mem_map_of_mem hr), h.mono (fun _ _ _ _ => .inl trivial)
        (fun _ hn => hn)⟩
  have hresolves : Filter.ResolvesWhatItRead fsur (fs.arrive fsur).responses.rows
      ((Filter.run toS).run (Filter.handle fsur) fs) := Filter.resolves_run toS hranged
  generalize (Filter.run toS).run (Filter.handle fsur) fs = outcome at hwatched hresolves
  obtain ⟨result, after⟩ := outcome
  cases result with
  | error e =>
    obtain ⟨later, hrows, hlater⟩ := hresolves
    refine hwatched.present.mono (fun r hr hid _ => ?_) (fun _ hn => hn)
    rw [hrows] at hr
    rcases List.mem_append.mp hr with hr | hr
    · by_cases hunresolved : r.unresolved = true
      · exact .inl hunresolved
      · exact .inr (known_of_resolved hsnapshot hr hid hunresolved)
    · exact .inl (hlater r hr)
  | ok output =>
    obtain ⟨⟨later, hrows, hlater⟩, hranges, hlooked⟩ := hresolves
    refine ⟨hwatched.present.mono (fun r hr hid _ => ?_) (fun _ hn => .inl hn),
      fun r hr hunresolved => ?_⟩
    · rw [hrows] at hr
      rcases List.mem_append.mp hr with hr | hr
      · obtain ⟨u, hu, rfl⟩ := List.mem_map.mp hr
        by_cases hunresolved : u.unresolved = true
        · have hread : u ∈ (fs.arrive fsur).responses.rows.filter (·.unresolved) :=
            List.mem_filter.mpr ⟨hu, hunresolved⟩
          refine .inr (.inr fun filter hfilter hactive => ?_)
          obtain ⟨entry, hentry, hname⟩ :=
            hlooked (List.ne_nil_of_mem hread) filter hfilter hactive
          exact ⟨entry, hentry, hname, u, (hranges entry hentry) ▸ hread, rfl⟩
        · have hknown := known_of_resolved hsnapshot hu hid hunresolved
          exact .inr (.inl hknown)
      · exact .inl (hlater r hr)
    · obtain ⟨more, hmore, -⟩ :=
        Filter.rows_insertResponses (fsur.arrivals after.calls) after.responses
      have harrived : r ∈ (after.arrive fsur).responses.rows := by
        show r ∈ (Filter.insertResponses _ _).rows
        rw [hmore]
        exact List.mem_append_left _ hr
      rcases hwatched.recent r harrived with hold | hrecent
      · obtain ⟨u, hu, hid⟩ := List.mem_map.mp hold
        have hresolved : { u with unresolved := false } ∈ after.responses.rows := by
          rw [hrows]
          exact List.mem_append_left _
            (List.mem_map_of_mem (f := fun r => { r with unresolved := false }) hu)
        rw [← after.responses.eq_of_id_eq hresolved hr hid] at hunresolved
        cases hunresolved
      · exact hrecent

end Filters

/-! ## The tasks behind the filters -/

/-- Calls of these tasks. -/
def Clears : Call → Prop
  | .filter _ => False
  | .unresolveResponses => False
  | _ => True

/-- A program that makes such calls only. -/
def IsClearing {α : Type} (program : CronM α) : Prop :=
  program.Obeys (fun _ _ => True) Clears (fun _ => True)

theorem IsClearing.bind {α β : Type} {program : CronM α} {f : α → CronM β}
    (h : IsClearing program) (hf : ∀ a, IsClearing (f a)) : IsClearing (program.bind f) :=
  Program.obeys_bind h (fun a _ => hf a)

theorem isClearing_call {c : Call} (h : Clears c) : IsClearing (call c) :=
  ⟨h, fun _ _ => trivial⟩

theorem isClearing_deleteApiRequests : IsClearing deleteApiRequests := by
  refine (isClearing_call (c := .countRequests) trivial).bind (fun _ => ?_)
  refine (isClearing_call (c := .requestAt 100000) trivial).bind (fun request => ?_)
  refine IsClearing.bind ?_ (fun _ =>
    (isClearing_call (c := .countRequests) trivial).bind (fun _ => trivial))
  cases request with
  | none => exact trivial
  | some createdAt => exact isClearing_call (c := .deleteRequests createdAt) trivial

theorem isClearing_clear : IsClearing clear := by
  refine (isClearing_call (c := .errorReport) trivial).bind (fun _ => ?_)
  refine isClearing_deleteApiRequests.bind (fun _ => IsClearing.bind ?_ (fun _ => ?_))
  · refine (isClearing_call (c := .countResponses) trivial).bind (fun _ => ?_)
    refine (isClearing_call (c := .deleteResponses) trivial).bind (fun _ => ?_)
    exact (isClearing_call (c := .countResponses) trivial).bind (fun _ => trivial)
  · refine IsClearing.bind ?_ (fun _ => trivial)
    refine (isClearing_call (c := .countAlerts) trivial).bind (fun _ => ?_)
    refine (isClearing_call (c := .resolveAlerts) trivial).bind (fun _ => ?_)
    exact (isClearing_call (c := .countAlerts) trivial).bind (fun _ => trivial)

/-- What such a call does: it inserts what has come in, and deletes responses
of a day ago or none. -/
theorem clears_handle (sur : Surroundings) (c : Call) (s : State) (hc : Clears c) :
    (handle sur c s).2.filter.calls = s.filter.calls + 1 ∧
      (handle sur c s).2.filter.ranged = s.filter.ranged ∧ (handle sur c s).2.days = s.days ∧
      ∃ which : ApiResponse → Bool,
        (∀ r, which r = true → r.createdAt < sur.clock s.filter.calls - Time.day) ∧
        (handle sur c s).2.filter.responses = (s.arrive sur).filter.responses.deleteAll which := by
  have hkeeps : ∀ s' : State, s'.filter.responses = (s.arrive sur).filter.responses →
      ∃ which : ApiResponse → Bool,
        (∀ r, which r = true → r.createdAt < sur.clock s.filter.calls - Time.day) ∧
        s'.filter.responses = (s.arrive sur).filter.responses.deleteAll which := by
    intro s' h
    refine ⟨fun _ => false, ?_, h.trans (Table.ext ?_ rfl)⟩
    · intro r hr
      cases hr
    · exact (List.filter_true _).symm
  unfold handle
  split
  · exact ⟨rfl, rfl, rfl, hkeeps _ rfl⟩
  · cases c with
    | filter c => exact hc.elim
    | unresolveResponses => exact hc.elim
    | deleteResponses =>
      exact ⟨rfl, rfl, rfl, fun r => r.createdAt < sur.clock s.filter.calls - Time.day,
        fun _ hr => of_decide_eq_true hr, rfl⟩
    | errorReport =>
      unfold answer
      dsimp only
      split <;> exact ⟨rfl, rfl, rfl, hkeeps _ rfl⟩
    | _ => exact ⟨rfl, rfl, rfl, hkeeps _ rfl⟩

/-- Up to the call of number `stop`, only what is older than the bound has been deleted, and
whatever is unresolved is not. -/
structure Clearing (start stop : Nat) (bound : Time) (known : Nat → Prop)
    (ranged : List (String × List ApiResponse)) (days : List Day) (s : State) : Prop where
  calls : start < s.filter.calls
  ranged : s.filter.ranged = ranged
  days : s.days = days
  covers : s.filter.calls ≤ stop → Covers (·.unresolved = true) known s.filter.responses
  recent : s.filter.calls ≤ stop →
    ∀ r ∈ s.filter.responses.rows, r.unresolved = true → bound ≤ r.createdAt

section Clear

variable {start stop : Nat} {bound : Time} {known : Nat → Prop}
  {ranged : List (String × List ApiResponse)} {days : List Day}

theorem Clearing.handle (hfresh : Fresh sur.toSurroundings start bound)
    (hclock : ∀ k, start ≤ k → k < stop → sur.clock k - Time.day ≤ bound) (c : Call) (s : State)
    (hc : Clears c) (h : Clearing start stop bound known ranged days s) :
    Clearing start stop bound known ranged days (handle sur c s).2 := by
  obtain ⟨hcalls, hranged, hdays, which, hwhich, hresponses⟩ := clears_handle sur c s hc
  have hrecent : s.filter.calls ≤ stop →
      ∀ r ∈ (s.arrive sur).filter.responses.rows, r.unresolved = true → bound ≤ r.createdAt := by
    intro hstop r hr hunresolved
    rcases mem_insertResponses hr with hr | ⟨-, u, hu, hcreated⟩
    · exact h.recent hstop r hr hunresolved
    · rw [hcreated]
      exact hfresh _ h.calls u hu
  refine ⟨by rw [hcalls]; exact Nat.lt_succ_of_lt h.calls, hranged.trans h.ranged,
    hdays.trans h.days, fun hstop => ?_, fun hstop r hr => ?_⟩
  all_goals
    rw [hcalls] at hstop
    have hbefore : s.filter.calls ≤ stop := Nat.le_of_succ_le hstop
  · rw [hresponses]
    refine ((h.covers hbefore).insertResponses (fun _ h => h) _).deleteAll (fun r hr hp => ?_)
    have hnew := hrecent hbefore r hr hp
    have hold := hclock _ h.calls.le hstop
    cases hgone : which r with
    | false => rfl
    | true => exact absurd (hwhich r hgone) (not_lt.mpr (hold.trans hnew))
  · rw [hresponses] at hr
    exact hrecent hbefore r (List.mem_filter.mp hr).1

end Clear

/-! ## The daily task -/

/-- `filter:all` does to the filters' part of the state what `Filter.run` does. -/
theorem run_filterAll (sur : Surroundings) (toS : ℚ → String) (s : State) :
    ((filterAll toS).run (handle sur) s).1 =
        ((Filter.run toS).run (Filter.handle sur.toSurroundings) s.filter).1 ∧
      ((filterAll toS).run (handle sur) s).2.filter =
        ((Filter.run toS).run (Filter.handle sur.toSurroundings) s.filter).2 := by
  refine Program.run_embed State.filter (fun c s => ?_) (fun c s => ?_) (Filter.run toS) s
  · cases hfault : sur.faults s.filter.calls with
    | some e =>
      simp only [handle, Filter.handle, hfault]
      rfl
    | none =>
      simp only [handle, Filter.handle, hfault]
      exact congrFun Except.map_id _
  · cases hfault : sur.faults s.filter.calls with
    | some e =>
      simp only [handle, Filter.handle, hfault]
      rfl
    | none =>
      simp only [handle, Filter.handle, hfault]
      rfl

theorem days_handle (sur : Surroundings) (c : Call) (s : State) :
    (handle sur c s).2.days = s.days := by
  unfold handle
  split
  · rfl
  · cases c with
    | errorReport =>
      unfold answer
      dsimp only
      split <;> rfl
    | _ => rfl

/-- No response is created long before it is recorded, and the time does not go back. -/
structure Recorded (sur : Surroundings) (lag : Int) : Prop where
  clock : ∀ k k', k ≤ k' → sur.clock k ≤ sur.clock k'
  created : ∀ k, ∀ r ∈ sur.arrivals (k + 1), sur.clock k - lag ≤ r.createdAt

theorem Recorded.fresh {lag : Int} (h : Recorded sur lag) (start : Nat) :
    Fresh sur.toSurroundings start (sur.clock start - lag) := by
  intro k hk r hr
  obtain ⟨k, rfl⟩ := Nat.exists_eq_add_of_lt hk
  have hclock : sur.clock start ≤ sur.clock (start + k) := h.clock _ _ (Nat.le_add_right start k)
  exact (Int.sub_le_sub_right hclock lag).trans (h.created (start + k) r hr)

/-- A daily task that ends soon enough for what has come in meanwhile. -/
def Prompt (sur : Surroundings) (toS : ℚ → String) (lag : Int) (s : State) : Task → Prop
  | .daily filters => ∀ k, s.filter.calls ≤ k →
    k < (step sur toS (.daily filters) s).filter.calls →
      sur.clock k ≤ sur.clock s.filter.calls + Time.day - lag
  | .unresolve => True

/-- Every id that was handed out is that of an unresolved response, or of one that was looked at. -/
def Accounted (s : State) : Prop := Covers (·.unresolved = true) s.LookedAt s.filter.responses

section Daily

variable {toS : ℚ → String} {lag : Int} {filters : List Filter}

/-- What was looked at stays so when a day is added, and the day counts as well. -/
theorem lookedAt_of_day {days : List Day} (day : Day) {after : State}
    (hdays : after.days = days ++ [day]) {n : Nat}
    (h : (∃ day ∈ days, day.LookedAt n) ∨ day.LookedAt n) : after.LookedAt n := by
  rw [State.LookedAt, hdays]
  rcases h with ⟨day, hday, hlooked⟩ | hlooked
  · exact ⟨day, List.mem_append_left _ hday, hlooked⟩
  · exact ⟨day, List.mem_append_right _ (List.mem_singleton_self day), hlooked⟩

theorem accounted_daily (hrecorded : Recorded sur lag)
    (hprompt : Prompt sur toS lag s (.daily filters)) (h : Accounted s) :
    Accounted (step sur toS (.daily filters) s) := by
  let today : Surroundings := { sur with filters := filters }
  let before : State := { s with filter.ranged := [] }
  have hfresh : Fresh today.toSurroundings s.filter.calls (sur.clock s.filter.calls - lag) :=
    hrecorded.fresh s.filter.calls
  obtain ⟨hresult, hfilter⟩ := run_filterAll today toS before
  have hdays : ((filterAll toS).run (handle today) before).2.days = s.days :=
    Program.run_preserves (P := fun u => u.days = s.days)
      (fun c u hu => (days_handle today c u).trans hu) _ (s := before) rfl
  have hfiltered : Filtered filters (sur.clock s.filter.calls - lag) s.LookedAt
      ((Filter.run toS).run (Filter.handle today.toSurroundings) before.filter) :=
    filtered_run toS hfresh rfl h
  have hcalls := lt_calls_run today.toSurroundings toS before.filter
  rw [← hfilter] at hcalls
  have hstep : ∀ outcome, (daily toS).run (handle today) before = outcome →
      step sur toS (.daily filters) s =
        { outcome.2 with days := outcome.2.days ++ [⟨filters, outcome.2.filter.ranged⟩] } := by
    rintro outcome rfl
    rfl
  rcases Program.run_bind_cases (handle today) (filterAll toS) (fun _ => clear) before with
    ⟨e, u, hrun, hdaily⟩ | ⟨output, u, hrun, hdaily⟩
  · rw [hrun] at hresult hfilter hdays
    rw [← Prod.mk.eta (p := (Filter.run toS).run _ before.filter), ← hresult, ← hfilter]
      at hfiltered
    rw [Accounted, hstep _ hdaily]
    refine Covers.mono hfiltered (fun _ _ _ hp => .inl hp) (fun n hn => ?_)
    exact lookedAt_of_day _ (congrArg (· ++ _) hdays) (.inl hn)
  · rw [hrun] at hresult hfilter hdays hcalls
    rw [← Prod.mk.eta (p := (Filter.run toS).run _ before.filter), ← hresult, ← hfilter]
      at hfiltered
    have hclock : ∀ k, s.filter.calls ≤ k → k < (clear.run (handle today) u).2.filter.calls →
        sur.clock k - Time.day ≤ sur.clock s.filter.calls - lag := by
      intro k hk hstop
      have hsoon := hprompt k hk (by rw [hstep _ hdaily]; exact hstop)
      have harith : ∀ a b c d : Int, a ≤ b + c - d → a - c ≤ b - d := by omega
      exact harith _ _ _ _ hsoon
    have hcleared := Program.run_preserves_of_obeys
      (fun c t hc ht => Clearing.handle hfresh hclock c t hc ht) isClearing_clear
      (⟨hcalls, rfl, rfl, fun _ => hfiltered.1, fun _ => hfiltered.2⟩ :
        Clearing s.filter.calls _ _ _ u.filter.ranged u.days u)
    rw [Accounted, hstep _ hdaily]
    refine Covers.mono (hcleared.covers le_rfl) (fun _ _ _ hp => .inl hp) (fun n hn => ?_)
    refine lookedAt_of_day ⟨filters, u.filter.ranged⟩ ?_ hn
    dsimp only
    rw [hcleared.days, hcleared.ranged, hdays]

theorem accounted_unresolve (h : Accounted s) : Accounted (step sur toS .unresolve s) := by
  have hobeys : unresolve.Obeys (fun _ _ => True)
      (fun c => c matches .unresolveResponses | .lastResponse) (fun _ => True) :=
    ⟨rfl, fun _ _ => ⟨rfl, fun _ _ => trivial⟩⟩
  refine (Program.run_preserves_of_obeys
    (P := fun u => u.days = s.days ∧ Accounted u) ?_ hobeys ⟨rfl, h⟩).2
  rintro c u hc ⟨hdays, hu⟩
  refine ⟨(days_handle _ c u).trans hdays, ?_⟩
  have harrived : Covers (·.unresolved = true) u.LookedAt (u.arrive sur).filter.responses :=
    hu.insertResponses (fun _ h => h) _
  unfold handle
  split
  · exact harrived
  · cases c with
    | unresolveResponses => exact harrived.updateAll (fun _ _ => rfl)
    | lastResponse => exact harrived
    | _ => cases hc

end Daily

/-- **No response is deleted before the filters have looked at it**, however
many days pass, whatever raises and whatever comes in meanwhile. -/
theorem responses_looked_at {lag : Int} (hrecorded : Recorded sur lag) (toS : ℚ → String)
    (tasks : List Task) (hprompt : Along (step sur toS) (Prompt sur toS lag) tasks {}) (n : Nat)
    (hn : 1 ≤ n) (hid : n < (run (step sur toS) tasks {}).filter.responses.nextId) :
    (∃ r ∈ (run (step sur toS) tasks {}).filter.responses.rows, r.id = n ∧ r.unresolved = true) ∨
      (run (step sur toS) tasks {}).LookedAt n := by
  have hstart : Accounted {} := fun n hn hlt => absurd hn (Nat.not_le.mpr hlt)
  have haccounted : Accounted (run (step sur toS) tasks {}) := by
    refine invariant_along (P := Accounted) (fun s task hs htask => ?_) hstart hprompt
    cases task with
    | daily filters => exact accounted_daily hrecorded htask hs
    | unresolve => exact accounted_unresolve hs
  exact haccounted n hn hid

/-- A minute a call, and the second task more than a day after the first. -/
def twoDays : Surroundings where
  env := plainEnv
  filters := []
  clock := fun k => ((60 * k + 90000 * (k / 19) : Nat) : Int)
  arrivals := fun k => if k = 0 then [{ sourceId := some 1 }] else []

def slowFilter : Filter where
  type := .apiResponseTooSlowError
  name := "ApiResponseTooSlowError"
  title := "API too slow error"

def everyDay : List Task := [.daily [slowFilter], .daily [slowFilter]]

/-- The response of the first day is deleted on the second, and was looked at. -/
theorem first_response_looked_at :
    (run (step twoDays (fun _ => "")) everyDay {}).filter.responses.rows = [] ∧
      (run (step twoDays (fun _ => "")) everyDay {}).LookedAt 1 := by
  have hfirst : (step twoDays (fun _ => "") (.daily [slowFilter]) {}).filter.calls = 19 := by
    decide +kernel
  have hsecond : (run (step twoDays (fun _ => "")) everyDay {}).filter.calls = 33 := by
    decide +kernel
  have hrows : (run (step twoDays (fun _ => "")) everyDay {}).filter.responses.rows = [] := by
    decide +kernel
  have hrecorded : Recorded twoDays 0 := by
    refine ⟨fun k k' hk => ?_, fun k r hr => by simp [twoDays] at hr⟩
    have hdiv : k / 19 ≤ k' / 19 := Nat.div_le_div_right hk
    exact Int.ofNat_le.mpr (by omega)
  have hprompt :
      Along (step twoDays (fun _ => "")) (Prompt twoDays (fun _ => "") 0) everyDay {} := by
    have hclock : ∀ k start : Nat, start ≤ k → k < start + 19 → start % 19 = 0 →
        twoDays.clock k ≤ twoDays.clock start + Time.day - 0 := by
      intro k start hstart hk hday
      show ((60 * k + 90000 * (k / 19) : Nat) : Int) ≤
        ((60 * start + 90000 * (start / 19) : Nat) : Int) + 86400 - 0
      omega
    refine ⟨fun k hk hk' => ?_, fun k hk hk' => ?_, trivial⟩
    · exact hclock k 0 (Nat.zero_le k) (hfirst ▸ hk') rfl
    · have hend : k < 33 := hsecond ▸ hk'
      rw [hfirst] at hk
      rw [hfirst]
      exact hclock k 19 hk (by omega) rfl
  have hhanded : 1 < (run (step twoDays (fun _ => "")) everyDay {}).filter.responses.nextId := by
    decide +kernel
  refine ⟨hrows, ?_⟩
  rcases responses_looked_at hrecorded (fun _ => "") everyDay hprompt 1 le_rfl hhanded with
    ⟨r, hr, -⟩ | hlooked
  · rw [hrows] at hr
    cases hr
  · exact hlooked

end Lagotto.Cron
