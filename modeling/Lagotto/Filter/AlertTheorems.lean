/-
Lagotto.Filter.AlertTheorems — the unresolved alerts of a filter.

No index keeps two alerts of one filter, source and work apart.
`raise_alerts` looks for the unresolved one first, and the default scope of
`Alert` hides the others. `raiseAlert_spec` is what one turn of its loop does;
a source or work that is missing is a value like any other there. From it,
by induction on the responses of one call and on the calls, there is at most
one unresolved alert for each filter, source and work, it carries the last
response, and what is resolved stays as it is.

Names of filters are the same if the database takes them for the same.
-/
import Lagotto.Filter.Run
import Lagotto.StateMachine.Runs
import Lagotto.Work.FindOrCreateTheorems

namespace Lagotto.Filter

open Relational
open StateMachine

variable {env : Env} {now : Time} {name : String} {alerts : Table Alert} {finding : Finding}

/-! ## One response -/

/-- The source and the work of an alert. -/
def Finding.pair (finding : Finding) : Option Nat × Option Nat := (finding.sourceId, finding.workId)

/-- The unresolved alerts of a filter for a source and a work. -/
def unresolvedAlerts (env : Env) (name : String) (pair : Option Nat × Option Nat)
    (alerts : Table Alert) : List Alert :=
  alerts.rows.filter (finds env name pair.1 pair.2)

/-- There is at most one. -/
def AlertsUnique (env : Env) (alerts : Table Alert) : Prop :=
  ∀ name pair, (unresolvedAlerts env name pair alerts).length ≤ 1

/-- The alert carries a response. -/
def Carries (finding : Finding) (alert : Alert) : Prop :=
  alert.level = finding.alertLevel ∧ alert.message = finding.alertMessage

@[simp] theorem id_revise (alert : Alert) : Row.id (revise now finding alert) = Row.id alert := by
  unfold revise
  split <;> rfl

theorem carries_revise (alert : Alert) : Carries finding (revise now finding alert) := by
  unfold revise
  split
  next h => exact h
  next => exact ⟨rfl, rfl⟩

@[simp] theorem finds_revise (sourceId workId : Option Nat) (alert : Alert) :
    finds env name sourceId workId (revise now finding alert) =
      finds env name sourceId workId alert := by
  unfold revise
  split <;> rfl

/-- A lookup finds no alert that another one finds, unless it is the same. -/
theorem finds_eq_false {name' : String} {pair pair' : Option Nat × Option Nat}
    (hne : ¬ (env.same (some name) (some name') = true ∧ pair = pair')) {alert : Alert}
    (h : finds env name pair.1 pair.2 alert = true) :
    finds env name' pair'.1 pair'.2 alert = false := by
  obtain ⟨source, work⟩ := pair
  obtain ⟨source', work'⟩ := pair'
  simp only [finds, Env.same, Bool.and_eq_true, beq_iff_eq] at h hne
  obtain ⟨⟨⟨hunresolved, hname⟩, hsource⟩, hwork⟩ := h
  rw [Bool.eq_false_iff]
  intro h'
  simp only [finds, Env.same, Bool.and_eq_true, beq_iff_eq] at h'
  obtain ⟨⟨⟨-, hname'⟩, hsource'⟩, hwork'⟩ := h'
  refine hne ⟨hname.symm.trans hname', ?_⟩
  rw [← hsource, ← hwork, hsource', hwork']

theorem finds_congr {name' : String} (h : env.same (some name) (some name') = true)
    (sourceId workId : Option Nat) :
    finds env name sourceId workId = finds env name' sourceId workId := by
  funext alert
  simp only [Env.same, beq_iff_eq] at h
  simp only [finds, Env.same, h]

/-- One response: its filter, source and work have one unresolved alert, which
carries it, and no other lookup finds anything else than before. -/
theorem raiseAlert_spec (now : Time)
    (hone : (unresolvedAlerts env name finding.pair alerts).length ≤ 1) :
    (∃ alert, unresolvedAlerts env name finding.pair
      (raiseAlert env now name alerts finding) = [alert] ∧ Carries finding alert) ∧
    ∀ name' pair, ¬ (env.same (some name) (some name') = true ∧ finding.pair = pair) →
      unresolvedAlerts env name' pair (raiseAlert env now name alerts finding) =
        unresolvedAlerts env name' pair alerts := by
  have hcreated : ∀ n, finds env name finding.sourceId finding.workId (Row.withId n
      { className := name, sourceId := finding.sourceId, workId := finding.workId
        level := finding.alertLevel, message := finding.alertMessage, updatedAt := now }) =
          true := by
    intro n
    simp [finds, Env.same, Row.withId]
  have hchange : ∀ alert, finds env name finding.sourceId finding.workId alert = true →
      finds env name finding.sourceId finding.workId (revise now finding alert) = true := by
    simp
  constructor
  · obtain ⟨alert, hfound, horigin⟩ := Table.filter_upsert hone (hcreated _) hchange
      (fun _ => id_revise _)
    refine ⟨alert, hfound, ?_⟩
    rcases horigin with rfl | ⟨old, rfl⟩
    · exact ⟨rfl, rfl⟩
    · exact carries_revise old
  · intro name' pair hne
    exact Table.filter_upsert_other (fun _ h => finds_eq_false hne h) (hcreated _) hchange
      (fun _ => id_revise _)

theorem alertsUnique_raiseAlert (h : AlertsUnique env alerts) :
    AlertsUnique env (raiseAlert env now name alerts finding) := by
  intro name' pair
  obtain ⟨⟨alert, hself, -⟩, hothers⟩ := raiseAlert_spec now (h name finding.pair)
  by_cases hsame : env.same (some name) (some name') = true ∧ finding.pair = pair
  · obtain ⟨hname, rfl⟩ := hsame
    have hlength := congrArg List.length hself
    unfold unresolvedAlerts at hlength ⊢
    rw [← finds_congr hname, hlength]
    rfl
  · rw [hothers name' pair hsame]
    exact h name' pair

/-! ## One call -/

/-- `raise_alerts` -/
def raiseAll (env : Env) (now : Time) (name : String) (alerts : Table Alert)
    (findings : List Finding) : Table Alert :=
  findings.foldl (raiseAlert env now name) alerts

theorem alertsUnique_raiseAll (h : AlertsUnique env alerts) (findings : List Finding) :
    AlertsUnique env (raiseAll env now name alerts findings) := by
  induction findings generalizing alerts with
  | nil => exact h
  | cons finding findings ih => exact ih (alertsUnique_raiseAlert h)

/-- Every source and work among the responses ends with one unresolved alert,
which carries the last response for them. -/
theorem raiseAll_carries_last (h : AlertsUnique env alerts) {findings : List Finding}
    {pair : Option Nat × Option Nat} {last : Finding}
    (hlast : (findings.filter (fun finding => finding.pair = pair)).getLast? = some last) :
    ∃ alert, unresolvedAlerts env name pair (raiseAll env now name alerts findings) = [alert] ∧
      Carries last alert := by
  -- from the last response back: it is for the pair, or it leaves the pair alone
  induction findings using List.reverseRecOn with
  | nil => simp at hlast
  | append_singleton findings finding ih =>
    have hunique : AlertsUnique env (raiseAll env now name alerts findings) :=
      alertsUnique_raiseAll h findings
    obtain ⟨hself, hothers⟩ := raiseAlert_spec now (hunique name finding.pair)
    rw [raiseAll, List.foldl_concat]
    rw [List.filter_append] at hlast
    by_cases hpair : finding.pair = pair
    · subst hpair
      obtain rfl : finding = last := by simpa using hlast
      exact hself
    · have hbefore : (findings.filter (fun finding => finding.pair = pair)).getLast? =
          some last := by simpa [hpair] using hlast
      obtain ⟨alert, hfound, hcarries⟩ := ih hbefore
      exact ⟨alert, (hothers name pair (fun hsame => hpair hsame.2)).trans hfound, hcarries⟩

/-- A resolved alert is not written. -/
theorem mem_raiseAll {alert : Alert} (hmem : alert ∈ alerts.rows)
    (hresolved : alert.unresolved = false) (findings : List Finding) :
    alert ∈ (raiseAll env now name alerts findings).rows := by
  induction findings generalizing alerts with
  | nil => exact hmem
  | cons finding findings ih =>
    refine ih (Table.mem_upsert hmem ?_ (fun _ => id_revise _))
    simp [finds, hresolved]

/-! ## Any sequence of calls -/

/-- A call of `raise_alerts`, or alerts that are marked as resolved. -/
inductive AlertAction where
  | raise (now : Time) (name : String) (findings : List Finding)
  | resolve (which : Alert → Bool)

def alertStep (env : Env) : AlertAction → Table Alert → Table Alert
  | .raise now name findings, alerts => raiseAll env now name alerts findings
  | .resolve which, alerts =>
    alerts.updateAll which (fun alert => { alert with unresolved := false })

/-- Marking alerts as resolved does nothing to those that are. -/
theorem updateRow_resolved {which : Alert → Bool} {alert : Alert}
    (h : alert.unresolved = false) :
    Table.updateRow which (fun alert => { alert with unresolved := false }) alert = alert := by
  obtain ⟨id, message, className, targetUrl, status, level, sourceId, workId, unresolved,
    updatedAt⟩ := alert
  cases h
  unfold Table.updateRow
  split <;> rfl

theorem finds_updateRow {which : Alert → Bool} {sourceId workId : Option Nat} {alert : Alert}
    (h : finds env name sourceId workId (Table.updateRow which
      (fun alert => { alert with unresolved := false }) alert) = true) :
    finds env name sourceId workId alert = true := by
  unfold Table.updateRow at h
  split at h
  · simp [finds, Row.withId] at h
  · exact h

theorem alertsUnique_step (h : AlertsUnique env alerts) (action : AlertAction) :
    AlertsUnique env (alertStep env action alerts) := by
  cases action with
  | raise now name findings => exact alertsUnique_raiseAll h findings
  | resolve which =>
    intro name pair
    refine le_trans ?_ (h name pair)
    rw [unresolvedAlerts, unresolvedAlerts, ← List.countP_eq_length_filter,
      ← List.countP_eq_length_filter, alertStep, Table.rows_updateAll, List.countP_map]
    exact List.countP_mono_left (fun alert _ hfinds => finds_updateRow hfinds)

theorem mem_alertStep {alert : Alert} (hmem : alert ∈ alerts.rows)
    (hresolved : alert.unresolved = false) (action : AlertAction) :
    alert ∈ (alertStep env action alerts).rows := by
  cases action with
  | raise now name findings => exact mem_raiseAll hmem hresolved findings
  | resolve which => exact List.mem_map.mpr ⟨alert, hmem, updateRow_resolved hresolved⟩

/-- What an action does to alerts without duplicates: those that are resolved
stay as they are, and after `raise_alerts` every source and work among its
responses has exactly one unresolved alert, which carries their last response. -/
structure ActsProperly (env : Env) (alerts : Table Alert) (action : AlertAction) : Prop where
  resolved : ∀ alert ∈ alerts.rows, alert.unresolved = false →
    alert ∈ (alertStep env action alerts).rows
  raised : ∀ now name findings, action = .raise now name findings → ∀ finding ∈ findings,
    ∃ alert last, unresolvedAlerts env name finding.pair (alertStep env action alerts) = [alert] ∧
      (findings.filter (fun other => other.pair = finding.pair)).getLast? = some last ∧
      Carries last alert

/-- **There is never more than one unresolved alert for a filter, a source and a
work, whatever is raised and resolved.** -/
theorem alerts_unique_in_every_run (hstart : AlertsUnique env alerts)
    (actions : List AlertAction) :
    AlertsUnique env (StateMachine.run (alertStep env) actions alerts) ∧
      Along (alertStep env) (ActsProperly env) actions alerts := by
  have hstep : ∀ (alerts : Table Alert) (action : AlertAction), AlertsUnique env alerts →
      AlertsUnique env (alertStep env action alerts) := fun _ action h => alertsUnique_step h action
  refine ⟨run_invariant hstep hstart actions, ?_⟩
  have hany : Along (alertStep env) (fun _ _ => True) actions alerts :=
    along_iff.mpr (fun _ _ _ _ => trivial)
  refine along_of_invariant (fun alerts action h _ => hstep alerts action h)
    (fun alerts action hunique _ => ⟨fun alert hmem hresolved =>
      mem_alertStep hmem hresolved action, ?_⟩) hstart hany
  rintro now name findings rfl finding hfinding
  have hmem : finding ∈ findings.filter (fun other => other.pair = finding.pair) :=
    List.mem_filter.mpr ⟨hfinding, by simp⟩
  obtain ⟨last, hlast⟩ := List.getLast?_isSome.mpr (List.ne_nil_of_mem hmem) |>
    Option.isSome_iff_exists.mp
  obtain ⟨alert, hfound, hcarries⟩ := raiseAll_carries_last hunique hlast
  exact ⟨alert, last, hfound, hlast, hcarries⟩

theorem alertsUnique_empty (env : Env) : AlertsUnique env .empty := fun _ _ => Nat.zero_le 1

/-- Two responses for one work and one without a work: two alerts. -/
theorem milestones_alerted_once :
    AlertsUnique plainEnv (StateMachine.run (alertStep plainEnv)
      [.raise 0 "CitationMilestoneAlert"
        [{ sourceId := some 1, workId := some 1 }, { sourceId := some 1, workId := some 1 },
          { sourceId := some 1 }], .resolve (fun alert => alert.workId.isSome)] .empty) ∧
    (StateMachine.run (alertStep plainEnv)
      [.raise 0 "CitationMilestoneAlert"
        [{ sourceId := some 1, workId := some 1 }, { sourceId := some 1, workId := some 1 },
          { sourceId := some 1 }]] .empty).rows.length = 2 :=
  ⟨(alerts_unique_in_every_run (alertsUnique_empty plainEnv) _).1, by decide⟩

end Lagotto.Filter
