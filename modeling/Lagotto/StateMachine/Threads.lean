/-
Lagotto.StateMachine.Threads — straight-line programs that run side by side.

A thread is the list of the steps it has still to take, and a move lets one
thread take its next step. Steps have preconditions (`ready`). A thread that
meets its preconditions when it runs alone (`Prepared`) meets them in every
interleaving, provided that steps only add to what the preconditions look at
(`Growing`): what a thread has established for itself, no other takes away
(`ready_along`). An invariant then has to be kept by steps that are ready
only (`run_of_ready`).
-/
import Mathlib.Data.List.Basic
import Lagotto.StateMachine.Runs

namespace Lagotto.StateMachine

variable {ι π σ : Type}

/-- The threads with the steps they have left, and the state they share. -/
structure Threads (ι σ : Type) where
  threads : List (List ι)
  state : σ

inductive Sched (π : Type) where
  /-- A new thread comes in. -/
  | start (p : π)
  /-- The thread at a position takes its next step. -/
  | go (n : Nat)

/-- The step a move takes. -/
def taken (t : Threads ι σ) : Sched π → Option ι
  | .start _ => none
  | .go n => (t.threads[n]?).bind List.head?

def advance (steps : π → List ι) (apply : ι → σ → σ) : Sched π → Threads ι σ → Threads ι σ
  | .start p, t => { t with threads := t.threads ++ [steps p] }
  | .go n, t =>
    match t.threads[n]? with
    | some (i :: rest) => { threads := t.threads.set n rest, state := apply i t.state }
    | _ => t

variable {steps : π → List ι} {apply : ι → σ → σ} {ready : ι → σ → Prop} {le : σ → σ → Prop}

/-- Alone, the thread meets the precondition of each of its steps. -/
def Prepared (apply : ι → σ → σ) (ready : ι → σ → Prop) (thread : List ι) (s : σ) : Prop :=
  Along apply (fun s i => ready i s) thread s

/-- Steps only add, and what they need cannot be lost by adding. -/
structure Growing (apply : ι → σ → σ) (ready : ι → σ → Prop) (le : σ → σ → Prop) : Prop where
  grows : ∀ i s, le s (apply i s)
  monotone : ∀ i s s', le s s' → le (apply i s) (apply i s')
  stable : ∀ i s s', le s s' → ready i s → ready i s'

theorem Growing.prepared (hgrow : Growing apply ready le) {thread : List ι} {s s' : σ}
    (hle : le s s') (h : Prepared apply ready thread s) : Prepared apply ready thread s' := by
  induction thread generalizing s s' with
  | nil => trivial
  | cons i rest ih =>
    exact ⟨hgrow.stable i s s' hle h.1, ih (hgrow.monotone i s s' hle) h.2⟩

/-- All threads are. -/
def AllPrepared (apply : ι → σ → σ) (ready : ι → σ → Prop) (t : Threads ι σ) : Prop :=
  ∀ thread ∈ t.threads, Prepared apply ready thread t.state

theorem AllPrepared.ready_taken {t : Threads ι σ} (h : AllPrepared apply ready t)
    {m : Sched π} {i : ι} (htaken : taken t m = some i) : ready i t.state := by
  cases m with
  | start p => cases htaken
  | go n =>
    obtain ⟨thread, hthread, hhead⟩ := Option.bind_eq_some_iff.mp htaken
    cases thread with
    | nil => cases hhead
    | cons j rest =>
      cases hhead
      exact (h _ (List.mem_of_getElem? hthread)).1

/-- The state after a move: that of the step that is taken, if any. -/
theorem state_advance (m : Sched π) (t : Threads ι σ) :
    (taken t m = none ∧ (advance steps apply m t).state = t.state) ∨
      ∃ i, taken t m = some i ∧ (advance steps apply m t).state = apply i t.state := by
  cases m with
  | start p => exact .inl ⟨rfl, rfl⟩
  | go n =>
    cases hthread : t.threads[n]? with
    | none => exact .inl (by simp [taken, advance, hthread])
    | some thread =>
      cases thread with
      | nil => exact .inl (by simp [taken, advance, hthread])
      | cons i rest => exact .inr ⟨i, by simp [taken, advance, hthread]⟩

section Interleaving

variable (hgrow : Growing apply ready le) (hsteps : ∀ p s, Prepared apply ready (steps p) s)
include hgrow hsteps

theorem AllPrepared.advance {t : Threads ι σ} (h : AllPrepared apply ready t) (m : Sched π) :
    AllPrepared apply ready (advance steps apply m t) := by
  cases m with
  | start p =>
    intro thread hthread
    rcases List.mem_append.mp hthread with hthread | hthread
    · exact h thread hthread
    · rw [List.mem_singleton.mp hthread]
      exact hsteps p t.state
  | go n =>
    simp only [StateMachine.advance]
    split
    next i rest hget =>
      intro thread hthread
      rcases List.mem_or_eq_of_mem_set hthread with hthread | rfl
      · exact hgrow.prepared (hgrow.grows i t.state) (h thread hthread)
      · exact (h _ (List.mem_of_getElem? hget)).2
    next => exact h

/-- **In every interleaving, every step is ready when it is taken.** -/
theorem ready_along {t : Threads ι σ} (h : AllPrepared apply ready t) (moves : List (Sched π)) :
    Along (advance steps apply) (fun t m => ∀ i, taken t m = some i → ready i t.state) moves t := by
  rw [along_iff]
  intro before m after _ i htaken
  exact (run_invariant (fun _ m ht => ht.advance hgrow hsteps m) h before).ready_taken htaken

/-- What steps that are ready keep holds in every interleaving. -/
theorem run_of_ready {P : σ → Prop} (hstep : ∀ i s, ready i s → P s → P (apply i s))
    {t : Threads ι σ} (h : AllPrepared apply ready t) (hP : P t.state) (moves : List (Sched π)) :
    P (run (StateMachine.advance steps apply) moves t).state := by
  refine invariant_along (P := fun t : Threads ι σ => P t.state) (fun t m hPt hready => ?_) hP
    (ready_along hgrow hsteps h moves)
  rcases state_advance m t with ⟨-, hstate⟩ | ⟨i, htaken, hstate⟩
  · rw [hstate]
    exact hPt
  · rw [hstate]
    exact hstep i t.state (hready i htaken) hPt

end Interleaving

end Lagotto.StateMachine
