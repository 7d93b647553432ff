/-
Lagotto.StateMachine.Runs — runs of a system that takes one action at a time.

`run` carries a list of actions out. `Along C` says that every action of a
run meets a condition on the state it is taken in. An invariant that every
action keeps where the condition is met holds in every state of such a run
(`invariant_along`), and it may be used to show what else holds of the steps
(`along_of_invariant`); `invariant_iff` adds the converse where the
condition is necessary. `along_iff` reads `Along` as a statement about the
actions at all positions, and `until_iff` does the same for what, once true,
stays true until some action ends it.
-/
import Mathlib.Logic.Basic

namespace Lagotto.StateMachine

variable {σ α : Type}

/-- The state after a list of actions. -/
def run (step : α → σ → σ) : List α → σ → σ
  | [], s => s
  | a :: rest, s => run step rest (step a s)

/-- Every action of the run meets the condition in the state it is taken in. -/
def Along (step : α → σ → σ) (C : σ → α → Prop) : List α → σ → Prop
  | [], _ => True
  | a :: rest, s => C s a ∧ Along step C rest (step a s)

instance decidableAlong (step : α → σ → σ) (C : σ → α → Prop) [∀ s a, Decidable (C s a)] :
    ∀ actions s, Decidable (Along step C actions s)
  | [], _ => isTrue trivial
  | a :: rest, s =>
    haveI := decidableAlong step C rest (step a s)
    inferInstanceAs (Decidable (C s a ∧ Along step C rest (step a s)))

variable {step : α → σ → σ} {C : σ → α → Prop} {P : σ → Prop} {actions : List α} {s : σ}

@[simp] theorem run_nil (s : σ) : run step [] s = s := rfl

@[simp] theorem run_cons (a : α) (rest : List α) (s : σ) :
    run step (a :: rest) s = run step rest (step a s) := rfl

theorem run_append (first second : List α) (s : σ) :
    run step (first ++ second) s = run step second (run step first s) := by
  induction first generalizing s with
  | nil => rfl
  | cons a rest ih => exact ih (step a s)

theorem along_iff :
    Along step C actions s ↔
      ∀ before a after, actions = before ++ a :: after → C (run step before s) a := by
  induction actions generalizing s with
  | nil => simp [Along]
  | cons a rest ih =>
    constructor
    · rintro ⟨ha, hrest⟩ before a' after heq
      cases before with
      | nil =>
        obtain ⟨rfl, _⟩ := List.cons.inj heq
        exact ha
      | cons b before =>
        obtain ⟨rfl, hrest'⟩ := List.cons.inj heq
        exact ih.mp hrest before a' after hrest'
    · intro h
      refine ⟨h [] a rest rfl, ih.mpr ?_⟩
      intro before a' after heq
      exact h (a :: before) a' after (by rw [heq, List.cons_append])

theorem along_append {first second : List α} :
    Along step C (first ++ second) s ↔
      Along step C first s ∧ Along step C second (run step first s) := by
  induction first generalizing s with
  | nil => simp [Along]
  | cons a rest ih =>
    rw [List.cons_append, Along, Along, ih, run_cons, and_assoc]

/-- What every action keeps holds at the end. -/
theorem run_invariant (hstep : ∀ s a, P s → P (step a s)) (hs : P s) (actions : List α) :
    P (run step actions s) := by
  induction actions generalizing s with
  | nil => exact hs
  | cons a rest ih => exact ih (hstep s a hs)

/-- What every action keeps where the condition is met holds at the end. -/
theorem invariant_along (hstep : ∀ s a, P s → C s a → P (step a s)) (hs : P s)
    (h : Along step C actions s) : P (run step actions s) := by
  induction actions generalizing s with
  | nil => exact hs
  | cons a rest ih => exact ih (hstep s a hs h.1) h.2

/-- What follows from the invariant and the condition holds of every action. -/
theorem along_of_invariant {C Q : σ → α → Prop} (hstep : ∀ s a, P s → C s a → P (step a s))
    (hQ : ∀ s a, P s → C s a → Q s a) (hs : P s) (h : Along step C actions s) :
    Along step Q actions s := by
  induction actions generalizing s with
  | nil => trivial
  | cons a rest ih => exact ⟨hQ s a hs h.1, ih (hstep s a hs h.1) h.2⟩

theorem along_congr {C Q : σ → α → Prop} (h : ∀ s a, C s a ↔ Q s a) :
    Along step C actions s ↔ Along step Q actions s := by
  induction actions generalizing s with
  | nil => exact Iff.rfl
  | cons a rest ih => exact and_congr (h s a) ih

/-- What holds in every state of a run. -/
theorem forall_states_iff :
    (∀ before after, actions = before ++ after → P (run step before s)) ↔
      P s ∧ Along step (fun s a => P (step a s)) actions s := by
  rw [along_iff]
  constructor
  · intro h
    refine ⟨h [] actions rfl, ?_⟩
    intro before a after heq
    have hafter := h (before ++ [a]) after (by rw [heq, List.append_assoc, List.singleton_append])
    rwa [run_append] at hafter
  · intro ⟨hs, hsteps⟩ before after heq
    rcases List.eq_nil_or_concat before with rfl | ⟨start, a, rfl⟩
    · exact hs
    · rw [List.concat_eq_append, run_append]
      exact hsteps start a after (by rw [heq, List.concat_eq_append, List.append_assoc,
        List.singleton_append])

/-- An invariant holds in every state of a run exactly if every action meets the
condition under which it keeps it. -/
theorem invariant_iff (hstep : ∀ a ∈ actions, ∀ s, P s → (P (step a s) ↔ C s a)) (hs : P s) :
    (∀ before after, actions = before ++ after → P (run step before s)) ↔
      Along step C actions s := by
  rw [forall_states_iff, and_iff_right hs]
  induction actions generalizing s with
  | nil => exact Iff.rfl
  | cons a rest ih =>
    have hrest := fun hP => ih (fun b hb => hstep b (List.mem_cons_of_mem a hb)) (s := step a s) hP
    constructor
    · intro ⟨ha, hafter⟩
      exact ⟨(hstep a List.mem_cons_self s hs).mp ha, (hrest ha).mp hafter⟩
    · intro ⟨ha, hafter⟩
      have hP := (hstep a List.mem_cons_self s hs).mpr ha
      exact ⟨hP, (hrest hP).mpr hafter⟩

/-- What holds at some point of the run stays true until an action that may
end it. -/
def Until (step : α → σ → σ) (P : σ → Prop) (ends : α → Prop) (actions : List α) (s : σ) : Prop :=
  ∀ before middle after, actions = before ++ (middle ++ after) → P (run step before s) →
    (∀ a ∈ middle, ¬ ends a) → P (run step (before ++ middle) s)

/-- It does exactly if every other action keeps it. -/
theorem until_iff {ends : α → Prop} :
    Until step P ends actions s ↔
      Along step (fun s a => P s → ¬ ends a → P (step a s)) actions s := by
  rw [along_iff]
  constructor
  · intro h before a after heq hP hends
    have hkeeps := h before [a] after heq hP (by simpa using hends)
    rwa [run_append] at hkeeps
  · intro h before middle after heq hP hends
    induction middle generalizing before with
    | nil => simpa using hP
    | cons a rest ih =>
      have hstep := h before a (rest ++ after) heq hP (hends a (List.mem_cons_self ..))
      have hrest := ih (before ++ [a]) (by simpa using heq) (by rwa [run_append])
        (fun b hb => hends b (List.mem_cons_of_mem _ hb))
      simpa using hrest

end Lagotto.StateMachine
