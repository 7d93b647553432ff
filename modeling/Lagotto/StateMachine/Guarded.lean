/-
Lagotto.StateMachine.Guarded — events of a record's state machine as ordered
lists of guarded transitions.

An event tries its transitions in the order they are written. A transition
applies in some states, and its guard is only consulted there. Guards run
code: they read the world and may change it, and what a refused guard has
done stays done. The first transition that applies and whose guard agrees
gives the target; the record is then saved in its new state, and the
after-hooks run if the save went through.

`choose_skip`, `choose_refused` and `choose_taken` walk down the list, one
transition at a time. `choose_preserves` says what the guards of an event
leave of the world, `choose_target` which states it may lead to.
-/
import Mathlib.Logic.Basic

namespace Lagotto.StateMachine

variable {σ ω : Type} {s : σ} {w w' : ω}

/-- One transition of an event; without a target the record keeps its state. -/
structure Transition (σ ω : Type) where
  applies : σ → Bool
  target : Option σ
  guard : ω → Bool × ω := fun w => (true, w)

variable {t : Transition σ ω} {ts rest : List (Transition σ ω)}

/-- The target of the first transition that applies and is not refused. -/
def choose : List (Transition σ ω) → σ → ω → Option σ × ω
  | [], _, w => (none, w)
  | t :: rest, s, w =>
    if t.applies s then
      match t.guard w with
      | (true, w') => (some (t.target.getD s), w')
      | (false, w') => choose rest s w'
    else
      choose rest s w

theorem choose_skip {w : ω} (h : t.applies s = false) :
    choose (t :: rest) s w = choose rest s w := by
  simp [choose, h]

theorem choose_refused (h : t.applies s = true) (hg : t.guard w = (false, w')) :
    choose (t :: rest) s w = choose rest s w' := by
  simp [choose, h, hg]

theorem choose_taken (h : t.applies s = true) (hg : t.guard w = (true, w')) :
    choose (t :: rest) s w = (some (t.target.getD s), w') := by
  simp [choose, h, hg]

/-- What every guard preserves, choosing a transition preserves. -/
theorem choose_preserves {P : ω → Prop} (hguard : ∀ t ∈ ts, ∀ w, P w → P (t.guard w).2) {w : ω}
    (hw : P w) :
    P (choose ts s w).2 := by
  induction ts generalizing w with
  | nil => exact hw
  | cons t rest ih =>
    have hrest : ∀ t' ∈ rest, ∀ w, P w → P (t'.guard w).2 :=
      fun t' ht' => hguard t' (List.mem_cons_of_mem _ ht')
    have ht := hguard t (List.mem_cons_self ..) w hw
    by_cases happ : t.applies s = true
    · rcases hg : t.guard w with ⟨ok, w'⟩
      rw [hg] at ht
      cases ok with
      | true =>
        rw [choose_taken happ hg]
        exact ht
      | false =>
        rw [choose_refused happ hg]
        exact ih hrest ht
    · rw [choose_skip (by simpa using happ)]
      exact ih hrest hw

/-- The target is that of a transition that applies. -/
theorem choose_target {s dest : σ} (h : choose ts s w = (some dest, w')) :
    ∃ t ∈ ts, t.applies s = true ∧ t.target.getD s = dest := by
  induction ts generalizing w with
  | nil => cases h
  | cons t rest ih =>
    have hrest : ∀ {w₁ : ω}, choose rest s w₁ = (some dest, w') →
        ∃ t' ∈ t :: rest, t'.applies s = true ∧ t'.target.getD s = dest := by
      intro w₁ h₁
      obtain ⟨t', ht', happ, htarget⟩ := ih h₁
      exact ⟨t', List.mem_cons_of_mem _ ht', happ, htarget⟩
    by_cases happ : t.applies s = true
    · rcases hg : t.guard w with ⟨ok, w₁⟩
      cases ok with
      | true =>
        rw [choose_taken happ hg] at h
        exact ⟨t, List.mem_cons_self .., happ, Option.some.inj (Prod.mk.inj h).1⟩
      | false =>
        rw [choose_refused happ hg] at h
        exact hrest h
    · rw [choose_skip (by simpa using happ)] at h
      exact hrest h

/-- What happens to a record that has been given a target. `save` refuses a
record that is not valid in its new state. -/
structure Hooks (σ ω : Type) where
  save : σ → σ → ω → Option ω
  after : σ → σ → ω → ω

/-- Fire an event: whether it succeeded, the state the record ends up in, and
the world. A record that is refused goes back to the state it came from. -/
def fire (ts : List (Transition σ ω)) (hooks : Hooks σ ω) (s : σ) (w : ω) : Bool × σ × ω :=
  match choose ts s w with
  | (none, w') => (false, s, w')
  | (some dest, w') =>
    match hooks.save s dest w' with
    | none => (false, s, w')
    | some w'' => (true, dest, hooks.after s dest w'')

variable {hooks : Hooks σ ω} {dest : σ}

theorem fire_of_none (h : choose ts s w = (none, w')) :
    fire ts hooks s w = (false, s, w') := by
  simp [fire, h]

theorem fire_of_refused (h : choose ts s w = (some dest, w'))
    (hs : hooks.save s dest w' = none) :
    fire ts hooks s w = (false, s, w') := by
  simp [fire, h, hs]

theorem fire_of_saved {w'' : ω} (h : choose ts s w = (some dest, w'))
    (hs : hooks.save s dest w' = some w'') :
    fire ts hooks s w = (true, dest, hooks.after s dest w'') := by
  simp [fire, h, hs]

end Lagotto.StateMachine
