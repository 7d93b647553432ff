/-
Lagotto.Interaction.Turns — programs that run side by side and take turns.

A turn lets one process make its next call, or starts a process that the
state has ready. `Obeys rely guarantee` says which calls a program makes as
long as the answers are as it relies on; it is checked along the program's
text by `obeys_bind`, `obeys_rescue` and `obeys_raising`, and turned into a
weakest precondition by `wp_bind_of_obeys`. A `Discipline` is a
state invariant under which every call that some process may make is answered
as that process relies on, and keeps the invariant. Then, whatever the order
of the turns, the invariant holds and every process keeps to its calls
(`Discipline.run`).
-/
import Mathlib.Data.List.Basic
import Lagotto.StateMachine.Runs
import Lagotto.Interaction.Raising

namespace Lagotto.Interaction

open StateMachine

namespace Program

variable {ρ : Type} {answer : ρ → Type} {ε α β σ : Type}

/-- As long as calls are answered as relied on, the program makes calls in
`guarantee` only and ends with a value in `Q`. -/
def Obeys (rely : (r : ρ) → answer r → Prop) (guarantee : ρ → Prop) (Q : α → Prop) :
    Program ρ answer ε α → Prop
  | done a => Q a
  | fail _ => True
  | ask r k => guarantee r ∧ ∀ x, rely r x → (k x).Obeys rely guarantee Q

variable {rely : (r : ρ) → answer r → Prop} {guarantee : ρ → Prop}

theorem obeys_mono {rely' : (r : ρ) → answer r → Prop} {guarantee' : ρ → Prop} {Q Q' : α → Prop}
    {p : Program ρ answer ε α} (h : p.Obeys rely guarantee Q)
    (hrely : ∀ r x, rely' r x → rely r x) (hguarantee : ∀ r, guarantee r → guarantee' r)
    (hQ : ∀ a, Q a → Q' a) : p.Obeys rely' guarantee' Q' := by
  induction p with
  | done a => exact hQ a h
  | fail e => exact trivial
  | ask r k ih => exact ⟨hguarantee r h.1, fun x hx => ih x (h.2 x (hrely r x hx))⟩

theorem obeys_bind {R : α → Prop} {Q : β → Prop} {p : Program ρ answer ε α}
    {f : α → Program ρ answer ε β} (hp : p.Obeys rely guarantee R)
    (hf : ∀ a, R a → (f a).Obeys rely guarantee Q) : (p.bind f).Obeys rely guarantee Q := by
  induction p with
  | done a => exact hf a hp
  | fail e => exact trivial
  | ask r k ih => exact ⟨hp.1, fun x hx => ih x (hp.2 x hx)⟩

theorem obeys_rescue {Q : α → Prop} {p : Program ρ answer ε α}
    {handler : ε → Program ρ answer ε α} (hp : p.Obeys rely guarantee Q)
    (hh : ∀ e, (handler e).Obeys rely guarantee Q) :
    (p.rescue handler).Obeys rely guarantee Q := by
  induction p with
  | done a => exact hp
  | fail e => exact hh e
  | ask r k ih => exact ⟨hp.1, fun x hx => ih x (hp.2 x hx)⟩

theorem obeys_raising {answer : ρ → Type} {rely : (r : ρ) → Except ε (answer r) → Prop} {r : ρ}
    {Q : answer r → Prop} (hr : guarantee r) (hQ : ∀ x, rely r (.ok x) → Q x) :
    (raising r).Obeys rely guarantee Q := by
  refine ⟨hr, fun x hx => ?_⟩
  cases x with
  | ok x => exact hQ x hx
  | error e => exact trivial

section Wp

variable {answer : ρ → Type} {handle : (r : ρ) → σ → answer r × σ} {P : σ → Prop} {s : σ}

/-- What the calls of a program preserve holds however it ends, if they are
answered as it relies on. -/
theorem wp_of_obeys {rely : (r : ρ) → answer r → Prop}
    (hcall : ∀ r s, guarantee r → P s → P (handle r s).2)
    (hanswered : ∀ r s, guarantee r → P s → rely r (handle r s).1) {Q : α → Prop}
    {p : Program ρ answer ε α} (h : p.Obeys rely guarantee Q) (hs : P s) :
    p.wp handle (fun a s => Q a ∧ P s) (fun _ => P) s := by
  induction p generalizing s with
  | done a => exact ⟨h, hs⟩
  | fail e => exact hs
  | ask r k ih => exact ih _ (h.2 _ (hanswered r s h.1 hs)) (hcall r s h.1 hs)

/-- It is there for what follows, and if the program raises. -/
theorem wp_bind_of_obeys (hcall : ∀ r s, guarantee r → P s → P (handle r s).2) {Q : α → Prop}
    {p : Program ρ answer ε α} (h : p.Obeys (fun _ _ => True) guarantee Q) (hs : P s)
    {f : α → Program ρ answer ε β} {R : β → σ → Prop} {E : ε → σ → Prop}
    (hf : ∀ a s, Q a → P s → (f a).wp handle R E s) (hE : ∀ e s, P s → E e s) :
    (p.bind f).wp handle R E s :=
  (wp_bind p f).mpr (wp_mono (wp_of_obeys hcall (fun _ _ _ _ => trivial) h hs)
    (fun a s ha => hf a s ha.1 ha.2) hE)

end Wp

end Program

/-! ## Turns -/

variable {ι ρ : Type} {answer : ρ → Type} {ε σ : Type}

/-- The processes, each with whose it is, and the state they share. -/
structure Side (ι ρ : Type) (answer : ρ → Type) (ε σ : Type) where
  processes : List (ι × Program ρ answer ε Unit)
  state : σ

inductive Turn where
  /-- A process that is ready starts. -/
  | start
  /-- The process at a position makes its next call. -/
  | go (n : Nat)
  deriving DecidableEq, Repr

/-- What a turn does. `take` gives the next process that is ready. -/
def turn (handle : (r : ρ) → σ → answer r × σ)
    (take : σ → Option ((ι × Program ρ answer ε Unit) × σ)) :
    Turn → Side ι ρ answer ε σ → Side ι ρ answer ε σ
  | .start, side =>
    match take side.state with
    | none => side
    | some (process, state) => { processes := side.processes ++ [process], state := state }
  | .go n, side =>
    match side.processes[n]? with
    | some (i, .ask r k) =>
      { processes := side.processes.set n (i, k (handle r side.state).1)
        state := (handle r side.state).2 }
    | _ => side

/-- Calls that keep the invariant and are answered as relied on, and processes
that keep to them from the start. -/
structure Discipline (handle : (r : ρ) → σ → answer r × σ)
    (take : σ → Option ((ι × Program ρ answer ε Unit) × σ)) (Inv : σ → Prop)
    (rely : ι → (r : ρ) → answer r → Prop) (guarantee : ι → ρ → Prop) : Prop where
  kept : ∀ i r s, Inv s → guarantee i r → Inv (handle r s).2
  answered : ∀ i r s, Inv s → guarantee i r → rely i r (handle r s).1
  started : ∀ s process s', Inv s → take s = some (process, s') →
    Inv s' ∧ process.2.Obeys (rely process.1) (guarantee process.1) (fun _ => True)

/-- The invariant holds and every process keeps to its calls. -/
structure InOrder (Inv : σ → Prop) (rely : ι → (r : ρ) → answer r → Prop)
    (guarantee : ι → ρ → Prop) (side : Side ι ρ answer ε σ) : Prop where
  state : Inv side.state
  processes : ∀ process ∈ side.processes,
    process.2.Obeys (rely process.1) (guarantee process.1) (fun _ => True)

variable {handle : (r : ρ) → σ → answer r × σ}
  {take : σ → Option ((ι × Program ρ answer ε Unit) × σ)} {Inv : σ → Prop}
  {rely : ι → (r : ρ) → answer r → Prop} {guarantee : ι → ρ → Prop}

theorem Discipline.step (d : Discipline handle take Inv rely guarantee)
    {side : Side ι ρ answer ε σ} (t : Turn) (h : InOrder Inv rely guarantee side) :
    InOrder Inv rely guarantee (turn handle take t side) := by
  cases t with
  | start =>
    simp only [turn]
    split
    · exact h
    next process state htake =>
      obtain ⟨hstate, hprocess⟩ := d.started _ _ _ h.state htake
      refine ⟨hstate, fun other hother => ?_⟩
      rcases List.mem_append.mp hother with hother | hother
      · exact h.processes other hother
      · rw [List.mem_singleton.mp hother]
        exact hprocess
  | go n =>
    simp only [turn]
    split
    next i r k hprocess =>
      obtain ⟨hcall, hrest⟩ := h.processes _ (List.mem_of_getElem? hprocess)
      refine ⟨d.kept i r _ h.state hcall, fun other hother => ?_⟩
      rcases List.mem_or_eq_of_mem_set hother with hother | rfl
      · exact h.processes other hother
      · exact hrest _ (d.answered i r _ h.state hcall)
    · exact h

/-- Whatever the order of the turns. -/
theorem Discipline.run (d : Discipline handle take Inv rely guarantee)
    {side : Side ι ρ answer ε σ} (h : InOrder Inv rely guarantee side) (turns : List Turn) :
    InOrder Inv rely guarantee (StateMachine.run (turn handle take) turns side) :=
  run_invariant (fun _ t hside => d.step t hside) h turns

/-- What follows for a turn from the calls a process may make holds of every
turn. -/
theorem Discipline.along (d : Discipline handle take Inv rely guarantee)
    {C : Side ι ρ answer ε σ → Turn → Prop}
    (hC : ∀ side t, InOrder Inv rely guarantee side → C side t)
    {side : Side ι ρ answer ε σ} (h : InOrder Inv rely guarantee side) (turns : List Turn) :
    Along (turn handle take) C turns side :=
  along_iff.mpr fun before t _ _ => hC _ t (d.run h before)

end Lagotto.Interaction
