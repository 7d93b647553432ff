/-
Lagotto.Interaction.Program — programs that act on their surroundings only
through a fixed set of calls.

A `Program` ends with a value, ends with an exception, or makes a call and
goes on with the answer. `run` carries it out against a handler that has the
state. Two rules suffice to reason about programs one does not want to look
into: what every call preserves, every program preserves (`run_preserves`),
and a program whose possible results all have a property returns a result
that has it (`of_run`), with `yields_bind` to compose.
-/
import Mathlib.Logic.Basic

namespace Lagotto.Interaction

/-- A program over calls `ρ`, answered by `answer r`, with exceptions `ε`. -/
inductive Program (ρ : Type) (answer : ρ → Type) (ε α : Type) where
  | done (a : α)
  | fail (e : ε)
  | ask (r : ρ) (k : answer r → Program ρ answer ε α)

namespace Program

variable {ρ : Type} {answer : ρ → Type} {ε α β σ : Type}

/-- Sequential composition. -/
def bind : Program ρ answer ε α → (α → Program ρ answer ε β) → Program ρ answer ε β
  | done a, f => f a
  | fail e, _ => fail e
  | ask r k, f => ask r (fun x => (k x).bind f)

instance : Monad (Program ρ answer ε) where
  pure := done
  bind := bind

theorem bind_assoc {γ : Type} (program : Program ρ answer ε α) (f : α → Program ρ answer ε β)
    (g : β → Program ρ answer ε γ) :
    (program.bind f).bind g = program.bind (fun a => (f a).bind g) := by
  induction program with
  | done a => rfl
  | fail e => rfl
  | ask r k ih => exact congrArg (ask r) (funext ih)

/-- A single call. -/
def call (r : ρ) : Program ρ answer ε (answer r) := ask r done

/-- Carry the program out: the handler answers a call or raises. -/
def run (handle : (r : ρ) → σ → Except ε (answer r) × σ) :
    Program ρ answer ε α → σ → Except ε α × σ
  | done a, s => (.ok a, s)
  | fail e, s => (.error e, s)
  | ask r k, s =>
    match handle r s with
    | (.error e, s) => (.error e, s)
    | (.ok x, s) => (k x).run handle s

/-- A call, and what is done with its answer. -/
theorem run_call_bind (handle : (r : ρ) → σ → Except ε (answer r) × σ) (r : ρ)
    (f : answer r → Program ρ answer ε α) {s s' : σ} {x : answer r}
    (h : handle r s = (.ok x, s')) : ((call r).bind f).run handle s = (f x).run handle s' := by
  simp [call, bind, run, h]

/-- What every call preserves, the run preserves. -/
theorem run_preserves {handle : (r : ρ) → σ → Except ε (answer r) × σ} {P : σ → Prop}
    (hcall : ∀ r s, P s → P (handle r s).2) (program : Program ρ answer ε α) {s : σ} (h : P s) :
    P (program.run handle s).2 := by
  induction program generalizing s with
  | done a => exact h
  | fail e => exact h
  | ask r k ih =>
    have hanswered := hcall r s h
    unfold run
    split
    next heq =>
      rw [heq] at hanswered
      exact hanswered
    next heq =>
      rw [heq] at hanswered
      exact ih _ hanswered

/-- Every value the program can end with, whatever it is answered. -/
def Yields (p : α → Prop) : Program ρ answer ε α → Prop
  | done a => p a
  | fail _ => True
  | ask _ k => ∀ x, (k x).Yields p

theorem yields_true (program : Program ρ answer ε α) : program.Yields (fun _ => True) := by
  induction program with
  | done a => exact trivial
  | fail e => exact trivial
  | ask r k ih => exact ih

theorem yields_bind {p : β → Prop} {q : α → Prop} {program : Program ρ answer ε α}
    {f : α → Program ρ answer ε β} (h : program.Yields q) (hf : ∀ a, q a → (f a).Yields p) :
    (program.bind f).Yields p := by
  induction program with
  | done a => exact hf a h
  | fail e => exact trivial
  | ask r k ih => exact fun x => ih x (h x)

theorem of_run {p : α → Prop} {program : Program ρ answer ε α} (h : program.Yields p)
    {handle : (r : ρ) → σ → Except ε (answer r) × σ} {s s' : σ} {a : α}
    (hrun : program.run handle s = (.ok a, s')) : p a := by
  induction program generalizing s with
  | done b =>
    cases hrun
    exact h
  | fail e => cases hrun
  | ask r k ih =>
    unfold run at hrun
    split at hrun
    next => cases hrun
    next x _ _ => exact ih x (h x) hrun

end Program

end Lagotto.Interaction
