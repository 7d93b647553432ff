/-
Lagotto.Interaction.Raising — programs whose calls may raise, and who may
rescue what is raised.

The answer to a call is a value or an exception. `raising` raises the
exception in the program, `rescue` hands it to a handler, and `exec` carries
the program out against surroundings that always answer. `wp` is the weakest
precondition for a postcondition on values and one on exceptions. It is
computed by the rules `wp_bind`, `wp_raising` and `wp_rescue`, and
`exec_of_wp` reads the result off.
-/
import Lagotto.Interaction.Program

namespace Lagotto.Interaction

/-- Programs over calls that are answered by a value or an exception. -/
abbrev Raising (ρ : Type) (answer : ρ → Type) (ε α : Type) :=
  Program ρ (fun r => Except ε (answer r)) ε α

namespace Program

variable {ρ : Type} {answer : ρ → Type} {ε α β σ : Type}

/-- End with what was answered. -/
def ofExcept : Except ε α → Program ρ answer ε α
  | .ok a => done a
  | .error e => fail e

/-- A call whose exception is raised. -/
def raising (r : ρ) : Raising ρ answer ε (answer r) := ask r ofExcept

/-- Hand an exception to `handler`. -/
def rescue : Program ρ answer ε α → (ε → Program ρ answer ε α) → Program ρ answer ε α
  | done a, _ => done a
  | fail e, handler => handler e
  | ask r k, handler => ask r (fun x => (k x).rescue handler)

/-- Carry the program out: every call is answered. -/
def exec (handle : (r : ρ) → σ → answer r × σ) : Program ρ answer ε α → σ → Except ε α × σ
  | done a, s => (.ok a, s)
  | fail e, s => (.error e, s)
  | ask r k, s => (k (handle r s).1).exec handle (handle r s).2

/-- What has to hold before, so that a value comes with `Q` and an exception
with `E`. -/
def wp (handle : (r : ρ) → σ → answer r × σ) (Q : α → σ → Prop) (E : ε → σ → Prop) :
    Program ρ answer ε α → σ → Prop
  | done a, s => Q a s
  | fail e, s => E e s
  | ask r k, s => (k (handle r s).1).wp handle Q E (handle r s).2

@[simp] theorem bind_eq (p : Program ρ answer ε α) (f : α → Program ρ answer ε β) :
    p >>= f = p.bind f := rfl

@[simp] theorem pure_eq (a : α) : (pure a : Program ρ answer ε α) = done a := rfl

section Rules

variable {handle : (r : ρ) → σ → answer r × σ} {Q : α → σ → Prop} {E : ε → σ → Prop} {s : σ}

@[simp] theorem wp_done (a : α) : (done a).wp handle Q E s ↔ Q a s := Iff.rfl

@[simp] theorem wp_fail (e : ε) : (fail e).wp handle Q E s ↔ E e s := Iff.rfl

theorem wp_bind {R : β → σ → Prop} (p : Program ρ answer ε α) (f : α → Program ρ answer ε β) :
    (p.bind f).wp handle R E s ↔ p.wp handle (fun a => (f a).wp handle R E) E s := by
  induction p generalizing s with
  | done a => exact Iff.rfl
  | fail e => exact Iff.rfl
  | ask r k ih => exact ih _

theorem wp_rescue (p : Program ρ answer ε α) (handler : ε → Program ρ answer ε α) :
    (p.rescue handler).wp handle Q E s ↔
      p.wp handle Q (fun e => (handler e).wp handle Q E) s := by
  induction p generalizing s with
  | done a => exact Iff.rfl
  | fail e => exact Iff.rfl
  | ask r k ih => exact ih _

theorem wp_mono {Q' : α → σ → Prop} {E' : ε → σ → Prop} {p : Program ρ answer ε α}
    (h : p.wp handle Q E s) (hQ : ∀ a s, Q a s → Q' a s) (hE : ∀ e s, E e s → E' e s) :
    p.wp handle Q' E' s := by
  induction p generalizing s with
  | done a => exact hQ a s h
  | fail e => exact hE e s h
  | ask r k ih => exact ih _ h

/-- What the rules compute holds of the outcome. -/
theorem exec_of_wp {p : Program ρ answer ε α} (h : p.wp handle Q E s) :
    (∀ a, (p.exec handle s).1 = .ok a → Q a (p.exec handle s).2) ∧
      ∀ e, (p.exec handle s).1 = .error e → E e (p.exec handle s).2 := by
  induction p generalizing s with
  | done a =>
    refine ⟨fun b hb => ?_, fun e he => ?_⟩
    · cases hb
      exact h
    · cases he
  | fail e =>
    refine ⟨fun b hb => ?_, fun e he => ?_⟩
    · cases hb
    · cases he
      exact h
  | ask r k ih => exact ih _ h

theorem exec_rescue_of_ok {p : Program ρ answer ε α} {handler : ε → Program ρ answer ε α} {a : α}
    (h : (p.exec handle s).1 = .ok a) : (p.rescue handler).exec handle s = p.exec handle s := by
  induction p generalizing s with
  | done a => rfl
  | fail e => cases h
  | ask r k ih => exact ih _ h

theorem exec_rescue_of_error {p : Program ρ answer ε α} {handler : ε → Program ρ answer ε α}
    {e : ε} (h : (p.exec handle s).1 = .error e) :
    (p.rescue handler).exec handle s = (handler e).exec handle (p.exec handle s).2 := by
  induction p generalizing s with
  | done a => cases h
  | fail e =>
    cases h
    rfl
  | ask r k ih => exact ih _ h

end Rules

variable {handle : (r : ρ) → σ → Except ε (answer r) × σ} {E : ε → σ → Prop} {s : σ}

/-- What went on after a call had an answer to go on from. -/
theorem exec_raising_bind {r : ρ} {f : answer r → Raising ρ answer ε β} {b : β} {s' : σ}
    (h : ((raising r).bind f).exec handle s = (.ok b, s')) :
    ∃ x, (handle r s).1 = .ok x ∧ (f x).exec handle (handle r s).2 = (.ok b, s') := by
  have hask : ((raising r).bind f).exec handle s =
      ((ofExcept (handle r s).1).bind f).exec handle (handle r s).2 := rfl
  rw [hask] at h
  cases hx : (handle r s).1 with
  | ok x =>
    rw [hx] at h
    exact ⟨x, rfl, h⟩
  | error e =>
    rw [hx] at h
    cases h

/-- A call ends as it is answered. -/
theorem wp_raising {r : ρ} {Q : answer r → σ → Prop} :
    (raising r).wp handle Q E s ↔
      (∀ x, (handle r s).1 = .ok x → Q x (handle r s).2) ∧
        ∀ e, (handle r s).1 = .error e → E e (handle r s).2 := by
  rw [raising, wp]
  cases (handle r s).1 <;> simp [ofExcept]

end Program

end Lagotto.Interaction
