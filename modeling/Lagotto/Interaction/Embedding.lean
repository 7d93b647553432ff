/-
Lagotto.Interaction.Embedding — a program as a part of a larger one.

`embed` makes the calls of a program calls of a wider interface. If the state
of the larger program has that of the smaller one as a part, and the embedded
calls do to this part what they did before, then the embedded program ends as
the program does on the part (`run_embed`), whatever else happens in the
larger state meanwhile.
-/
import Lagotto.Interaction.Program

namespace Lagotto.Interaction.Program

variable {ρ ρ' : Type} {answer : ρ → Type} {answer' : ρ' → Type} {ε α σ σ' : Type}

/-- The same program over a wider interface. -/
def embed (wider : ρ → ρ') (back : ∀ r, answer' (wider r) → answer r) :
    Program ρ answer ε α → Program ρ' answer' ε α
  | done a => done a
  | fail e => fail e
  | ask r k => ask (wider r) (fun x => (k (back r x)).embed wider back)

variable {wider : ρ → ρ'} {back : ∀ r, answer' (wider r) → answer r}
  {handle : (r : ρ) → σ → Except ε (answer r) × σ}
  {handle' : (r : ρ') → σ' → Except ε (answer' r) × σ'}

/-- **An embedded program does to its part what the program does.** -/
theorem run_embed (part : σ' → σ)
    (hanswer : ∀ r s, (handle' (wider r) s).1.map (back r) = (handle r (part s)).1)
    (hpart : ∀ r s, part (handle' (wider r) s).2 = (handle r (part s)).2)
    (program : Program ρ answer ε α) (s : σ') :
    ((program.embed wider back).run handle' s).1 = (program.run handle (part s)).1 ∧
      part ((program.embed wider back).run handle' s).2 = (program.run handle (part s)).2 := by
  induction program generalizing s with
  | done a => exact ⟨rfl, rfl⟩
  | fail e => exact ⟨rfl, rfl⟩
  | ask r k ih =>
    have hr := hanswer r s
    have hp := hpart r s
    cases hcall : handle' (wider r) s with
    | mk result t =>
      rw [hcall] at hr hp
      have hsmall : handle r (part s) = (result.map (back r), part t) := Prod.ext hr.symm hp.symm
      cases result with
      | error e =>
        simp only [Except.map] at hsmall
        simp only [embed, run, hcall, hsmall, and_self]
      | ok x =>
        simp only [Except.map] at hsmall
        simp only [embed, run, hcall, hsmall]
        exact ih (back r x) t

end Lagotto.Interaction.Program
