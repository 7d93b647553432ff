/-
Lagotto.Interaction.Trace — the calls a program makes while it is carried out.

`trace` lists them in order, and `collect` what is picked from their answers.
`run_bind_of_ok`, `trace_bind_of_ok` and `collect_bind_of_ok` follow a composed
program through its first part, so that what a loop returns and what it asks
for are computed by the same steps. `run_bind_cases` is the same read
backwards. For a program that keeps to some of the calls, `run_preserves_of_obeys`
is the invariant rule, and `collect_eq_nil_of_obeys` says when nothing is picked.
-/
import Lagotto.Interaction.Turns

namespace Lagotto.Interaction.Program

variable {ρ : Type} {answer : ρ → Type} {ε α β σ γ : Type}
variable {handle : (r : ρ) → σ → Except ε (answer r) × σ}

/-- The calls of a run, with the one that raised, if any, as the last. -/
def trace (handle : (r : ρ) → σ → Except ε (answer r) × σ) :
    Program ρ answer ε α → σ → List ρ
  | done _, _ => []
  | fail _, _ => []
  | ask r k, s =>
    r :: match handle r s with
      | (.error _, _) => []
      | (.ok x, s) => (k x).trace handle s

/-- What is picked from the answers of a run, in order. -/
def collect (handle : (r : ρ) → σ → Except ε (answer r) × σ)
    (pick : (r : ρ) → answer r → List γ) : Program ρ answer ε α → σ → List γ
  | done _, _ => []
  | fail _, _ => []
  | ask r k, s =>
    match handle r s with
    | (.error _, _) => []
    | (.ok x, s) => pick r x ++ (k x).collect handle pick s

variable {program : Program ρ answer ε α} {f : α → Program ρ answer ε β} {s s' : σ} {a : α}

/-- A run that returns has had an answer to its first call. -/
theorem run_ask_of_ok {r : ρ} {k : answer r → Program ρ answer ε α}
    (h : (ask r k).run handle s = (.ok a, s')) :
    ∃ x t, handle r s = (.ok x, t) ∧ (k x).run handle t = (.ok a, s') := by
  cases hcall : handle r s with
  | mk result t =>
    cases result with
    | error e => simp [run, hcall] at h
    | ok x =>
      simp only [run, hcall] at h
      exact ⟨x, t, rfl, h⟩

/-- A first part that returns hands over to the second. -/
theorem run_bind_of_ok (h : program.run handle s = (.ok a, s')) :
    (program.bind f).run handle s = (f a).run handle s' := by
  induction program generalizing s with
  | done b =>
    cases h
    rfl
  | fail e => cases h
  | ask r k ih =>
    obtain ⟨x, t, hcall, hrest⟩ := run_ask_of_ok h
    simp only [bind, run, hcall]
    exact ih x hrest

/-- A composed program ends with the exception of its first part, or as the
second does from where the first has returned. -/
theorem run_bind_cases (handle : (r : ρ) → σ → Except ε (answer r) × σ)
    (program : Program ρ answer ε α) (f : α → Program ρ answer ε β) (s : σ) :
    (∃ e s', program.run handle s = (.error e, s') ∧
      (program.bind f).run handle s = (.error e, s')) ∨
    ∃ a s', program.run handle s = (.ok a, s') ∧
      (program.bind f).run handle s = (f a).run handle s' := by
  induction program generalizing s with
  | done a => exact .inr ⟨a, s, rfl, rfl⟩
  | fail e => exact .inl ⟨e, s, rfl, rfl⟩
  | ask r k ih =>
    cases hcall : handle r s with
    | mk result t =>
      cases result with
      | error e =>
        refine .inl ⟨e, t, ?_, ?_⟩
        · simp only [run, hcall]
        · simp only [bind, run, hcall]
      | ok x =>
        simp only [bind, run, hcall]
        exact ih x t

/-- The calls of the first part come first. -/
theorem trace_bind_of_ok (h : program.run handle s = (.ok a, s')) :
    (program.bind f).trace handle s = program.trace handle s ++ (f a).trace handle s' := by
  induction program generalizing s with
  | done b =>
    cases h
    rfl
  | fail e => cases h
  | ask r k ih =>
    obtain ⟨x, t, hcall, hrest⟩ := run_ask_of_ok h
    simp only [bind, trace, hcall]
    exact congrArg (r :: ·) (ih x hrest)

/-- What the first part gets comes first. -/
theorem collect_bind_of_ok {pick : (r : ρ) → answer r → List γ}
    (h : program.run handle s = (.ok a, s')) :
    (program.bind f).collect handle pick s =
      program.collect handle pick s ++ (f a).collect handle pick s' := by
  induction program generalizing s with
  | done b =>
    cases h
    rfl
  | fail e => cases h
  | ask r k ih =>
    obtain ⟨x, t, hcall, hrest⟩ := run_ask_of_ok h
    simp only [bind, collect, hcall, ih x hrest, List.append_assoc]

/-- A call is the one call of its run. -/
theorem trace_call {r : ρ} {x : answer r} (h : handle r s = (.ok x, s')) :
    (call r : Program ρ answer ε (answer r)).trace handle s = [r] := by
  simp [call, trace, h]

theorem collect_call {pick : (r : ρ) → answer r → List γ} {r : ρ} {x : answer r}
    (h : handle r s = (.ok x, s')) :
    (call r : Program ρ answer ε (answer r)).collect handle pick s = pick r x := by
  simp [call, collect, h]

theorem run_call (r : ρ) (s : σ) :
    (call r : Program ρ answer ε (answer r)).run handle s = handle r s := by
  cases hcall : handle r s with
  | mk result t => cases result <;> simp [call, run, hcall]

/-- Nothing is picked from calls that have nothing to pick. -/
theorem collect_eq_nil_of_obeys {guarantee : ρ → Prop} {Q : α → Prop}
    {pick : (r : ρ) → answer r → List γ} (hpick : ∀ r x, guarantee r → pick r x = [])
    (hobeys : program.Obeys (fun _ _ => True) guarantee Q) (s : σ) :
    program.collect handle pick s = [] := by
  induction program generalizing s with
  | done a => rfl
  | fail e => rfl
  | ask r k ih =>
    cases hresult : handle r s with
    | mk result t =>
      cases result with
      | error e => simp only [collect, hresult]
      | ok x =>
        simp only [collect, hresult, hpick r x hobeys.1, List.nil_append]
        exact ih x (hobeys.2 x trivial) t

/-- What the calls of a program preserve, its run preserves. -/
theorem run_preserves_of_obeys {guarantee : ρ → Prop} {Q : α → Prop} {P : σ → Prop}
    (hcall : ∀ r s, guarantee r → P s → P (handle r s).2)
    (hobeys : program.Obeys (fun _ _ => True) guarantee Q) (h : P s) :
    P (program.run handle s).2 := by
  induction program generalizing s with
  | done a => exact h
  | fail e => exact h
  | ask r k ih =>
    have hanswered := hcall r s hobeys.1 h
    cases hresult : handle r s with
    | mk result t =>
      rw [hresult] at hanswered
      cases result with
      | error e =>
        simp only [run, hresult]
        exact hanswered
      | ok x =>
        simp only [run, hresult]
        exact ih x (hobeys.2 x trivial) hanswered

end Lagotto.Interaction.Program
