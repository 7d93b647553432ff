/-
Lagotto.StateMachine.Pool — processes that take turns.

A pool is the list of the phases its processes are in. One process moves on
and the others stay where they are, so the pool before and after a step is
the same list around one place (`exists_split`), and the number of processes
of a kind changes by what that one contributes (`countP_move`). Where there is
at most one process of a kind, it excludes the others (`alone`).
-/
import Mathlib.Data.List.Basic

namespace Lagotto.StateMachine

namespace Pool

variable {π : Type} {p q : π} {kind : π → Bool}

/-- The process at a position, and the pool when it moves on. -/
theorem exists_split {pool : List π} {n : Nat} (h : pool[n]? = some p) :
    ∃ before after, pool = before ++ p :: after ∧
      ∀ p', pool.set n p' = before ++ p' :: after := by
  obtain ⟨hlt, rfl⟩ := List.getElem?_eq_some_iff.mp h
  refine ⟨pool.take n, pool.drop (n + 1), ?_, fun p' => ?_⟩
  · rw [List.getElem_cons_drop, List.take_append_drop]
  · rw [List.set_eq_take_append_cons_drop, if_pos hlt]

theorem countP_move (before after : List π) (p p' : π) (kind : π → Bool) :
    (before ++ p' :: after).countP kind + (kind p).toNat =
      (before ++ p :: after).countP kind + (kind p').toNat := by
  simp only [List.countP_append, List.countP_cons]
  cases kind p <;> cases kind p' <;> simp <;> omega

theorem alone {before after : List π} (hone : (before ++ p :: after).countP kind ≤ 1)
    (hp : kind p = true) (hq : q ∈ before ∨ q ∈ after) : kind q = false := by
  rw [List.countP_append, List.countP_cons_of_pos hp] at hone
  have hbefore : before.countP kind = 0 := by omega
  have hafter : after.countP kind = 0 := by omega
  rcases hq with hq | hq
  · exact Bool.eq_false_iff.mpr (List.countP_eq_zero.mp hbefore q hq)
  · exact Bool.eq_false_iff.mpr (List.countP_eq_zero.mp hafter q hq)

end Pool

end Lagotto.StateMachine
