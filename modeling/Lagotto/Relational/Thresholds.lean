/-
Lagotto.Relational.Thresholds — what a quantity passes as it grows.

The records of a quantity follow one another: each begins where the one before
has ended (`Consecutive`). Whatever lies between the first beginning and the
last end is passed in one of them and in no other (`Consecutive.exists_mem`,
`Consecutive.unique`). A multiple of a number is passed exactly if the integral
part of the quotient changes (`floor_div_lt_floor_div_iff`).
-/
import Mathlib.Algebra.Order.Field.Basic
import Mathlib.Algebra.Order.Floor.Ring

namespace Lagotto.Relational

section Consecutive

variable {α κ : Type} [LinearOrder κ] {lower upper : α → κ} {start x : κ} {records : List α}

/-- Each record begins where the one before ends, and none goes back. -/
def Consecutive (lower upper : α → κ) : κ → List α → Prop
  | _, [] => True
  | start, a :: rest => lower a = start ∧ start ≤ upper a ∧ Consecutive lower upper (upper a) rest

/-- Where the last record ends. -/
def endOf (upper : α → κ) : κ → List α → κ
  | start, [] => start
  | _, a :: rest => endOf upper (upper a) rest

theorem Consecutive.exists_mem (h : Consecutive lower upper start records) (hstart : start < x)
    (hend : x ≤ endOf upper start records) : ∃ a ∈ records, lower a < x ∧ x ≤ upper a := by
  induction records generalizing start with
  | nil => exact absurd hend (not_le.mpr hstart)
  | cons a rest ih =>
    obtain ⟨hlower, -, hrest⟩ := h
    by_cases hx : x ≤ upper a
    · exact ⟨a, List.mem_cons_self, hlower ▸ hstart, hx⟩
    · obtain ⟨b, hb, hcovers⟩ := ih hrest (not_le.mp hx) hend
      exact ⟨b, List.mem_cons_of_mem a hb, hcovers⟩

theorem Consecutive.start_le (h : Consecutive lower upper start records) {a : α}
    (ha : a ∈ records) : start ≤ lower a := by
  induction records generalizing start with
  | nil => cases ha
  | cons b rest ih =>
    obtain ⟨hlower, hle, hrest⟩ := h
    rcases List.mem_cons.mp ha with rfl | ha
    · exact le_of_eq hlower.symm
    · exact hle.trans (ih hrest ha)

theorem Consecutive.unique (h : Consecutive lower upper start records) {a b : α}
    (ha : a ∈ records) (hb : b ∈ records) (hax : lower a < x ∧ x ≤ upper a)
    (hbx : lower b < x ∧ x ≤ upper b) : a = b := by
  induction records generalizing start with
  | nil => cases ha
  | cons c rest ih =>
    obtain ⟨-, -, hrest⟩ := h
    -- a later record begins where the first has ended, so beyond `x`
    have hlater : ∀ d ∈ rest, x ≤ upper c → ¬ lower d < x := by
      intro d hd hx hlt
      exact absurd (hrest.start_le hd) (not_le.mpr (hlt.trans_le hx))
    rcases List.mem_cons.mp ha with rfl | ha'
    · rcases List.mem_cons.mp hb with rfl | hb'
      · rfl
      · exact absurd hbx.1 (hlater b hb' hax.2)
    · rcases List.mem_cons.mp hb with rfl | hb'
      · exact absurd hax.1 (hlater a ha' hbx.2)
      · exact ih hrest ha' hb'

end Consecutive

theorem floor_div_lt_floor_div_iff {K : Type} [Field K] [LinearOrder K] [IsStrictOrderedRing K]
    [FloorRing K] {number : K} (hnumber : 0 < number) (a b : K) :
    ⌊a / number⌋ < ⌊b / number⌋ ↔ ∃ k : ℤ, a < k * number ∧ k * number ≤ b := by
  constructor
  · intro h
    refine ⟨⌊b / number⌋, ?_, ?_⟩
    · rw [← div_lt_iff₀ hnumber]
      exact Int.floor_lt.mp h
    · rw [← le_div_iff₀ hnumber]
      exact Int.floor_le _
  · rintro ⟨k, hlt, hle⟩
    rw [← div_lt_iff₀ hnumber] at hlt
    rw [← le_div_iff₀ hnumber] at hle
    exact lt_of_lt_of_le (Int.floor_lt.mpr hlt) (Int.le_floor.mpr hle)

end Lagotto.Relational
