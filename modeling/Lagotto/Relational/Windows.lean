/-
Lagotto.Relational.Windows — a range of positions read window by window.

A loop asks for a window at every `step`-th position below a total, and the
windows have a size of their own. `countP_contains` says how often a position
is asked for when the windows do not overlap, and `covered_iff` that all
positions are asked for exactly if the size is the step or the first window
reaches to the end.
-/
import Mathlib.Data.List.Nodup
import Mathlib.Data.List.Range

namespace Lagotto.Relational

/-- The positions from `start` on, `size` of them. -/
structure Window where
  start : Nat
  size : Nat
  deriving DecidableEq, Repr

namespace Window

def contains (w : Window) (i : Nat) : Bool := decide (w.start ≤ i) && decide (i < w.start + w.size)

/-- `list[start...start + size]`: nil where the list has ended before. -/
def slice {α : Type} (w : Window) (l : List α) : Option (List α) :=
  if w.start ≤ l.length then some ((l.drop w.start).take w.size) else none

/-- What the slice leaves out. -/
def outside {α : Type} (w : Window) (l : List α) : List α :=
  l.take w.start ++ l.drop (w.start + w.size)

theorem slice_eq_some_iff {α : Type} {w : Window} {l s : List α} :
    w.slice l = some s ↔ w.start ≤ l.length ∧ s = (l.drop w.start).take w.size := by
  unfold slice
  split
  next h => exact ⟨fun hs => ⟨h, (Option.some.inj hs).symm⟩, fun hs => congrArg some hs.2.symm⟩
  next h => exact ⟨fun hs => (nomatch hs), fun hs => absurd hs.1 h⟩

/-- What is before, in and behind the window. -/
theorem eq_append_slice {α : Type} (w : Window) (l : List α) :
    l = l.take w.start ++ ((l.drop w.start).take w.size ++ l.drop (w.start + w.size)) := by
  rw [← List.drop_drop, List.take_append_drop, List.take_append_drop]

theorem length_filterMap {α β : Type} (w : Window) (l : List α) (f : α → Option β) :
    (l.filterMap f).length =
      (((l.drop w.start).take w.size).filterMap f).length + ((w.outside l).filterMap f).length := by
  conv_lhs => rw [w.eq_append_slice l]
  simp only [outside, List.filterMap_append, List.length_append]
  omega

theorem none_of_length {α β : Type} (w : Window) {l : List α} {f : α → Option β}
    (h : (l.filterMap f).length = (((l.drop w.start).take w.size).filterMap f).length) :
    ∀ x ∈ w.outside l, f x = none := by
  have hlength := w.length_filterMap l f
  have hnil : (w.outside l).filterMap f = [] := List.length_eq_zero_iff.mp (by omega)
  exact List.filterMap_eq_nil_iff.mp hnil

/-- A list is told from its slice by what is outside, if that is anything to
the reader, and then by the length alone. -/
theorem filterMap_slice_iff {α β : Type} (w : Window) (l : List α) (f : α → Option β) :
    l.filterMap f = ((l.drop w.start).take w.size).filterMap f ↔
      ∀ x ∈ w.outside l, f x = none := by
  constructor
  · intro h
    exact w.none_of_length (congrArg List.length h)
  · intro h
    have hbefore : (l.take w.start).filterMap f = [] :=
      List.filterMap_eq_nil_iff.mpr (fun x hx => h x (List.mem_append_left _ hx))
    have hbehind : (l.drop (w.start + w.size)).filterMap f = [] :=
      List.filterMap_eq_nil_iff.mpr (fun x hx => h x (List.mem_append_right _ hx))
    conv_lhs => rw [w.eq_append_slice l]
    rw [List.filterMap_append, List.filterMap_append, hbefore, hbehind, List.nil_append,
      List.append_nil]

end Window

/-- `(0...total).step(step)` -/
def offsets (step total : Nat) : List Nat :=
  (List.range ((total + step - 1) / step)).map (fun k => k * step)

/-- The windows a loop over the offsets asks for. -/
def windows (step size total : Nat) : List Window :=
  (offsets step total).map (fun offset => ⟨offset, size⟩)

/-- Every position is asked for once. -/
def CoveredOnce (asked : List Window) (total : Nat) : Prop :=
  ∀ i < total, asked.countP (fun w => w.contains i) = 1

variable {step size total : Nat}

/-- A position is in the window of the last offset before it, or in none. -/
theorem contains_iff (hstep : 0 < step) (hsize : size ≤ step) (k i : Nat) :
    Window.contains ⟨k * step, size⟩ i = true ↔ k = i / step ∧ i % step < size := by
  have hdiv := Nat.div_add_mod i step
  have hmod := Nat.mod_lt i hstep
  rw [Window.contains, Bool.and_eq_true, decide_eq_true_eq, decide_eq_true_eq]
  dsimp only
  constructor
  · rintro ⟨hlow, hhigh⟩
    have hk : k = i / step := by
      refine (Nat.div_eq_of_lt_le hlow ?_).symm
      rw [Nat.succ_mul]
      omega
    subst hk
    rw [Nat.mul_comm] at hdiv
    exact ⟨rfl, by omega⟩
  · rintro ⟨rfl, hlt⟩
    rw [Nat.mul_comm] at hdiv
    omega

/-- The offset before a position below the total is one of the loop's. -/
theorem div_lt_offsets (hstep : 0 < step) {i : Nat} (hi : i < total) :
    i / step < (total + step - 1) / step := by
  rw [Nat.div_lt_iff_lt_mul hstep]
  have hdiv := Nat.div_add_mod (total + step - 1) step
  have hmod := Nat.mod_lt (total + step - 1) hstep
  rw [Nat.mul_comm] at hdiv
  omega

theorem countP_contains (hstep : 0 < step) (hsize : size ≤ step) {i : Nat} (hi : i < total) :
    (windows step size total).countP (fun w => w.contains i) =
      if i % step < size then 1 else 0 := by
  have hlt := div_lt_offsets hstep hi
  unfold windows offsets
  rw [List.countP_map, List.countP_map]
  by_cases hmod : i % step < size
  · have hsame : ((fun w : Window => w.contains i) ∘ fun offset => ⟨offset, size⟩) ∘
        (fun k => k * step) = fun k => k == i / step := by
      funext k
      rw [Bool.eq_iff_iff, beq_iff_eq]
      exact (contains_iff hstep hsize k i).trans (and_iff_left hmod)
    rw [hsame, if_pos hmod, ← List.count_eq_countP]
    exact List.count_eq_one_of_mem List.nodup_range (List.mem_range.mpr hlt)
  · rw [if_neg hmod, List.countP_eq_zero]
    intro k _ hk
    exact hmod ((contains_iff hstep hsize k i).mp hk).2

theorem covered_iff (hstep : 0 < step) (hsize : size ≤ step) :
    CoveredOnce (windows step size total) total ↔ total ≤ size ∨ size = step := by
  constructor
  · intro h
    by_contra hne
    obtain ⟨htotal, hneq⟩ := not_or.mp hne
    -- the first position behind the first window is left out
    have hlt : size < total := by omega
    have hcount := countP_contains hstep hsize hlt
    rw [h size hlt, Nat.mod_eq_of_lt (by omega), if_neg (Nat.lt_irrefl size)] at hcount
    exact Nat.one_ne_zero hcount
  · intro h i hi
    have hmod := Nat.mod_lt i hstep
    have hle := Nat.mod_le i step
    rw [countP_contains hstep hsize hi, if_pos (by omega)]

end Lagotto.Relational
