/-
Lagotto.Interaction.Batch — a loop over a list of items whose body may raise.

The items are worked on in their order, and the first exception ends the
loop. `run` also gives a log of the items that were begun, each with the
state it was begun in. What the body keeps when it succeeds holds at the
beginning of every item (`log_invariant`), and an item whose body raises is
the last one of the log (`run_of_failure`). `log_items` says which items are
begun when raising depends on the item alone. `run_collects` sums up what the
items add to a record, and `run_map` compares the loop with one on another
state. `eachSlice` cuts a list into batches.
-/
import Mathlib.Logic.Basic

namespace Lagotto.Interaction.Batch

variable {ι σ ε : Type}

/-- The log, the exception if there was one, and the state at the end. -/
def run (body : ι → σ → Except ε Unit × σ) : List ι → σ → List (ι × σ) × Except ε Unit × σ
  | [], s => ([], .ok (), s)
  | i :: rest, s =>
    match body i s with
    | (.error e, s') => ([(i, s)], .error e, s')
    | (.ok (), s') => ((i, s) :: (run body rest s').1, (run body rest s').2)

variable {body : ι → σ → Except ε Unit × σ}

theorem run_cons_error {i : ι} {rest : List ι} {s s' : σ} {e : ε}
    (h : body i s = (.error e, s')) : run body (i :: rest) s = ([(i, s)], .error e, s') := by
  simp [run, h]

theorem run_cons_ok {i : ι} {rest : List ι} {s s' : σ} (h : body i s = (.ok (), s')) :
    run body (i :: rest) s = ((i, s) :: (run body rest s').1, (run body rest s').2) := by
  simp [run, h]

/-- What holds at the start and is kept by every item that succeeds holds
whenever an item is begun. -/
theorem log_invariant {P : σ → Prop} (hbody : ∀ i s s', P s → body i s = (.ok (), s') → P s')
    {items : List ι} {s : σ} (hs : P s) : ∀ entry ∈ (run body items s).1, P entry.2 := by
  induction items generalizing s with
  | nil =>
    intro entry hentry
    cases hentry
  | cons i rest ih =>
    rcases hb : body i s with ⟨_ | _, s'⟩
    · rw [run_cons_error hb]
      intro entry hentry
      rw [List.mem_singleton.mp hentry]
      exact hs
    · rw [run_cons_ok hb]
      intro entry hentry
      rcases List.mem_cons.mp hentry with rfl | hrest
      · exact hs
      · exact ih (hbody i s s' hs hb) entry hrest

/-- An item that raises is the last one, and the loop ends as it does. -/
theorem run_of_failure {items : List ι} {s : σ} {before after : List (ι × σ)} {i : ι} {s₁ s₂ : σ}
    {e : ε} (hlog : (run body items s).1 = before ++ (i, s₁) :: after)
    (hraise : body i s₁ = (.error e, s₂)) :
    after = [] ∧ (run body items s).2 = (.error e, s₂) := by
  induction items generalizing s before with
  | nil => simp [run] at hlog
  | cons j rest ih =>
    rcases hb : body j s with ⟨e' | _, s'⟩
    · -- `j` itself raises, so it is all there is in the log
      rw [run_cons_error hb] at hlog ⊢
      cases before with
      | nil =>
        obtain ⟨⟨rfl, rfl⟩, rfl⟩ := List.cons.inj hlog |>.imp Prod.mk.inj id
        rw [hraise] at hb
        exact ⟨rfl, hb.symm ▸ rfl⟩
      | cons entry before => simp at hlog
    · rw [run_cons_ok hb] at hlog ⊢
      cases before with
      | nil =>
        obtain ⟨⟨rfl, rfl⟩, _⟩ := List.cons.inj hlog |>.imp Prod.mk.inj id
        rw [hraise] at hb
        cases hb
      | cons entry before => exact ih (List.cons.inj hlog).2

/-- The first item is always begun. -/
theorem head_mem_log (i : ι) (rest : List ι) (s : σ) : (i, s) ∈ (run body (i :: rest) s).1 := by
  rcases hb : body i s with ⟨_ | _, s'⟩
  · rw [run_cons_error hb]
    exact List.mem_cons_self ..
  · rw [run_cons_ok hb]
    exact List.mem_cons_self ..

/-- If it depends on the item alone whether the body raises, the items that are
begun are those before the first that does, and this one. -/
theorem log_items {fails : ι → Bool} {items : List ι} {s : σ}
    (h : ∀ entry ∈ (run body items s).1,
      ((body entry.1 entry.2).1.isOk = false ↔ fails entry.1 = true)) :
    (run body items s).1.map (·.1) =
      items.takeWhile (fun i => !fails i) ++ (items.dropWhile (fun i => !fails i)).take 1 := by
  induction items generalizing s with
  | nil => rfl
  | cons i rest ih =>
    have hi := h (i, s) (head_mem_log i rest s)
    rcases hb : body i s with ⟨e | _, s'⟩
    · have hfails : fails i = true := hi.mp (by rw [hb]; rfl)
      rw [run_cons_error hb]
      simp [hfails]
    · have hgood : fails i = false := by
        rw [← Bool.not_eq_true]
        intro hfails
        have hraise := hi.mpr hfails
        rw [hb] at hraise
        cases hraise
      rw [run_cons_ok hb] at h ⊢
      have hrest := ih (fun entry hentry => h entry (List.mem_cons_of_mem _ hentry))
      simp [hgood, hrest]

/-- What is on record at the end: what was there before, and what each item that
was begun has added. -/
theorem run_collects {γ : Type} (view : σ → List γ) {adds : ι → σ → List γ}
    (hbody : ∀ i s, view (body i s).2 = view s ++ adds i s) (items : List ι) (s : σ) :
    view (run body items s).2.2 =
      view s ++ (run body items s).1.flatMap (fun entry => adds entry.1 entry.2) := by
  induction items generalizing s with
  | nil => simp [run]
  | cons i rest ih =>
    have hi := hbody i s
    rcases hb : body i s with ⟨_ | _, s'⟩
    · rw [hb] at hi
      rw [run_cons_error hb, List.flatMap_cons, List.flatMap_nil, List.append_nil]
      exact hi
    · rw [hb] at hi
      rw [run_cons_ok hb, List.flatMap_cons, ← List.append_assoc, ← hi]
      exact ih s'

/-- A body that does the same on a part of the state does so in the loop. -/
theorem run_map {τ : Type} {f : σ → τ} {body' : ι → τ → Except ε Unit × τ}
    (hbody : ∀ i s, body' i (f s) = ((body i s).1, f (body i s).2)) (items : List ι) (s : σ) :
    run body' items (f s) =
      ((run body items s).1.map (fun entry => (entry.1, f entry.2)), (run body items s).2.1,
        f (run body items s).2.2) := by
  induction items generalizing s with
  | nil => rfl
  | cons i rest ih =>
    have hi := hbody i s
    rcases hb : body i s with ⟨_ | _, s'⟩
    · rw [hb] at hi
      rw [run_cons_error hb, run_cons_error hi]
      rfl
    · rw [hb] at hi
      rw [run_cons_ok hb, run_cons_ok hi, ih s']
      rfl

/-! ## Slices -/

variable {α : Type}

/-- The first `fuel` slices of `n` items each. -/
def slices (n : Nat) : Nat → List α → List (List α)
  | 0, _ => []
  | _ + 1, [] => []
  | fuel + 1, x :: xs => (x :: xs).take n :: slices n fuel ((x :: xs).drop n)

/-- `each_slice(n)`. There are never more slices than items. -/
def eachSlice (n : Nat) (xs : List α) : List (List α) := slices n xs.length xs

theorem flatten_slices {n : Nat} (hn : 0 < n) {fuel : Nat} {xs : List α}
    (h : xs.length ≤ fuel) : (slices n fuel xs).flatten = xs := by
  induction fuel generalizing xs with
  | zero =>
    have hnil : xs = [] := List.length_eq_zero_iff.mp (Nat.le_zero.mp h)
    rw [hnil]
    rfl
  | succ fuel ih =>
    cases xs with
    | nil => rfl
    | cons x xs =>
      have hdrop : ((x :: xs).drop n).length ≤ fuel := by
        simp only [List.length_drop, List.length_cons] at h ⊢
        omega
      rw [slices, List.flatten_cons, ih hdrop, List.take_append_drop]

/-- The slices of a list make up the list. -/
theorem flatten_eachSlice {n : Nat} (hn : 0 < n) (xs : List α) :
    (eachSlice n xs).flatten = xs :=
  flatten_slices hn (Nat.le_refl _)

end Lagotto.Interaction.Batch
