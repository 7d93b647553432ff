/-
Lagotto.StateMachine.CheckThenAct — workers that look a record up and insert
it if it is missing.

The lookup and the insert are two steps, and other workers may take steps in
between. `read_then_insert` says what a worker does that nobody interrupts.
Two workers that look the same key up before either has inserted it insert it
twice. `unique_along` shows that this is the only way: where no worker looks
a key up while another is about to insert it, no key is inserted twice. The
invariant counts a record that is about to be inserted as if it were there.
-/
import Mathlib.Data.List.Basic
import Lagotto.StateMachine.Runs
import Lagotto.StateMachine.Pool

namespace Lagotto.StateMachine

variable {ι κ σ : Type}

/-- What a worker has still to see to. It has looked the first record up and
is about to insert it, or not. -/
structure Worker (ι : Type) where
  todo : List ι
  inserting : Bool := false
  deriving DecidableEq, Repr

structure Shared (ι σ : Type) where
  pool : List (Worker ι)
  state : σ

inductive Move (ι : Type) where
  /-- A worker comes in with records to see to. -/
  | start (todo : List ι)
  /-- The worker at a position takes its next step. -/
  | go (n : Nat)
  deriving DecidableEq, Repr

/-- A lookup or an insert. -/
def Worker.step (found : ι → σ → Bool) (create : ι → σ → σ) : Worker ι → σ → Worker ι × σ
  | ⟨[], inserting⟩, s => (⟨[], inserting⟩, s)
  | ⟨item :: rest, false⟩, s =>
    if found item s then (⟨rest, false⟩, s) else (⟨item :: rest, true⟩, s)
  | ⟨item :: rest, true⟩, s => (⟨rest, false⟩, create item s)

def move (found : ι → σ → Bool) (create : ι → σ → σ) : Move ι → Shared ι σ → Shared ι σ
  | .start todo, shared => { shared with pool := shared.pool ++ [⟨todo, false⟩] }
  | .go n, shared =>
    match shared.pool[n]? with
    | none => shared
    | some worker =>
      { pool := shared.pool.set n (worker.step found create shared.state).1
        state := (worker.step found create shared.state).2 }

section Alone

variable (found : ι → σ → Bool) (create : ι → σ → σ)

/-- Lookup and insert at once. -/
def firstOrInsert (s : σ) (item : ι) : σ := if found item s then s else create item s

variable {found create}

theorem move_go {pool : List (Worker ι)} {n : Nat} {worker : Worker ι} (s : σ)
    (h : pool[n]? = some worker) :
    move found create (.go n) ⟨pool, s⟩ =
      ⟨pool.set n (worker.step found create s).1, (worker.step found create s).2⟩ := by
  simp only [move, h]

/-- A worker that is not interrupted sees to one record after the other. -/
theorem read_then_insert {pool : List (Worker ι)} {n : Nat} {todo : List ι} (s : σ)
    (h : pool[n]? = some ⟨todo, false⟩) :
    ∃ steps, run (move found create) (List.replicate steps (.go n)) ⟨pool, s⟩ =
      ⟨pool.set n ⟨[], false⟩, todo.foldl (firstOrInsert found create) s⟩ := by
  induction todo generalizing pool s with
  | nil =>
    obtain ⟨hlt, heq⟩ := List.getElem?_eq_some_iff.mp h
    refine ⟨0, ?_⟩
    rw [List.replicate_zero, run_nil, ← heq, List.set_getElem_self, List.foldl_nil]
  | cons item rest ih =>
    have hlt : n < pool.length := (List.getElem?_eq_some_iff.mp h).1
    have hset : ∀ worker : Worker ι, (pool.set n worker)[n]? = some worker :=
      fun worker => List.getElem?_set_self hlt
    rw [List.foldl_cons, firstOrInsert]
    cases hfound : found item s with
    | true =>
      obtain ⟨steps, hsteps⟩ := ih s (hset ⟨rest, false⟩)
      refine ⟨steps + 1, ?_⟩
      rw [List.replicate_succ, run_cons, move_go s h]
      simp only [Worker.step, hfound, if_true]
      rw [hsteps, List.set_set]
    | false =>
      obtain ⟨steps, hsteps⟩ := ih (create item s) (hset ⟨rest, false⟩)
      refine ⟨steps + 2, ?_⟩
      rw [List.replicate_succ, List.replicate_succ, run_cons, run_cons, move_go s h]
      simp only [Worker.step, hfound, Bool.false_eq_true, if_false]
      rw [move_go s (hset ⟨item :: rest, true⟩)]
      simp only [Worker.step, List.set_set]
      rw [hsteps, List.set_set]

end Alone

/-! ## Keys -/

section Keys

variable [DecidableEq κ] (found : ι → σ → Bool) (create : ι → σ → σ) (key : ι → κ)
  (count : κ → σ → Nat)

/-- The worker is about to insert a record with this key. -/
def Worker.pending (k : κ) (worker : Worker ι) : Bool :=
  worker.inserting && (worker.todo.head?.any fun item => key item == k)

/-- Nobody is about to insert a record with the key that is looked up. -/
def Unhurried (shared : Shared ι σ) : Move ι → Prop
  | .start _ => True
  | .go n =>
    ∀ worker ∈ shared.pool[n]?, worker.inserting = false → ∀ item ∈ worker.todo.head?,
      ∀ other ∈ shared.pool, other.pending key (key item) = false

instance (shared : Shared ι σ) (m : Move ι) : Decidable (Unhurried key shared m) :=
  match m with
  | .start _ => isTrue trivial
  | .go n =>
    inferInstanceAs (Decidable (∀ worker ∈ shared.pool[n]?, worker.inserting = false →
      ∀ item ∈ worker.todo.head?, ∀ other ∈ shared.pool, other.pending key (key item) = false))

/-- Records are found by their key, and an insert adds one of its key. -/
structure Keyed : Prop where
  found_iff : ∀ item s, found item s = true ↔ 0 < count (key item) s
  count_create : ∀ item s k, count k (create item s) = count k s + if key item = k then 1 else 0

/-- Each key is there, or about to be inserted, at most once. -/
def Unique (shared : Shared ι σ) : Prop :=
  ∀ k, count k shared.state + shared.pool.countP (Worker.pending key k) ≤ 1

variable {found create key count}

theorem Worker.pending_cons (k : κ) (item : ι) (rest : List ι) (inserting : Bool) :
    Worker.pending key k ⟨item :: rest, inserting⟩ = (inserting && (key item == k)) := rfl

theorem Worker.pending_of_idle (k : κ) {worker : Worker ι} (h : worker.inserting = false) :
    worker.pending key k = false := by
  rw [Worker.pending, h, Bool.false_and]

/-- What one step adds to the records that are there, it takes from those that
are about to be inserted; and a lookup that finds nothing is the first. -/
theorem Unique.step (hkeyed : Keyed found create key count) {before behind : List (Worker ι)}
    {worker : Worker ι} {s : σ} (h : Unique key count ⟨before ++ worker :: behind, s⟩)
    (hfree : worker.inserting = false → ∀ item ∈ worker.todo.head?,
      ∀ other ∈ before ++ worker :: behind, other.pending key (key item) = false) :
    Unique key count ⟨before ++ (worker.step found create s).1 :: behind,
      (worker.step found create s).2⟩ := by
  intro k
  have hk := h k
  have hmove := Pool.countP_move before behind worker (worker.step found create s).1
    (Worker.pending key k)
  obtain ⟨todo, inserting⟩ := worker
  cases todo with
  | nil => exact hk
  | cons item rest =>
    cases inserting with
    | true =>
      -- the insert
      simp only [Worker.step, Worker.pending_cons, Worker.pending_of_idle, Bool.true_and,
        Bool.toNat_false] at hmove hk ⊢
      rw [hkeyed.count_create]
      by_cases hkey : key item = k
      · simp only [hkey, beq_self_eq_true, Bool.toNat_true, if_true] at hmove ⊢
        omega
      · simp only [hkey, beq_eq_false_iff_ne.mpr hkey, Bool.toNat_false, if_false] at hmove ⊢
        omega
    | false =>
      cases hfound : found item s with
      | true =>
        simp only [Worker.step, hfound, if_true, Worker.pending_of_idle, Bool.toNat_false]
          at hmove hk ⊢
        omega
      | false =>
        simp only [Worker.step, hfound, Bool.false_eq_true, if_false, Worker.pending_cons,
          Bool.true_and, Bool.false_and, Bool.toNat_false] at hmove hk ⊢
        by_cases hkey : key item = k
        · -- nobody has it, and nobody is about to
          subst hkey
          have hnone : count (key item) s = 0 := by
            have := (hkeyed.found_iff item s).not.mp (by simp [hfound])
            omega
          have hnobody : (before ++ ⟨item :: rest, false⟩ :: behind).countP
              (Worker.pending key (key item)) = 0 :=
            List.countP_eq_zero.mpr fun other hother => by
              simp [hfree rfl item rfl other hother]
          simp only [beq_self_eq_true, Bool.toNat_true] at hmove
          omega
        · simp only [beq_eq_false_iff_ne.mpr hkey, Bool.toNat_false] at hmove
          omega

theorem Unique.move (hkeyed : Keyed found create key count) {shared : Shared ι σ} {m : Move ι}
    (h : Unique key count shared) (hm : Unhurried key shared m) :
    Unique key count (move found create m shared) := by
  cases m with
  | start todo =>
    intro k
    simpa [StateMachine.move, List.countP_append, Worker.pending] using h k
  | go n =>
    simp only [StateMachine.move]
    split
    · exact h
    next worker hworker =>
      obtain ⟨before, behind, hpool, hset⟩ := Pool.exists_split hworker
      obtain ⟨pool, s⟩ := shared
      subst hpool
      rw [hset]
      exact h.step hkeyed (hm worker hworker)

/-- Where nobody looks a key up that another is about to insert, no key is
inserted twice. -/
theorem unique_along (hkeyed : Keyed found create key count) {shared : Shared ι σ}
    (h : Unique key count shared) {moves : List (Move ι)}
    (hmoves : Along (StateMachine.move found create) (Unhurried key) moves shared) :
    ∀ k, count k (run (StateMachine.move found create) moves shared).state ≤ 1 := by
  have hend : Unique key count (run (StateMachine.move found create) moves shared) :=
    invariant_along (fun _ _ hunique hm => hunique.move hkeyed hm) h hmoves
  intro k
  have := hend k
  omega

end Keys

end Lagotto.StateMachine
