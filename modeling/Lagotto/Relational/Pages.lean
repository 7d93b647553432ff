/-
Lagotto.Relational.Pages — a list read page by page.

`pageOf` is `LIMIT` with `OFFSET`, `totalPages` the number of pages that is
reported for a number of entries. `flatMap_pages` says that the reported pages
give back the list when the number was right, and `pageOf_totalPages` that the
last of them is not empty unless it is the first. Pages are windows that follow
one another, and `flatMap_windows` is about windows from anywhere in the list.

`unionBy` joins two lists and keeps the first of the entries that are the same.
A page of entries that differ from each other and from those before is joined
as it is (`unionBy_of_pairwise`). Where same entries are those with the same
key, each key is there once (`mem_keys_foldl_insertBy`,
`nodup_keys_foldl_insertBy`).
-/
import Mathlib.Data.List.Basic
import Mathlib.Data.List.Range

namespace Lagotto.Relational

variable {α : Type} {per : Nat} {l l' : List α}

/-- Page `n`, counted from 1, of pages of `per` entries. -/
def pageOf (per n : Nat) (l : List α) : List α := (l.drop ((n - 1) * per)).take per

/-- The number of pages for `total` entries: one page where there are none. -/
def totalPages (per total : Nat) : Nat := if total = 0 then 1 else (total + per - 1) / per

/-- `n` windows of `per` entries each, one after the other. -/
theorem flatMap_windows (per start n : Nat) (l : List α) :
    (List.range n).flatMap (fun k => (l.drop (start + k * per)).take per) =
      (l.drop start).take (n * per) := by
  induction n with
  | zero => simp
  | succ n ih =>
    have hmul : (n + 1) * per = n * per + per := Nat.succ_mul n per
    rw [List.range_succ, List.flatMap_append, ih, hmul, List.take_add]
    simp

theorem flatMap_pageOf (per n : Nat) (l : List α) :
    (List.range' 1 n).flatMap (fun k => pageOf per k l) = l.take (n * per) := by
  have hwindows := flatMap_windows per 0 n l
  simp only [Nat.zero_add, List.drop_zero] at hwindows
  rw [← hwindows, List.range'_eq_map_range, List.flatMap_map]
  simp [pageOf]

theorem le_totalPages_mul (hper : 0 < per) (total : Nat) :
    total ≤ totalPages per total * per := by
  unfold totalPages
  split
  · omega
  · have h := Nat.div_add_mod (total + per - 1) per
    have hmod := Nat.mod_lt (total + per - 1) hper
    rw [Nat.mul_comm] at h
    omega

theorem totalPages_eq_max (hper : 0 < per) (total : Nat) :
    totalPages per total = max 1 ((total + per - 1) / per) := by
  unfold totalPages
  split
  next h =>
    subst h
    rw [Nat.zero_add, Nat.div_eq_of_lt (by omega)]
    rfl
  next h => exact (Nat.max_eq_right ((Nat.one_le_div_iff hper).mpr (by omega))).symm

theorem one_le_totalPages (hper : 0 < per) (total : Nat) :
    1 ≤ totalPages per total := by
  rw [totalPages_eq_max hper]
  exact Nat.le_max_left _ _

/-- The pages that are reported are the whole list. -/
theorem flatMap_pages (hper : 0 < per) (l : List α) :
    (List.range' 1 (totalPages per l.length)).flatMap (fun k => pageOf per k l) = l := by
  rw [flatMap_pageOf, List.take_of_length_le (le_totalPages_mul hper l.length)]

/-- There is always a first page. -/
theorem range'_totalPages (hper : 0 < per) (total : Nat) :
    List.range' 1 (totalPages per total) = 1 :: List.range' 2 (totalPages per total - 1) := by
  have hone := one_le_totalPages hper total
  conv_lhs => rw [← Nat.sub_add_cancel hone, List.range'_succ]

/-- The first page and those after it are the whole list. -/
theorem pageOf_append_pages (hper : 0 < per) (l : List α) :
    pageOf per 1 l ++ (List.range' 2 (totalPages per l.length - 1)).flatMap
      (fun k => pageOf per k l) = l := by
  have hpages := flatMap_pages hper l
  rwa [range'_totalPages hper, List.flatMap_cons] at hpages

/-- The last page that is reported has something on it, unless the list is
empty. -/
theorem pageOf_totalPages (hper : 0 < per) {l : List α} (hl : l ≠ []) :
    pageOf per (totalPages per l.length) l ≠ [] := by
  have hpos : 0 < l.length := List.length_pos_iff.mpr hl
  have hlast : (totalPages per l.length - 1) * per < l.length := by
    have hdiv := Nat.div_mul_le_self (l.length + per - 1) per
    rw [totalPages, if_neg (by omega), Nat.sub_mul]
    omega
  intro h
  have hlen := congrArg List.length h
  simp only [pageOf, List.length_take, List.length_drop, List.length_nil] at hlen
  omega

/-! ## Union -/

/-- Add an entry unless there is one the same. -/
def insertBy (same : α → α → Bool) (l : List α) (a : α) : List α :=
  if l.any (fun b => same b a) then l else l ++ [a]

/-- The entries of both lists, each the first of its kind. -/
def unionBy (same : α → α → Bool) (l l' : List α) : List α := (l ++ l').foldl (insertBy same) []

theorem foldl_insertBy {same : α → α → Bool} (h : (l ++ l').Pairwise (fun a b => same a b = false))
    :
    l'.foldl (insertBy same) l = l ++ l' := by
  induction l' generalizing l with
  | nil => simp
  | cons a l' ih =>
    have hnew : l.any (fun b => same b a) = false := by
      rw [List.any_eq_false]
      intro b hb
      simp [(List.pairwise_append.mp h).2.2 b hb a List.mem_cons_self]
    rw [List.foldl_cons, insertBy, hnew, if_neg (by simp), ih (by simpa using h)]
    simp

/-- Nothing is left out where no two entries are the same. -/
theorem unionBy_of_pairwise {same : α → α → Bool}
    (h : (l ++ l').Pairwise (fun a b => same a b = false)) : unionBy same l l' = l ++ l' :=
  foldl_insertBy (l := []) h

section Keys

variable {κ : Type} {same : α → α → Bool} {key : α → κ}

theorem mem_of_mem_insertBy_append {a b : α} (h : b ∈ insertBy same l a ++ l') :
    b ∈ l ++ a :: l' := by
  unfold insertBy at h
  split at h
  · rcases List.mem_append.mp h with hl | hl'
    · simp [hl]
    · simp [hl']
  · simpa using h

theorem mem_foldl_insertBy {b : α} (h : b ∈ l'.foldl (insertBy same) l) :
    b ∈ l ++ l' := by
  induction l' generalizing l with
  | nil => simpa using h
  | cons a l' ih => exact mem_of_mem_insertBy_append (ih h)

/-- No key is lost if what is the same has the same key. -/
theorem mem_keys_foldl_insertBy
    (hsame : ∀ a ∈ l ++ l', ∀ b ∈ l ++ l', same a b = true → key a = key b) (k : κ) :
    k ∈ (l'.foldl (insertBy same) l).map key ↔ k ∈ (l ++ l').map key := by
  induction l' generalizing l with
  | nil => simp
  | cons a l' ih =>
    have hinsert : k ∈ (insertBy same l a).map key ↔ k ∈ (l ++ [a]).map key := by
      unfold insertBy
      split
      next hany =>
        obtain ⟨b, hb, hba⟩ := List.any_eq_true.mp hany
        have hkey := hsame b (by simp [hb]) a (by simp) hba
        simp only [List.map_append, List.map_singleton, List.mem_append, List.mem_singleton]
        constructor
        · exact Or.inl
        · intro hk
          rcases hk with hk | rfl
          · exact hk
          · exact List.mem_map.mpr ⟨b, hb, hkey⟩
      next => exact Iff.rfl
    have hrest := ih (l := insertBy same l a) (fun b hb c hc =>
      hsame b (mem_of_mem_insertBy_append hb) c (mem_of_mem_insertBy_append hc))
    rw [List.foldl_cons, hrest, List.map_append, List.mem_append, hinsert, ← List.mem_append,
      ← List.map_append, List.append_assoc, List.singleton_append]

/-- No key is there twice if what has the same key is the same. -/
theorem nodup_keys_foldl_insertBy
    (hsame : ∀ a ∈ l ++ l', ∀ b ∈ l ++ l', key a = key b → same a b = true)
    (hl : (l.map key).Nodup) :
    ((l'.foldl (insertBy same) l).map key).Nodup := by
  induction l' generalizing l with
  | nil => exact hl
  | cons a l' ih =>
    refine ih (fun b hb c hc =>
      hsame b (mem_of_mem_insertBy_append hb) c (mem_of_mem_insertBy_append hc)) ?_
    unfold insertBy
    split
    next => exact hl
    next hnew =>
      rw [List.map_append, List.map_singleton, List.nodup_append]
      refine ⟨hl, by simp, ?_⟩
      intro k hk k' hk' heq
      rw [List.mem_singleton] at hk'
      obtain ⟨b, hb, rfl⟩ := List.mem_map.mp hk
      refine hnew (List.any_eq_true.mpr ⟨b, hb, ?_⟩)
      exact hsame b (by simp [hb]) a (by simp) (heq.trans hk')

end Keys

end Lagotto.Relational
