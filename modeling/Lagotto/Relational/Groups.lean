/-
Lagotto.Relational.Groups — rows grouped by a key.

What is added up over the groups of the rows is the sum over the rows
(`sum_fibers`), and keys that are sorted and different increase strictly
(`pairwise_lt_insertionSort`).

A `GROUP BY` may have columns that are neither grouped by nor aggregated. Then
of each group one row is returned. Which one is up to the database, so it is a
parameter (`Choice`). Whatever is chosen, the keys are those of the rows, each
of them once (`map_key_oneOfEach`), and every row is returned by some database
(`exists_choice`).
-/
import Mathlib.Algebra.BigOperators.Group.List.Lemmas
import Mathlib.Data.List.Dedup
import Mathlib.Data.List.Sort
import Mathlib.Order.Defs.LinearOrder

namespace Lagotto.Relational

variable {α κ : Type}

/-- How one row of a group is chosen. -/
structure Choice (α : Type) where
  choose : List α → Option α
  chosen : ∀ group, group ≠ [] → ∃ a ∈ group, choose group = some a

/-- The first row of each group. -/
def Choice.first : Choice α where
  choose := List.head?
  chosen := by
    intro group hgroup
    cases group with
    | nil => exact absurd rfl hgroup
    | cons a rest => exact ⟨a, List.mem_cons_self, rfl⟩

variable [DecidableEq κ]

/-- Keys that cover all rows and are different: every row is added up once. -/
theorem sum_fibers {M : Type} [AddCommMonoid M] (key : α → κ) (weight : α → M) {keys : List κ}
    (hkeys : keys.Nodup) {rows : List α} (hcover : ∀ a ∈ rows, key a ∈ keys) :
    (keys.map (fun k => ((rows.filter (fun a => key a = k)).map weight).sum)).sum =
      (rows.map weight).sum := by
  induction rows with
  | nil => simp
  | cons a rest ih =>
    have hsplit : ∀ k ∈ keys, (((a :: rest).filter (fun b => key b = k)).map weight).sum =
        (if key a = k then weight a else 0) +
          ((rest.filter (fun b => key b = k)).map weight).sum := by
      intro k _
      by_cases h : key a = k
      · simp [h]
      · simp [h]
    have hone : (keys.map (fun k => if key a = k then weight a else 0)).sum = weight a := by
      rw [List.sum_map_eq_nsmul_single (key a) _ fun k hk _ => if_neg (Ne.symm hk),
        List.count_eq_one_of_mem hkeys (hcover a List.mem_cons_self), one_nsmul, if_pos rfl]
    rw [List.map_congr_left hsplit, List.sum_map_add, hone,
      ih fun b hb => hcover b (List.mem_cons_of_mem a hb), List.map_cons, List.sum_cons]

theorem pairwise_lt_insertionSort {κ : Type} [LinearOrder κ] {keys : List κ}
    (h : keys.Nodup) : (keys.insertionSort (· ≤ ·)).Pairwise (· < ·) := by
  have hnodup : (keys.insertionSort (· ≤ ·)).Nodup :=
    (List.perm_insertionSort (· ≤ ·) keys).nodup_iff.mpr h
  refine ((List.pairwise_insertionSort (· ≤ ·) keys).and hnodup).imp ?_
  rintro a b ⟨hle, hne⟩
  exact lt_of_le_of_ne hle hne

theorem nodup_eraseDups (keys : List κ) : keys.eraseDups.Nodup := by
  induction hn : keys.length using Nat.strong_induction_on generalizing keys with
  | _ n ih =>
    cases keys with
    | nil => simp
    | cons k rest =>
      have hle := List.length_filter_le (fun b => !b == k) rest
      rw [List.eraseDups_cons, List.nodup_cons]
      refine ⟨by simp, ih _ ?_ _ rfl⟩
      rw [← hn, List.length_cons]
      omega

/-- Keys as they are found and keys as they are sorted are the same ones. -/
theorem perm_dedup_insertionSort {κ : Type} [LinearOrder κ] (keys : List κ) :
    (keys.eraseDups.insertionSort (· ≤ ·)).Perm keys.dedup := by
  refine (List.perm_insertionSort _ _).trans ?_
  rw [List.perm_ext_iff_of_nodup (nodup_eraseDups keys) (List.nodup_dedup keys)]
  intro k
  rw [List.mem_eraseDups, List.mem_dedup]

/-- The rows with the same key together. -/
def groups (key : α → κ) (rows : List α) : List (List α) :=
  (rows.map key).dedup.map (fun k => rows.filter (fun a => key a = k))

/-- `GROUP BY key`, with one row of each group. -/
def oneOfEach (pick : Choice α) (key : α → κ) (rows : List α) : List α :=
  (groups key rows).filterMap pick.choose

theorem Choice.choose_group (pick : Choice α) (key : α → κ) {rows : List α} {k : κ}
    (hk : k ∈ rows.map key) :
    ∃ a ∈ rows, key a = k ∧ pick.choose (rows.filter (fun a => key a = k)) = some a := by
  obtain ⟨b, hb, hkey⟩ := List.mem_map.mp hk
  have hne : rows.filter (fun a => key a = k) ≠ [] := by
    intro hnil
    have hb' : b ∈ rows.filter (fun a => key a = k) := by simp [hb, hkey]
    rw [hnil] at hb'
    cases hb'
  obtain ⟨a, ha, hchoose⟩ := pick.chosen _ hne
  rw [List.mem_filter, decide_eq_true_eq] at ha
  exact ⟨a, ha.1, ha.2, hchoose⟩

theorem mem_of_mem_oneOfEach {pick : Choice α} {key : α → κ} {rows : List α} {a : α}
    (ha : a ∈ oneOfEach pick key rows) : a ∈ rows := by
  unfold oneOfEach groups at ha
  rw [List.filterMap_map] at ha
  obtain ⟨k, hk, hchoose⟩ := List.mem_filterMap.mp ha
  obtain ⟨b, hb, -, hb'⟩ := pick.choose_group key (List.mem_dedup.mp hk)
  rw [Function.comp_apply, hb'] at hchoose
  rw [← Option.some.inj hchoose]
  exact hb

/-- Each key of the rows is returned once. -/
theorem map_key_oneOfEach (pick : Choice α) (key : α → κ) (rows : List α) :
    (oneOfEach pick key rows).map key = (rows.map key).dedup := by
  unfold oneOfEach groups
  have hkeys : ∀ k ∈ (rows.map key).dedup, k ∈ rows.map key := fun _ => List.mem_dedup.mp
  generalize (rows.map key).dedup = ks at hkeys ⊢
  induction ks with
  | nil => rfl
  | cons k rest ih =>
    obtain ⟨a, -, hkey, hchoose⟩ := pick.choose_group key (hkeys k List.mem_cons_self)
    rw [List.map_cons, List.filterMap_cons_some hchoose, List.map_cons, hkey,
      ih (fun j hj => hkeys j (List.mem_cons_of_mem k hj))]

theorem nodup_map_oneOfEach (pick : Choice α) (key : α → κ) (rows : List α) :
    ((oneOfEach pick key rows).map key).Nodup := by
  rw [map_key_oneOfEach]
  exact List.nodup_dedup _

/-- Any row may be the one of its group that is returned. -/
theorem exists_choice (key : α → κ) {rows : List α} {a : α} (ha : a ∈ rows) :
    ∃ pick, a ∈ oneOfEach pick key rows := by
  classical
  let pick : Choice α :=
    { choose := fun group => if a ∈ group then some a else group.head?
      chosen := by
        intro group hgroup
        by_cases hmem : a ∈ group
        · exact ⟨a, hmem, if_pos hmem⟩
        · rw [if_neg hmem]
          exact Choice.first.chosen group hgroup }
  refine ⟨pick, ?_⟩
  unfold oneOfEach groups
  rw [List.filterMap_map, List.mem_filterMap]
  refine ⟨key a, List.mem_dedup.mpr (List.mem_map_of_mem ha), ?_⟩
  have hgroup : a ∈ rows.filter (fun b => key b = key a) := by simp [ha]
  exact if_pos hgroup

end Lagotto.Relational
