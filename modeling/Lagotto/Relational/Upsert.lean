/-
Lagotto.Relational.Upsert — the row a condition finds is changed, and if there
is none it is inserted.

No index enforces that a condition finds one row at most. It does as long as
every row that satisfies it has come from an `upsert` with that condition:
`filter_upsert` says that one row is found afterwards if at most one was found
before, `filter_upsert_other` that conditions the row does not satisfy find what
they found, and `mem_upsert` that nothing else is written.
-/
import Lagotto.Relational.Table

namespace Lagotto.Relational.Table

variable {α : Type} [Row α]

/-- The row added last among those that satisfy the condition. -/
def last (t : Table α) (p : α → Bool) : Option α := (t.rows.filter p).getLast?

/-- `where(p).first_or_initialize`, newest first, changed and saved. -/
def upsert (t : Table α) (p : α → Bool) (created : α) (change : α → α) : Table α :=
  match t.last p with
  | some r => t.put (change r)
  | none => t.insert created

/-- What a condition finds when the row of a key has been written, if it is
satisfied by the new row as by the old one. -/
theorem filter_put_of_eq {t : Table α} {r s : α} (hr : r ∈ t.rows) (hid : Row.id s = Row.id r)
    {q : α → Bool} (hq : q s = q r) :
    (t.put s).rows.filter q =
      (t.rows.filter q).map (fun u => if Row.id u = Row.id s then s else u) := by
  have hsame : ∀ u ∈ t.rows, q (if Row.id u = Row.id s then s else u) = q u := by
    intro u hu
    split
    next h => rw [t.eq_of_id_eq hu hr (h.trans hid), hq]
    next => rfl
  simp only [put, rows_updateAll, List.filter_map]
  have hrow : updateRow (fun u => Row.id u == Row.id s) (fun _ => s) =
      fun u => if Row.id u = Row.id s then s else u := by
    funext u
    exact updateRow_put s u
  rw [hrow]
  exact congrArg _ (List.filter_congr hsame)

section Upsert

variable {t : Table α} {p q : α → Bool} {created : α} {change : α → α}

theorem last_eq_none (h : t.last p = none) : t.rows.filter p = [] :=
  List.getLast?_eq_none_iff.mp h

theorem mem_of_last {r : α} (h : t.last p = some r) : r ∈ t.rows ∧ p r = true :=
  List.mem_filter.mp (List.mem_of_getLast? h)

/-- One row is found, the one that was found or inserted. -/
theorem filter_upsert (hone : (t.rows.filter p).length ≤ 1)
    (hcreated : p (Row.withId t.nextId created) = true)
    (hchange : ∀ r, p r = true → p (change r) = true)
    (hid : ∀ r, Row.id (change r) = Row.id r) :
    ∃ r, (t.upsert p created change).rows.filter p = [r] ∧
      (r = Row.withId t.nextId created ∨ ∃ old, r = change old) := by
  unfold upsert
  cases hlast : t.last p with
  | none =>
    refine ⟨Row.withId t.nextId created, ?_, .inl rfl⟩
    simp [last_eq_none hlast, hcreated]
  | some r =>
    obtain ⟨hr, hp⟩ := mem_of_last hlast
    have hfound : t.rows.filter p = [r] := by
      have hlength : (t.rows.filter p).length = 1 :=
        Nat.le_antisymm hone (List.length_pos_of_mem (List.mem_filter.mpr ⟨hr, hp⟩))
      obtain ⟨u, hu⟩ := List.length_eq_one_iff.mp hlength
      have hmem : r ∈ [u] := hu ▸ List.mem_filter.mpr ⟨hr, hp⟩
      rw [hu, List.mem_singleton.mp hmem]
    refine ⟨change r, ?_, .inr ⟨r, rfl⟩⟩
    rw [filter_put_of_eq hr (hid r) ((hchange r hp).trans hp.symm), hfound]
    simp [hid]

/-- A condition that the row does not satisfy, before or after, finds what it
found. -/
theorem filter_upsert_other (hq : ∀ r, p r = true → q r = false)
    (hcreated : p (Row.withId t.nextId created) = true)
    (hchange : ∀ r, p r = true → p (change r) = true)
    (hid : ∀ r, Row.id (change r) = Row.id r) :
    (t.upsert p created change).rows.filter q = t.rows.filter q := by
  unfold upsert
  cases hlast : t.last p with
  | none => simp [hq _ hcreated]
  | some r =>
    obtain ⟨hr, hp⟩ := mem_of_last hlast
    rw [filter_put_of_eq hr (hid r) ((hq _ (hchange r hp)).trans (hq r hp).symm)]
    conv_rhs => rw [← List.map_id (t.rows.filter q)]
    refine List.map_congr_left (fun u hu => ?_)
    obtain ⟨hu, hqu⟩ := List.mem_filter.mp hu
    have hne : Row.id u ≠ Row.id (change r) := by
      intro h
      rw [t.eq_of_id_eq hu hr (h.trans (hid r)), hq r hp] at hqu
      cases hqu
    rw [if_neg hne, id_eq]

/-- A row that does not satisfy the condition is left as it is. -/
theorem mem_upsert {r : α} (hr : r ∈ t.rows) (hp : p r = false)
    (hid : ∀ r, Row.id (change r) = Row.id r) : r ∈ (t.upsert p created change).rows := by
  unfold upsert
  cases hlast : t.last p with
  | none => simp [hr]
  | some u =>
    obtain ⟨hu, hpu⟩ := mem_of_last hlast
    refine mem_put.mpr (.inl ⟨hr, fun h => ?_⟩)
    rw [t.eq_of_id_eq hr hu (h.trans (hid u)), hpu] at hp
    cases hp

end Upsert

end Lagotto.Relational.Table
