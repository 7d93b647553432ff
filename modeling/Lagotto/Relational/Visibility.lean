/-
Lagotto.Relational.Visibility — two lists of rows that look the same to an
observer who sees only some of them.

`Agree visible l m` says that the visible rows are the same, in the same
order. A query that selects visible rows only has the same result on both
(`Agree.filter_eq`), and what is derived row by row agrees again, as long as
it can be told from a derived row whether the original was visible
(`Agree.filterMap`).
-/
import Mathlib.Data.List.Basic

namespace Lagotto.Relational

variable {α β : Type}

/-- The visible rows are the same. -/
def Agree (visible : α → Bool) (l m : List α) : Prop := l.filter visible = m.filter visible

/-- A selection within another one can be made from that one. -/
theorem filter_of_imp {p q : α → Bool} {l : List α} (h : ∀ x ∈ l, p x = true → q x = true) :
    l.filter p = (l.filter q).filter p := by
  rw [List.filter_filter]
  refine List.filter_congr fun x hx => ?_
  cases hp : p x with
  | false => rfl
  | true => rw [h x hx hp, Bool.and_self]

/-- The last of the rows selected, in a loop that overwrites. -/
theorem foldl_overwrite (p : α → Bool) (f : α → β) (l : List α) (start : β) :
    l.foldl (fun found x => if p x then f x else found) start =
      (l.filter p).foldl (fun _ x => f x) start := by
  induction l generalizing start with
  | nil => rfl
  | cons x l ih =>
    rw [List.foldl_cons, ih, List.filter_cons]
    cases p x with
    | false => rfl
    | true => rfl

namespace Agree

variable {visible : α → Bool} {l m : List α}

theorem mem (h : Agree visible l m) {x : α} (hx : x ∈ l) (hvisible : visible x = true) : x ∈ m := by
  have hmem : x ∈ m.filter visible := h ▸ List.mem_filter.mpr ⟨hx, hvisible⟩
  exact (List.mem_filter.mp hmem).1

theorem symm (h : Agree visible l m) : Agree visible m l := Eq.symm h

theorem filter_eq (h : Agree visible l m) {p : α → Bool}
    (hl : ∀ x ∈ l, p x = true → visible x = true) (hm : ∀ x ∈ m, p x = true → visible x = true) :
    l.filter p = m.filter p := by
  rw [filter_of_imp hl, filter_of_imp hm, h]

theorem any_eq (h : Agree visible l m) {p : α → Bool} (hp : ∀ x, p x = true → visible x = true) :
    l.any p = m.any p := by
  have hany : ∀ l : List α, l.any p = (l.filter visible).any p := by
    intro l
    rw [List.any_filter]
    congr 1
    funext x
    cases hx : p x with
    | false => rw [Bool.and_false]
    | true => rw [hp x hx, Bool.and_self]
  rw [hany l, hany m, h]

theorem filter (h : Agree visible l m) (p : α → Bool) :
    Agree visible (l.filter p) (m.filter p) := by
  show (l.filter p).filter visible = (m.filter p).filter visible
  rw [List.filter_comm, h, List.filter_comm]

theorem filterMap (h : Agree visible l m) {f : α → Option β} {visible' : β → Bool}
    (hf : ∀ x y, f x = some y → visible' y = visible x) :
    Agree visible' (l.filterMap f) (m.filterMap f) := by
  have hfilter : ∀ l : List α,
      (l.filterMap f).filter visible' = (l.filter visible).filterMap f := by
    intro l
    induction l with
    | nil => rfl
    | cons x l ih =>
      cases hx : f x with
      | none =>
        rw [List.filterMap_cons_none hx, ih, List.filter_cons]
        split
        · rw [List.filterMap_cons_none hx]
        · rfl
      | some y =>
        rw [List.filterMap_cons_some hx, List.filter_cons, hf x y hx, ih, List.filter_cons]
        split
        · rw [List.filterMap_cons_some hx]
        · rfl
  rw [Agree, hfilter, hfilter, h]

end Agree

end Lagotto.Relational
