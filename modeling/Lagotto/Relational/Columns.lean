/-
Lagotto.Relational.Columns — what a series of statements leaves of some
columns.

`Touches` says which rows are left alone as a whole. Statements that write
one column of many rows leave the other columns of all of them alone, and
that is `Keeps`: every row reads as the row of its key did before, but for
rows that are new and rows that were written. Like `Touches` it is closed
under composition, and every statement has its own lemma.
-/
import Lagotto.Relational.Table

namespace Lagotto.Relational

namespace Table

variable {α β : Type} [Row α] {columns : α → β} {written written' : Nat → β → Prop}
  {fresh : β → Prop} {t t₁ t₂ t₃ : Table α}

/-- A row has the columns it had before, or it is new and has fresh ones, or they
are what may have been written under its key. -/
structure Keeps (columns : α → β) (written : Nat → β → Prop) (fresh : β → Prop)
    (t t' : Table α) : Prop where
  nextId : t.nextId ≤ t'.nextId
  origin : ∀ r' ∈ t'.rows, (∃ r ∈ t.rows, Row.id r = Row.id r' ∧ columns r = columns r') ∨
    (t.nextId ≤ Row.id r' ∧ fresh (columns r')) ∨ written (Row.id r') (columns r')

theorem Keeps.refl (t : Table α) : Keeps columns written fresh t t :=
  ⟨Nat.le_refl _, fun r hr => Or.inl ⟨r, hr, rfl, rfl⟩⟩

theorem Keeps.trans (h₁₂ : Keeps columns written fresh t₁ t₂)
    (h₂₃ : Keeps columns written fresh t₂ t₃) : Keeps columns written fresh t₁ t₃ where
  nextId := Nat.le_trans h₁₂.nextId h₂₃.nextId
  origin := by
    intro r₃ hr₃
    rcases h₂₃.origin r₃ hr₃ with ⟨r₂, hr₂, hid, hcolumns⟩ | ⟨hnew, hfresh⟩ | hwritten
    · rcases h₁₂.origin r₂ hr₂ with ⟨r₁, hr₁, hid', hcolumns'⟩ | ⟨hnew, hfresh⟩ | hwritten
      · exact Or.inl ⟨r₁, hr₁, hid'.trans hid, hcolumns'.trans hcolumns⟩
      · exact Or.inr (Or.inl ⟨hid ▸ hnew, hcolumns ▸ hfresh⟩)
      · exact Or.inr (Or.inr (hid ▸ hcolumns ▸ hwritten))
    · exact Or.inr (Or.inl ⟨Nat.le_trans h₁₂.nextId hnew, hfresh⟩)
    · exact Or.inr (Or.inr hwritten)

theorem Keeps.mono (h : Keeps columns written fresh t₁ t₂)
    (hw : ∀ id columns, written id columns → written' id columns) :
    Keeps columns written' fresh t₁ t₂ :=
  ⟨h.nextId, fun r hr => (h.origin r hr).imp_right (Or.imp_right (hw _ _))⟩

/-- A bulk update of other columns. -/
theorem keeps_updateAll (t : Table α) (p : α → Bool) (f : α → α)
    (hf : ∀ r, p r = true → columns (Row.withId (Row.id r) (f r)) = columns r) :
    Keeps columns written fresh t (t.updateAll p f) where
  nextId := Nat.le_refl _
  origin := by
    intro r' hr'
    obtain ⟨r, hr, rfl⟩ := List.mem_map.mp hr'
    refine Or.inl ⟨r, hr, (id_updateRow p f r).symm, ?_⟩
    unfold updateRow
    split
    next hp => exact (hf r hp).symm
    next => rfl

/-- What only deletes rows. -/
theorem keeps_of_subset {t' : Table α} (hnext : t.nextId ≤ t'.nextId)
    (h : ∀ r ∈ t'.rows, r ∈ t.rows) : Keeps columns written fresh t t' :=
  ⟨hnext, fun r hr => Or.inl ⟨r, h r hr, rfl, rfl⟩⟩

/-- Rows are only added, and those that are have fresh columns. -/
theorem keeps_of_touches (h : Touches (fun _ => False) (fun r => fresh (columns r)) t₁ t₂) :
    Keeps columns written fresh t₁ t₂ where
  nextId := h.nextId
  origin := by
    intro r hr
    rcases h.origin r hr with hold | ⟨hfresh, hnew | ⟨_, _, _, hnone⟩⟩
    · exact Or.inl ⟨r, hold, rfl, rfl⟩
    · exact Or.inr (Or.inl ⟨hnew, hfresh⟩)
    · exact hnone.elim

end Table

end Lagotto.Relational
