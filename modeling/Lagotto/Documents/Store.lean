/-
Lagotto.Documents.Store — documents with revisions.

A document is written with the revision its writer has seen, or with none if
the writer has seen no document, and the store refuses any other one. So a
write that is accepted replaces what its writer knew of, unless the writer has
asked for the revision without reading the document.
-/
import Mathlib.Data.Option.Basic

namespace Lagotto.Documents

/-- A document and the revision it has. -/
structure Document (α : Type) where
  rev : Nat
  body : α

/-- Documents under their names. -/
def Store (κ α : Type) := κ → Option (Document α)

namespace Store

variable {κ α : Type}

/-- The store without documents. -/
def empty : Store κ α := fun _ => none

/-- The revision of a document. -/
def rev (s : Store κ α) (k : κ) : Option Nat := (s k).map Document.rev

/-- The body of a document. -/
def body (s : Store κ α) (k : κ) : Option α := (s k).map Document.body

@[simp] theorem body_empty (k : κ) : (empty : Store κ α).body k = none := rfl

variable [DecidableEq κ]

/-- A write; `none` is a conflict. -/
def put (s : Store κ α) (k : κ) (rev : Option Nat) (body : α) : Option (Nat × Store κ α) :=
  if s.rev k = rev then
    let next := rev.getD 0 + 1
    some (next, fun j => if j = k then some ⟨next, body⟩ else s j)
  else none

variable {s : Store κ α} {k j : κ} {r : Option Nat} {b : α} {saved : Nat × Store κ α}

/-- Who knows the revision may write. -/
theorem put_rev (s : Store κ α) (k : κ) (b : α) : ∃ saved, s.put k (s.rev k) b = some saved :=
  ⟨_, if_pos rfl⟩

/-- Who has seen no document conflicts with one that is there. -/
theorem put_none (h : s k ≠ none) (b : α) : s.put k none b = none := by
  refine if_neg ?_
  intro hrev
  exact h (Option.map_eq_none_iff.mp hrev)

theorem put_apply (h : s.put k r b = some saved) (j : κ) :
    saved.2 j = if j = k then some ⟨saved.1, b⟩ else s j := by
  unfold put at h
  split at h
  · cases h
    rfl
  · cases h

theorem body_put (h : s.put k r b = some saved) (j : κ) :
    saved.2.body j = if j = k then some b else s.body j := by
  unfold body
  rw [put_apply h]
  split <;> rfl

end Store

end Lagotto.Documents
